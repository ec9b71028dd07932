/-
The conflict loop of `OnAppendEntries`, against the log of the leader that sent the entries.

`T` is the leader's log, the request holds a piece of it that starts at `k`, and the receiver's log agrees with `T` up
to `k`.
-/
import MaxRedis.Raft.ElectionSafety

namespace MaxRedis.Raft

open LogStorage LawfulLog RaftNode List

variable {N C L : Type} [LogStorage N C L] [LawfulLog N C L]
  {E T es : List (LogEntry N C)} {k : ℕ} {last : LogEntry N C}

def Numbered (T : List (LogEntry N C)) : Prop := ∀ i e, T[i]? = some e → e.index = i + 1

def Match (E T : List (LogEntry N C)) : Prop :=
  ∀ i e f, E[i]? = some e → T[i]? = some f → e.term = f.term → E.take (i + 1) = T.take (i + 1)

lemma Match.of_le (h : E <+: T) : Match E T := by
  intro i e f he _ _
  obtain ⟨r, rfl⟩ := h
  have hi : i < E.length := (List.getElem?_eq_some_iff.1 he).1
  rw [take_append_of_le_length hi]

lemma prefix_of_last (hm : Match E T)
    (hl : ∀ i, E.length = i + 1 → T[i]?.map LogEntry.term = some (TermLog.lastTerm E)) : E <+: T := by
  rcases eq_nil_or_concat E with rfl | ⟨E', e, rfl⟩
  · exact nil_prefix
  · have hget := hl E'.length (by simp)
    rw [concat_eq_append, TermLog.lastTerm_concat, Option.map_eq_some_iff] at hget
    obtain ⟨x, hx, hxt⟩ := hget
    have heq := hm E'.length e x (by simp) hx hxt.symm
    rw [take_of_length_le (by simp)] at heq
    rw [heq]
    exact take_prefix _ _

lemma take_succ_of_getElem? {α : Type} {T : List α} {e : α} (h : T[k]? = some e) :
    T.take (k + 1) = T.take k ++ [e] := by
  rw [take_add_one, h]; rfl

lemma common_le {α : Type} {E T p : List α} {x e : α} (hE : E[k]? = some x) (hT : T[k]? = some e)
    (hne : x ≠ e) (h1 : p <+: E) (h2 : p <+: T) : p.length ≤ k := by
  by_contra hlt
  have hk : k < p.length := by omega
  obtain ⟨r, rfl⟩ := h1
  obtain ⟨u, rfl⟩ := h2
  rw [getElem?_append_left hk] at hE hT
  rw [hE] at hT
  exact hne (Option.some.inj hT)

theorem appendLoop_spec (hidx : Numbered T) (es : List (LogEntry N C)) (l : L) (k : ℕ)
    (hp : Plain l) (hk : k ≤ T.length) (hT : T.take k ++ es <+: T) (hpre : T.take k <+: entries l)
    (hm : Match (entries l) T) :
    ∃ l', appendLoop l es = (l', false) ∧ Plain l' ∧ T.take (k + es.length) <+: entries l' ∧
      (entries l' = entries l ∨
        (entries l' = T.take (k + es.length) ∧ ∀ p, p <+: entries l → p <+: T → p <+: T.take (k + es.length))) := by
  induction es generalizing l k with
  | nil => exact ⟨l, rfl, hp, hpre, Or.inl rfl⟩
  | cons e es ih =>
    have hTk : T[k]? = some e := by
      obtain ⟨r, hr⟩ := hT
      rw [← hr]
      simp [Nat.min_eq_left hk]
    have hlt : k < T.length := (List.getElem?_eq_some_iff.1 hTk).1
    have hei : e.index = k + 1 := hidx k e hTk
    have hsucc := take_succ_of_getElem? hTk
    have hT' : T.take (k + 1) ++ es <+: T := by rw [hsucc, append_assoc]; exact hT
    have hkE : k ≤ (entries l).length := by
      have := hpre.length_le
      rw [length_take, Nat.min_eq_left hk] at this
      exact this
    have hlen : k + (e :: es).length = k + 1 + es.length := by simp; omega
    have hfull : k + 1 + es.length ≤ T.length := by
      have := hT'.length_le
      rw [length_append, length_take, Nat.min_eq_left hlt] at this
      exact this
    rw [hlen]
    -- once an entry has been written, the rest of the piece follows it
    have hwrite : ∀ l1 : L, Plain l1 → entries l1 = T.take (k + 1) →
        (∀ p, p <+: entries l → p <+: T → p.length ≤ k) →
        ∃ l', appendLoop l1 es = (l', false) ∧ Plain l' ∧ T.take (k + 1 + es.length) <+: entries l' ∧
          (entries l' = entries l ∨ (entries l' = T.take (k + 1 + es.length) ∧
            ∀ p, p <+: entries l → p <+: T → p <+: T.take (k + 1 + es.length))) := by
      intro l1 hp1 he1 hcommon
      have hle : entries l1 <+: T := by rw [he1]; exact take_prefix _ _
      obtain ⟨l', h1, h2, h3, h4⟩ := ih l1 (k + 1) hp1 hlt hT' (by rw [he1]) (.of_le hle)
      refine ⟨l', h1, h2, h3, Or.inr ⟨?_, fun p hpE hpT => ?_⟩⟩
      · rcases h4 with h4 | ⟨h4, -⟩
        · refine (h3.eq_of_length_le ?_).symm
          rw [h4, he1, length_take, length_take]
          omega
        · exact h4
      · exact prefix_take_iff.2 ⟨hpT, by have := hcommon p hpE hpT; omega⟩
    have hwritten : ({ e with index := k + 1 } : LogEntry N C) = e := by rw [← hei]
    simp only [appendLoop]
    rw [lastIndex_eq l hp.whole, hei]
    by_cases hin : k + 1 ≤ (entries l).length
    · rw [if_pos hin, get_eq l hp.whole]
      have hEk : (entries l)[k]? = some ((entries l)[k]) := getElem?_eq_getElem hin
      rw [hEk]
      by_cases hterm : ((entries l)[k]).term = e.term
      · -- the entry is there already
        rw [if_pos (by rw [Option.map_some, hterm])]
        have hpre' : T.take (k + 1) <+: entries l := by
          rw [← hm k _ _ hEk hTk hterm]; exact take_prefix _ _
        exact ih l (k + 1) hp hlt hT' hpre' hm
      · rw [if_neg (by rw [Option.map_some]; simpa using hterm)]
        have htr := truncate_eq l k hp.whole hkE
        have hET : (entries l).take k = T.take k := by
          have h1 : (entries l).take k <+: entries l := take_prefix _ _
          exact ((prefix_of_prefix_length_le h1 hpre (by simp; omega)).eq_of_length (by simp; omega))
        have hpt := truncate_plain l k hp hkE
        refine hwrite _ (append_plain _ _ _ hpt) ?_ (fun p hpE hpT => ?_)
        · rw [Nat.add_sub_cancel, append_eq _ _ _ hpt.whole, htr, hsucc, hET]
          rw [length_take, Nat.min_eq_left hk, hwritten]
        · exact common_le hEk hTk (fun h => hterm (by rw [h])) hpE hpT
    · have hEk : (entries l).length = k := by omega
      rw [if_neg hin, if_pos (by rw [hEk])]
      have hET : entries l = T.take k := (hpre.eq_of_length_le (by simp; omega)).symm
      refine hwrite _ (append_plain _ _ _ hp) ?_ (fun p hpE _ => by rw [← hEk]; exact hpE.length_le)
      rw [append_eq _ _ _ hp.whole, hEk, hwritten, hsucc, ← hET]

lemma truncateTail_spec (l : L) (hp : Plain l) (es : List (LogEntry N C)) :
    Plain (truncateTail l es) ∧ (entries (truncateTail l es) = entries l ∨
      ∃ last, es.getLast? = some last ∧ last.index < (entries l).length ∧
        entries (truncateTail l es) = (entries l).take last.index) := by
  unfold truncateTail
  cases hl : es.getLast? with
  | none => exact ⟨hp, Or.inl rfl⟩
  | some last =>
    dsimp only
    rw [lastIndex_eq l hp.whole]
    split_ifs with h
    · exact ⟨truncate_plain l _ hp h.le, Or.inr ⟨last, rfl, h, truncate_eq l _ hp.whole h.le⟩⟩
    · exact ⟨hp, Or.inl rfl⟩

lemma truncateTail_length (l : L) (hp : Plain l)
    (hl : es.getLast? = some last) : (entries (truncateTail l es)).length ≤ last.index := by
  unfold truncateTail
  rw [hl]
  dsimp only
  rw [lastIndex_eq l hp.whole]
  split_ifs with h
  · rw [truncate_eq l _ hp.whole h.le, length_take]; omega
  · omega

lemma numbered_getLast (hT : Numbered T) (hk : k ≤ T.length)
    (hs : T.take k ++ es <+: T) (hl : es.getLast? = some last) : last.index = k + es.length := by
  have hpos : 0 < es.length := length_pos_iff.2 (by rintro rfl; simp at hl)
  have hTl : T[k + es.length - 1]? = some last := by
    obtain ⟨r, hr⟩ := hs
    rw [← hr, append_assoc, getElem?_append_right (by simp; omega), length_take, Nat.min_eq_left hk,
      getElem?_append_left (by omega), ← hl, getLast?_eq_getElem?]
    congr 1
    omega
  rw [hT _ _ hTl]
  omega

/-- **What an accepted request does to the log**, tail cut included: it is kept, or becomes the leader's log up to the
last entry sent. What the two logs have in common is lost only if the entries sent were all there already. -/
theorem accept_spec (hidx : Numbered T) (es : List (LogEntry N C)) (l : L) (k : ℕ)
    (hp : Plain l) (hk : k ≤ T.length) (hT : T.take k ++ es <+: T) (hpre : T.take k <+: entries l)
    (hm : Match (entries l) T) : ∃ l', appendLoop l es = (l', false) ∧ Plain (truncateTail l' es) ∧
      (es ≠ [] → (entries (truncateTail l' es)).length ≤ k + es.length) ∧
      T.take (k + es.length) <+: entries (truncateTail l' es) ∧
      (entries (truncateTail l' es) = entries l ∨ entries (truncateTail l' es) = T.take (k + es.length)) ∧
      ((∀ p, p <+: entries l → p <+: T → p <+: entries (truncateTail l' es)) ∨
        (es ≠ [] ∧ T.take (k + es.length) <+: entries l ∧ entries (truncateTail l' es) = T.take (k + es.length))) := by
  obtain ⟨l', hloop, hp', h1, h2⟩ := appendLoop_spec hidx es l k hp hk hT hpre hm
  obtain ⟨hpt, ht⟩ := truncateTail_spec l' hp' es
  have hlen : (T.take (k + es.length)).length = k + es.length := by
    have := hT.length_le
    rw [length_append, length_take, Nat.min_eq_left hk] at this
    rw [length_take, Nat.min_eq_left this]
  refine ⟨l', hloop, hpt, fun hne => ?_, ?_⟩
  · have hlast := getLast?_eq_some_getLast hne
    rw [← numbered_getLast hidx hk hT hlast]
    exact truncateTail_length l' hp' hlast
  rcases ht with ht | ⟨last, hlast, hlt, ht⟩
  · rw [ht]
    refine ⟨h1, h2.imp_right (fun h => h.1), Or.inl ?_⟩
    rcases h2 with h2 | ⟨h2, hc⟩
    · rw [h2]; exact fun p hpE _ => hpE
    · rw [h2]; exact hc
  · -- the tail past the last entry sent is cut, so the loop had found all of them
    have hne : es ≠ [] := by rintro rfl; simp at hlast
    rw [numbered_getLast hidx hk hT hlast] at ht hlt
    have hcut : entries (truncateTail l' es) = T.take (k + es.length) := by
      rw [ht]
      exact ((prefix_of_prefix_length_le h1 ( take_prefix _ _) (by rw [hlen, length_take]; omega)).eq_of_length
        (by rw [hlen, length_take]; omega)).symm
    rcases h2 with h2 | ⟨h2, -⟩
    · rw [h2] at h1
      exact ⟨by rw [hcut], Or.inr hcut, Or.inr ⟨hne, h1, hcut⟩⟩
    · rw [h2, hlen] at hlt; exact absurd hlt (lt_irrefl _)

end MaxRedis.Raft

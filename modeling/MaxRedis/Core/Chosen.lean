/-
Decided prefixes of replicated logs: the second half of the term-log library.
-/
import MaxRedis.Core.TermLog

namespace MaxRedis.TermLog

open Termed Function List

variable {N E : Type} {q : Quorums N} {h : Hist N E}

/-- index `i`, an entry of term `t`, is acknowledged by a quorum in which nobody but the nodes still able to
acknowledge it is missing -/
def Choosable (q : Quorums N) (h : Hist N E) (t i : ℕ) : Prop :=
  h.start t < i ∧ i ≤ (h.tlog t).length ∧ ∃ Q, q.mem Q ∧ ∀ n ∈ Q, i ≤ h.acked n t ∨ h.term n ≤ t

lemma Committed.choosable {t i : ℕ} (hc : Committed q h t i) : Choosable q h t i := by
  obtain ⟨h1, h2, Q, hQ, ha⟩ := hc
  exact ⟨h1, h2, Q, hQ, fun n hn => Or.inl (ha n hn)⟩

lemma Choosable.of_raise [DecidableEq N] {n : N} {t0 t i : ℕ} (h0 : h.term n ≤ t0)
    (hc : Choosable q { h with term := update h.term n t0 } t i) : Choosable q h t i := by
  obtain ⟨h1, h2, Q, hQ, ha⟩ := hc
  refine ⟨h1, h2, Q, hQ, fun m hm => ?_⟩
  rcases ha m hm with ha | ha
  · exact Or.inl ha
  · exact Or.inr ((le_update_self_iff.2 h0 m).trans ha)

structure Safe (q : Quorums N) (h : Hist N E) : Prop where
  ack_le : ∀ n t, h.acked n t ≤ (h.tlog t).length
  ack_term : ∀ n t, 0 < h.acked n t → t ≤ h.term n
  ack_lead : ∀ t c, h.leader t = some c → h.acked c t = (h.tlog t).length
  /-- later leaders start with every choosable prefix -/
  later : ∀ t u i, t < u → h.leader u ≠ none → Choosable q h t i → (h.tlog t).take i <+: (h.tlog u).take (h.start u)
  /-- a node keeps the choosable prefixes it has acknowledged -/
  kept : ∀ n t i, Choosable q h t i → i ≤ h.acked n t → (h.tlog t).take i <+: h.log n
  /-- a vote goes to a log that has every choosable prefix the voter has acknowledged -/
  voted : ∀ v u c l t i, h.vote v u = some c → h.camp c u = some l → t < u → Choosable q h t i → i ≤ h.acked v t →
    (h.tlog t).take i <+: l
  /-- whoever has led a term keeps the choosable prefixes of that term and earlier ones -/
  held : ∀ u c t i, h.leader u = some c → t ≤ u → Choosable q h t i → (h.tlog t).take i <+: h.log c
  commit_ok : ∀ t, 0 < h.commit t → Committed q h t (h.commit t)

lemma safe_init (q : Quorums N) : Safe q (Hist.init : Hist N E) := by
  constructor <;> simp [Hist.init, Choosable]

section
variable [Termed E] {q : Quorums N} {h : Hist N E} {t i u a : ℕ} {e : E}

section
variable (b : Base q h)
include b

lemma Base.take_last (hi : h.start t < i) (hl : i ≤ (h.tlog t).length) :
    ∃ p e, (h.tlog t).take i = p ++ [e] ∧ term e = t := by
  refine ⟨(h.tlog t).take (i - 1), (h.tlog t)[i - 1], ?_, ?_⟩
  · rw [take_concat_get', Nat.sub_add_cancel (by omega)]
  · apply b.start_eq
    rw [mem_drop_iff_getElem]
    exact ⟨i - 1 - h.start t, by omega, by congr 1; omega⟩

lemma Base.start_lt_length {l : List E} (hp : l ++ [e] <+: h.tlog (term e)) :
    h.start (term e) ≤ l.length := by
  by_contra hlt
  have hmem : e ∈ (h.tlog (term e)).take (h.start (term e)) := by
    have : l ++ [e] <+: (h.tlog (term e)).take (h.start (term e)) := by
      rw [prefix_take_iff]; exact ⟨hp, by simp; omega⟩
    exact this.subset (by simp)
  exact absurd (b.start_lt _ e hmem) (lt_irrefl _)

/-- **Recency carries prefixes.** -/
lemma Base.recent_carries {l k : List E} (hl : Good h l) (hk : Good h k)
    (hlu : ∀ e ∈ l, term e < u) (hr : Recent l k) (hi : h.start t < i) (hlen : i ≤ (h.tlog t).length)
    (hT : (h.tlog t).take i <+: k)
    (hlater : ∀ w, t < w → h.leader w ≠ none → w < u → (h.tlog t).take i <+: (h.tlog w).take (h.start w)) :
    (h.tlog t).take i <+: l := by
  obtain ⟨p, e, hpe, het⟩ := b.take_last hi hlen
  have hlead : h.leader t ≠ none := by
    intro hn; have := b.no_lead t hn; rw [this] at hlen; simp at hlen; omega
  have htpos := b.lead_pos t hlead
  have hek : e ∈ k := hT.subset (by rw [hpe]; simp)
  -- the last entry of `k` is of term `t` or later
  obtain ⟨k', x, rfl⟩ : ∃ k' x, k = k' ++ [x] := by
    rcases eq_nil_or_concat' k with rfl | hk'
    · simp at hek
    · exact hk'
  have htx : t ≤ term x := by
    rcases mem_append.1 hek with he | he
    · rw [← het]; exact b.good_sorted hk (prefix_refl _) e he
    · simp only [mem_singleton] at he; rw [← het, he]
  have hkl : term x ≤ lastTerm l := by
    have := lastTerm_concat k' x
    rcases hr with hr | hr <;> omega
  obtain ⟨l', y, rfl⟩ : ∃ l' y, l = l' ++ [y] := by
    rcases eq_nil_or_concat' l with rfl | hl'
    · simp [lastTerm] at hkl; omega
    · exact hl'
  rw [lastTerm_concat] at hkl
  obtain ⟨hly, hpy⟩ := hl l' y (prefix_refl _)
  rcases Nat.lt_or_ge t (term y) with hty | hty
  · -- the last entry of `l` was made by a later leader, which started with the prefix
    have h1 := hlater (term y) hty hly (hlu y (by simp))
    have h2 : (h.tlog (term y)).take (h.start (term y)) <+: l' ++ [y] := by
      refine prefix_of_prefix_length_le ( take_prefix _ _) hpy ?_
      have := b.start_lt_length hpy
      simp; omega
    exact h1.trans h2
  · -- both logs end in term `t`, so the longer one has what the shorter one has
    have hyt : term y = t := by omega
    rw [hyt] at hpy
    refine prefix_of_prefix_length_le ( take_prefix _ _) hpy ?_
    have hlk : (k' ++ [x]).length ≤ (l' ++ [y]).length := by
      rcases hr with hr | hr
      · rw [lastTerm_concat, lastTerm_concat] at hr; omega
      · exact hr.2
    exact hT.length_le.trans hlk

lemma Base.no_later_leader (hau : a < u) (hQ : ∃ Q, q.mem Q ∧ ∀ n ∈ Q, h.term n ≤ a) :
    h.leader u = none := by
  obtain ⟨Q, hQ, ha⟩ := hQ
  cases hu : h.leader u with
  | none => rfl
  | some d =>
    obtain ⟨R, hR, hv⟩ := b.lead_votes u d hu
    obtain ⟨v, hvQ, hvR⟩ := q.meet Q R hQ hR
    have h1 := b.vote_le v u (by rw [hv v hvR]; simp)
    have h2 := ha v hvQ
    omega

lemma Base.committed_leader (hc : Committed q h t i) : h.leader t ≠ none := by
  intro hn
  have h2 := hc.2.1
  rw [b.no_lead t hn, length_nil] at h2
  have := hc.1
  omega

end

variable [DecidableEq N] {n c : N}

lemma committed_record (b : Base q h) (s : Safe q h) {ev : Ev N E} (ok : Ok q h ev)
    (hc : Committed q h t i) : Committed q (record h ev) t i := by
  have hl := b.committed_leader hc
  have hgrow := (grows_record b ok).tlog t hl
  obtain ⟨h1, h2, Q, hQ, ha⟩ := hc
  refine ⟨?_, h2.trans hgrow.length_le, Q, hQ, fun n hn => ?_⟩
  · cases ev with
    | win _ u =>
      have : t ≠ u := by rintro rfl; exact hl (b.leader_none ok)
      simpa only [record, update_of_ne this] using h1
    | _ => exact h1
  · have h3 := ha n hn
    cases ev with
    | win _ u =>
      have : t ≠ u := by rintro rfl; exact hl (b.leader_none ok)
      simpa only [record, set2_ne h.acked _ (Or.inr this)] using h3
    | append c =>
      simp only [record]
      rcases set2_cases h.acked c n (h.term c) t ((h.log c).length + 1) with ⟨rfl, rfl, he⟩ | ⟨-, he⟩
      · have := s.ack_lead _ n ok.1
        rw [← b.lead_log n ok.1] at this
        rw [he]; omega
      · rw [he]; exact h3
    | ack m u k =>
      simp only [record]
      rcases set2_cases h.acked m n u t (max (h.acked m u) k) with ⟨rfl, rfl, he⟩ | ⟨-, he⟩
      · rw [he]; exact h3.trans (le_max_left _ _)
      · rw [he]; exact h3
    | _ => exact h3

omit [Termed E] in
lemma Safe.raise (s : Safe q h) (n : N) (t : ℕ) (ht : h.term n ≤ t) :
    Safe q { h with term := update h.term n t } := by
  refine { s with ack_term := ?_, later := ?_, kept := ?_, voted := ?_, held := ?_ }
  · intro m u hu; exact (s.ack_term m u hu).trans (le_update_self_iff.2 ht m)
  · intro a u i hau hu hc; exact s.later a u i hau hu (hc.of_raise ht)
  · intro m a i hc hi; exact s.kept m a i (hc.of_raise ht) hi
  · intro v u c l a i hv hl hau hc hi; exact s.voted v u c l a i hv hl hau (hc.of_raise ht) hi
  · intro u c a i hu hau hc; exact s.held u c a i hu hau (hc.of_raise ht)

section
variable (b : Base q h) (s : Safe q h)
include b s

lemma safe_campaign (ok : Ok q h (.campaign n t)) : Safe q (record h (.campaign n t)) := by
  have ht : h.term n < t := ok
  have r := s.raise n t ht.le
  refine { r with voted := ?_ }
  intro v u c l a i hv hl hau hc hi
  have hc' : Choosable q h a i := Choosable.of_raise ht.le hc
  simp only [record] at hv hl
  rcases set2_cases h.camp n c t u (some (h.log n)) with ⟨rfl, rfl, he⟩ | ⟨hne, he⟩
  · -- the only vote for a candidate of this very moment is its own
    rw [he] at hl; cases hl
    rcases set2_cases h.vote c v u u (some c) with ⟨rfl, -, -⟩ | ⟨-, hw⟩
    · exact s.kept v a i hc' hi
    · rw [hw] at hv
      exact absurd (b.camp_le c u (b.vote_camp v u c hv)) (by omega)
  · rw [he] at hl
    rcases set2_cases h.vote n v t u (some n) with ⟨rfl, rfl, hw⟩ | ⟨-, hw⟩
    · rw [hw] at hv; cases hv; simp at hne
    · rw [hw] at hv; exact s.voted v u c l a i hv hl hau hc' hi

lemma safe_grant {v c : N} (ok : Ok q h (.grant v t c)) : Safe q (record h (.grant v t c)) := by
  obtain ⟨ht, -, lc, hlc, hrec⟩ := ok
  have r := s.raise v t ht
  refine { r with voted := ?_ }
  intro w u d l a i hw hl hau hc hi
  have hc' : Choosable q h a i := Choosable.of_raise ht hc
  simp only [record] at hw hl
  rcases set2_cases h.vote v w t u (some c) with ⟨rfl, rfl, he⟩ | ⟨-, he⟩
  · rw [he] at hw; cases hw
    rw [hlc] at hl; cases hl
    obtain ⟨hgood, hlt⟩ := b.camp_good c u lc hlc
    exact b.recent_carries hgood (b.log_good w) hlt hrec hc'.1 hc'.2.1 (s.kept w a i hc' hi)
      (fun x hx hxl _ => s.later a x i hx hxl hc')
  · rw [he] at hw; exact s.voted w u d l a i hw hl hau hc' hi

lemma safe_win (ok : Ok q h (.win c t)) : Safe q (record h (.win c t)) := by
  have hok := ok
  have hn := b.leader_none ok
  have hnil := b.no_lead t hn
  obtain ⟨ht, -, hcamp, Q, hQ, hv⟩ := ok
  obtain ⟨l, hl⟩ := Option.ne_none_iff_exists'.1 hcamp
  have hlog : h.log c = l := b.camp_log c l (by rw [ht]; exact hl) (by rw [ht]; exact hn)
  have hacked : ∀ m u, u ≠ t → set2 h.acked c t (h.log c).length m u = h.acked m u :=
    fun m u hu => set2_ne h.acked _ (Or.inr hu)
  -- nothing of the new term can be chosen yet, and the other terms are as before
  have hch : ∀ a i, Choosable q (record h (.win c t)) a i → a ≠ t ∧ Choosable q h a i := by
    intro a i hc
    obtain ⟨h1, h2, R, hR, ha⟩ := hc
    by_cases hat : a = t
    · subst hat; simp only [record, update_self] at h1 h2; omega
    · refine ⟨hat, ?_⟩
      simp only [record, update_of_ne hat] at h1 h2
      exact ⟨h1, h2, R, hR, fun m hm => by simpa only [record, hacked m a hat] using ha m hm⟩
  -- a quorum that can still choose an index of an earlier term shares a voter with the winner's
  have hwin : ∀ a i, a < t → Choosable q h a i → (h.tlog a).take i <+: h.log c := by
    intro a i hat hc
    obtain ⟨R, hR, ha⟩ := hc.2.2
    obtain ⟨v, hvQ, hvR⟩ := q.meet Q R hQ hR
    have hvt := b.vote_le v t (by rw [hv v hvQ]; simp)
    have hi : i ≤ h.acked v a := (ha v hvR).resolve_right (by omega)
    rw [hlog]; exact s.voted v t c l a i (hv v hvQ) hl hat hc hi
  refine ⟨?_, ?_, ?_, ?_, ?_, ?_, ?_, fun t ht => committed_record b s hok (s.commit_ok t ht)⟩
  · intro m u
    by_cases hut : u = t
    · subst hut
      simp only [record, update_self]
      rcases set2_cases h.acked c m u u (h.log c).length with ⟨-, -, he⟩ | ⟨-, he⟩
      · rw [he]
      · have := s.ack_le m u; rw [hnil] at this; rw [he]; simp at this; omega
    · simp only [record, update_of_ne hut, hacked m u hut]; exact s.ack_le m u
  · intro m u hu
    simp only [record] at hu ⊢
    rcases set2_cases h.acked c m t u (h.log c).length with ⟨rfl, rfl, -⟩ | ⟨-, he⟩
    · exact ht.ge
    · rw [he] at hu; exact s.ack_term m u hu
  · intro u d hd
    by_cases hut : u = t
    · subst hut
      simp only [record, update_self, Option.some.injEq] at hd ⊢
      rw [← hd]; exact set2_self _ _ _ _
    · simp only [record, update_of_ne hut, hacked d u hut] at hd ⊢; exact s.ack_lead u d hd
  · intro a u i hau hu hc
    obtain ⟨hat, hc'⟩ := hch a i hc
    by_cases hut : u = t
    · subst hut
      simp only [record, update_self, update_of_ne hat, take_length]
      exact hwin a i hau hc'
    · simp only [record, update_of_ne hut, update_of_ne hat] at hu ⊢
      exact s.later a u i hau hu hc'
  · intro m a i hc hi
    obtain ⟨hat, hc'⟩ := hch a i hc
    simp only [record, update_of_ne hat, hacked m a hat] at hi ⊢
    exact s.kept m a i hc' hi
  · intro v u d k a i hv hk hau hc hi
    obtain ⟨hat, hc'⟩ := hch a i hc
    simp only [record, update_of_ne hat, hacked v a hat] at hi ⊢
    exact s.voted v u d k a i hv hk hau hc' hi
  · intro u d a i hd hau hc
    obtain ⟨hat, hc'⟩ := hch a i hc
    by_cases hut : u = t
    · subst hut
      simp only [record, update_self, Option.some.injEq, update_of_ne hat] at hd ⊢
      rw [← hd]; exact hwin a i (lt_of_le_of_ne hau hat) hc'
    · simp only [record, update_of_ne hut, update_of_ne hat] at hd ⊢
      exact s.held u d a i hd hau hc'

lemma choosable_append (hl : h.leader (h.term c) = some c) (hc : Choosable q (record h (.append c e)) a i) :
    (Choosable q h a i ∧ ((record h (.append c e)).tlog a).take i = (h.tlog a).take i) ∨
    (a = h.term c ∧ i = (h.tlog a).length + 1 ∧ ∃ Q, q.mem Q ∧ ∀ n ∈ Q, h.term n ≤ a) := by
  obtain ⟨h1, h2, Q, hQ, ha⟩ := hc
  by_cases hat : a = h.term c
  · subst hat
    simp only [record, update_self, ← b.lead_log c hl] at h2 ⊢
    have hlen : (h.log c).length = h.acked c (h.term c) := by rw [s.ack_lead _ c hl, b.lead_log c hl]
    have hmem : ∀ n ∈ Q, i ≤ h.acked n (h.term c) ∨ n = c ∨ h.term n ≤ h.term c := by
      intro n hn
      rcases ha n hn with han | han
      · simp only [record] at han
        rcases set2_cases h.acked c n (h.term c) (h.term c) ((h.log c).length + 1) with ⟨hnc, -, -⟩ | ⟨-, he⟩
        · exact Or.inr (Or.inl hnc)
        · rw [he] at han; exact Or.inl han
      · exact Or.inr (Or.inr han)
    rcases Nat.lt_or_ge (h.log c).length i with hi | hi
    · refine Or.inr ⟨trivial, by simp at h2; omega, Q, hQ, fun n hn => ?_⟩
      rcases hmem n hn with han | rfl | han
      · have := s.ack_le n (h.term c); rw [← b.lead_log c hl] at this; omega
      · exact le_refl _
      · exact han
    · refine Or.inl ⟨⟨h1, by rwa [← b.lead_log c hl], Q, hQ, fun n hn => ?_⟩, by rw [take_append_of_le_length hi]⟩
      rcases hmem n hn with han | rfl | han
      · exact Or.inl han
      · exact Or.inr (le_refl _)
      · exact Or.inr han
  · simp only [record, update_of_ne hat] at h1 h2 ⊢
    refine Or.inl ⟨⟨h1, h2, Q, hQ, fun n hn => ?_⟩, trivial⟩
    simpa only [record, set2_ne h.acked _ (Or.inr hat)] using ha n hn

lemma safe_append (ok : Ok q h (.append c e)) : Safe q (record h (.append c e)) := by
  have hl := ok.1
  have hlog := b.lead_log c hl
  have hlen : (h.log c).length = h.acked c (h.term c) := by rw [s.ack_lead _ c hl, hlog]
  have hgrow : ∀ n, h.log n <+: (record h (.append c e)).log n := by
    intro n
    by_cases hn : n = c
    · subst hn; simp only [record, update_self]; exact prefix_append _ _
    · simp [record, hn]
  have htlog : ∀ u, h.tlog u <+: (record h (.append c e)).tlog u := by
    intro u
    by_cases hu : u = h.term c
    · subst hu; simp only [record, update_self, ← hlog]; exact prefix_append _ _
    · simp [record, hu]
  -- the leader is the only one to hold the new entry; everybody else's acknowledgements are as before
  have hack : ∀ n a, (n = c ∧ a = h.term c ∧ (record h (.append c e)).acked n a = (h.log c).length + 1) ∨
      (record h (.append c e)).acked n a = h.acked n a := by
    intro n a
    rcases set2_cases h.acked c n (h.term c) a ((h.log c).length + 1) with h1 | ⟨-, h1⟩
    · exact Or.inl h1
    · exact Or.inr h1
  have hnew : ∀ n a i, i = (h.tlog a).length + 1 → i ≤ (record h (.append c e)).acked n a → n = c := by
    intro n a i hi hin
    rcases hack n a with ⟨hn, -, -⟩ | he
    · exact hn
    · have := s.ack_le n a; omega
  have hold : ∀ n a i, Choosable q h a i → i ≤ (record h (.append c e)).acked n a → i ≤ h.acked n a := by
    intro n a i hc hin
    rcases hack n a with ⟨rfl, rfl, -⟩ | he
    · have := hc.2.1; rw [← hlog] at this; omega
    · omega
  refine ⟨?_, ?_, ?_, ?_, ?_, ?_, ?_, fun t ht => committed_record b s ok (s.commit_ok t ht)⟩
  · intro n a
    rcases hack n a with ⟨rfl, rfl, he⟩ | he
    · rw [he]; simp [record]
    · rw [he]; exact (s.ack_le n a).trans (htlog a).length_le
  · intro n a hpos
    rcases hack n a with ⟨rfl, rfl, -⟩ | he
    · exact le_refl _
    · rw [he] at hpos; exact s.ack_term n a hpos
  · intro a d hd
    by_cases hat : a = h.term c
    · subst hat
      have hd' : h.leader (h.term c) = some d := hd
      rw [hl] at hd'; cases hd'
      simp [record, set2_self]
    · simp only [record, update_of_ne hat, set2_ne h.acked _ (Or.inr hat)]; exact s.ack_lead a d hd
  · intro a u i hau hu hc
    rcases choosable_append b s hl hc with ⟨hc', he⟩ | ⟨-, -, hQ⟩
    · rw [he]
      exact (s.later a u i hau hu hc').trans ((htlog u).take _)
    · exact absurd (b.no_later_leader hau hQ) hu
  · intro n a i hc hin
    rcases choosable_append b s hl hc with ⟨hc', he⟩ | ⟨rfl, hi, -⟩
    · rw [he]; exact (s.kept n a i hc' (hold n a i hc' hin)).trans (hgrow n)
    · have := hnew n _ i hi hin
      subst this
      simp only [record, update_self]; exact take_prefix _ _
  · intro v u d l a i hv hd hau hc hin
    rcases choosable_append b s hl hc with ⟨hc', he⟩ | ⟨rfl, hi, -⟩
    · rw [he]; exact s.voted v u d l a i hv hd hau hc' (hold v a i hc' hin)
    · have := hnew v _ i hi hin
      subst this
      have hvote : h.vote v u = some d := hv
      have := b.vote_le v u (by rw [hvote]; simp)
      omega
  · intro u d a i hd hau hc
    rcases choosable_append b s hl hc with ⟨hc', he⟩ | ⟨rfl, hi, hQ⟩
    · rw [he]; exact (s.held u d a i hd hau hc').trans (hgrow d)
    · have hd' : h.leader u = some d := hd
      rcases Nat.lt_or_eq_of_le hau with hlt | rfl
      · rw [b.no_later_leader hlt hQ] at hd'; cases hd'
      · rw [hl] at hd'; cases hd'
        simp only [record, update_self]; exact take_prefix _ _

lemma safe_adopt {l : List E} (ok : Ok q h (.adopt n t l))
    (keep : Keep h (.adopt n t l)) : Safe q (record h (.adopt n t l)) := by
  obtain ⟨ht, ⟨c, hc, hcn⟩, -⟩ := ok
  have r := s.raise n t ht
  -- a choosable prefix of this term or an earlier one is in the leader's log, then and now, so the node keeps it
  have hkeep : ∀ a i, Choosable q h a i → a ≤ t → (h.tlog a).take i <+: h.log n → (h.tlog a).take i <+: l := by
    intro a i hch hat hn
    refine keep c hc _ hn ?_ (s.held t c a i hc hat hch)
    rcases Nat.lt_or_eq_of_le hat with hlt | rfl
    · exact (s.later a t i hlt (by rw [hc]; simp) hch).trans ( take_prefix _ _)
    · exact take_prefix _ _
  refine { r with kept := ?_, held := ?_ }
  · intro m a i hch hi
    have hch' : Choosable q h a i := Choosable.of_raise ht hch
    have hm := s.kept m a i hch' hi
    by_cases hmn : m = n
    · subst hmn
      have ha := s.ack_term m a (by have := hch'.1; simp only [record] at hi; omega)
      simp only [record, update_self]; exact hkeep a i hch' (ha.trans ht) hm
    · simp only [record, update_of_ne hmn]; exact hm
  · intro u d a i hd hau hch
    have hch' : Choosable q h a i := Choosable.of_raise ht hch
    have hm := s.held u d a i hd hau hch'
    by_cases hdn : d = n
    · subst hdn
      have hut : u ≤ t := (b.lead_term u d hd).trans ht
      simp only [record, update_self]; exact hkeep a i hch' (hau.trans hut) hm
    · simp only [record, update_of_ne hdn]; exact hm

lemma safe_ack {t m : ℕ} (ok : Ok q h (.ack n t m)) : Safe q (record h (.ack n t m)) := by
  have hok := ok
  obtain ⟨ht, -, hm, hlog⟩ := ok
  have hack : ∀ v a, (v = n ∧ a = t ∧ (record h (.ack n t m)).acked v a = max (h.acked n t) m) ∨
      (record h (.ack n t m)).acked v a = h.acked v a := by
    intro v a
    rcases set2_cases h.acked n v t a (max (h.acked n t) m) with h1 | ⟨-, h1⟩
    · exact Or.inl h1
    · exact Or.inr h1
  -- the node is still in the term, so it was counted on already
  have hch : ∀ a i, Choosable q (record h (.ack n t m)) a i → Choosable q h a i := by
    rintro a i ⟨h1, h2, Q, hQ, ha⟩
    refine ⟨h1, h2, Q, hQ, fun v hv => ?_⟩
    rcases hack v a with ⟨rfl, rfl, -⟩ | he
    · exact Or.inr ht.le
    · have h3 := ha v hv; rw [he] at h3; exact h3
  refine ⟨?_, ?_, ?_, ?_, ?_, ?_, ?_, fun t ht => committed_record b s hok (s.commit_ok t ht)⟩
  · intro v a
    rcases hack v a with ⟨rfl, rfl, he⟩ | he
    · rw [he]; exact max_le (s.ack_le v a) hm
    · rw [he]; exact s.ack_le v a
  · intro v a hpos
    rcases hack v a with ⟨rfl, rfl, -⟩ | he
    · exact ht.ge
    · rw [he] at hpos; exact s.ack_term v a hpos
  · intro a d hd
    have hd' := s.ack_lead a d hd
    rcases hack d a with ⟨rfl, rfl, he⟩ | he
    · rw [he]; simp only [record]; omega
    · rw [he]; exact hd'
  · intro a u i hau hu hc; exact s.later a u i hau hu (hch a i hc)
  · intro v a i hc hi
    have hc' := hch a i hc
    rcases hack v a with ⟨rfl, rfl, he⟩ | he
    · rw [he] at hi
      rcases le_max_iff.1 hi with hi | hi
      · exact s.kept v a i hc' hi
      · exact (take_prefix_take_left hi).trans hlog
    · rw [he] at hi; exact s.kept v a i hc' hi
  · intro v u d l a i hv hd hau hc hi
    have hc' := hch a i hc
    rcases hack v a with ⟨rfl, rfl, -⟩ | he
    · have hvote : h.vote v u = some d := hv
      have := b.vote_le v u (by rw [hvote]; simp)
      omega
    · rw [he] at hi; exact s.voted v u d l a i hv hd hau hc' hi
  · intro u d a i hd hau hc; exact s.held u d a i hd hau (hch a i hc)

end

lemma safe_commit (s : Safe q h) (ok : Ok q h (.commit c i)) : Safe q (record h (.commit c i)) := by
  refine { s with commit_ok := ?_ }
  intro t ht
  simp only [record] at ht ⊢
  by_cases htc : t = h.term c
  · subst htc
    rw [update_self] at ht ⊢
    rcases max_choice (h.commit (h.term c)) i with he | he
    · rw [he] at ht ⊢; exact s.commit_ok _ ht
    · rw [he]; exact ok.2
  · rw [update_of_ne htc] at ht ⊢; exact s.commit_ok t ht

lemma safe_record (b : Base q h) (s : Safe q h) {ev : Ev N E} (ok : Ok q h ev) (keep : Keep h ev) :
    Safe q (record h ev) := by
  cases ev with
  | observe n t => exact s.raise n t ok
  | campaign => exact safe_campaign b s ok
  | grant => exact safe_grant b s ok
  | win => exact safe_win b s ok
  | append => exact safe_append b s ok
  | adopt => exact safe_adopt b s ok keep
  | ack => exact safe_ack b s ok
  | commit => exact safe_commit s ok

/-! ## Decided prefixes -/

end

def Decided (h : Hist N E) (b : ℕ) (p : List E) : Prop := ∃ t ≤ b, p <+: (h.tlog t).take (h.commit t)

section
variable {q : Quorums N} {h : Hist N E} {b k u : ℕ} {p r : List E}

lemma decided_nil (b : ℕ) : Decided h b [] := ⟨0, Nat.zero_le b, nil_prefix⟩

lemma Decided.of_le (hd : Decided h b p) (hr : r <+: p) : Decided h b r := by
  obtain ⟨t, ht, hp⟩ := hd
  exact ⟨t, ht, hr.trans hp⟩

lemma Decided.mono {b b' : ℕ} (hd : Decided h b p) (hb : b ≤ b') : Decided h b' p := by
  obtain ⟨t, ht, hp⟩ := hd
  exact ⟨t, ht.trans hb, hp⟩

lemma Safe.decided_cases (s : Safe q h) (hd : Decided h b p) :
    p = [] ∨ ∃ t ≤ b, Committed q h t (h.commit t) ∧ p <+: (h.tlog t).take (h.commit t) := by
  obtain ⟨t, ht, hp⟩ := hd
  rcases Nat.eq_zero_or_pos (h.commit t) with h0 | h0
  · rw [h0] at hp; exact Or.inl (prefix_nil.1 hp)
  · exact Or.inr ⟨t, ht, s.commit_ok t h0, hp⟩

lemma decided_tlog (s : Safe q h) (hd : Decided h k p) (hk : k ≤ u) (hu : h.leader u ≠ none) : p <+: h.tlog u := by
  rcases s.decided_cases hd with rfl | ⟨t, ht, hc, hp⟩
  · exact nil_prefix
  · rcases Nat.lt_or_eq_of_le (ht.trans hk) with hlt | rfl
    · exact hp.trans ((s.later t u _ hlt hu hc.choosable).trans ( take_prefix _ _))
    · exact hp.trans ( take_prefix _ _)

lemma decided_held (s : Safe q h) {c : N} (hd : Decided h k p) (hk : k ≤ u)
    (hu : h.leader u = some c) : p <+: h.log c := by
  rcases s.decided_cases hd with rfl | ⟨t, ht, hc, hp⟩
  · exact nil_prefix
  · exact hp.trans (s.held u c t _ hu (ht.trans hk) hc.choosable)

lemma commit_record [DecidableEq N] (h : Hist N E) (ev : Ev N E) (t : ℕ) : h.commit t ≤ (record h ev).commit t := by
  cases ev with
  | commit c =>
    by_cases htc : t = h.term c
    · subst htc; simp [record]
    · simp [record, htc]
  | _ => exact le_rfl

variable [Termed E]

theorem decided_comparable (b : Base q h) (s : Safe q h) {k m : ℕ} (hp : Decided h k p)
    (hr : Decided h m r) : p <+: r ∨ r <+: p := by
  rcases s.decided_cases hp with rfl | ⟨t, -, hc, hpt⟩
  · exact Or.inl nil_prefix
  rcases s.decided_cases hr with rfl | ⟨u, -, hd, hru⟩
  · exact Or.inr nil_prefix
  rcases le_total t u with htu | hut
  · exact prefix_or_prefix_of_prefix
      (decided_tlog s ⟨t, htu, hpt⟩ le_rfl (b.committed_leader hd)) (hru.trans ( take_prefix _ _))
  · exact prefix_or_prefix_of_prefix
      (hpt.trans ( take_prefix _ _)) (decided_tlog s ⟨u, hut, hru⟩ le_rfl (b.committed_leader hc))

/-- **The last leader covers what is decided.** -/
lemma decided_covered (b : Base q h) (s : Safe q h) {k u c : ℕ} (hd : Decided h k p)
    (hlast : ∀ t, u < t → h.leader t = none) (hu : h.leader u ≠ none) (hstart : h.start u < c)
    (hcommit : h.commit u ≤ c) : p.length ≤ c := by
  rcases s.decided_cases hd with rfl | ⟨t, -, hc, hp⟩
  · exact Nat.zero_le c
  have hlen : p.length ≤ h.commit t := hp.length_le.trans (length_take_le _ _)
  have htu : t ≤ u := by
    by_contra hlt
    exact b.committed_leader hc (hlast t (Nat.not_le.1 hlt))
  rcases Nat.lt_or_eq_of_le htu with hlt | rfl
  · -- what an earlier leader has committed was in the log this one was elected with
    have hin := (s.later t u _ hlt hu hc.choosable).length_le
    rw [length_take, Nat.min_eq_left hc.2.1] at hin
    calc p.length ≤ h.commit t := hlen
      _ ≤ h.start u := hin.trans (length_take_le _ _)
      _ ≤ c := hstart.le
  · exact hlen.trans hcommit

variable [DecidableEq N]

lemma decided_record (b : Base q h) (s : Safe q h) {ev : Ev N E} (ok : Ok q h ev)
    (hd : Decided h k p) : Decided (record h ev) k p := by
  rcases s.decided_cases hd with rfl | ⟨t, ht, hc, hp⟩
  · exact decided_nil k
  · refine ⟨t, ht, hp.trans ?_⟩
    exact (((grows_record b ok).tlog t (b.committed_leader hc)).take _).trans
      (take_prefix_take_left (commit_record h ev t))

end

/-! ## What a node in a leader's term holds -/

def Holds (h : Hist N E) : Prop :=
  ∀ t c n, h.leader t = some c → h.term c ≤ t → h.term n ≤ t → (h.tlog t).take (h.acked n t) <+: h.log n

lemma holds_init : Holds (Hist.init : Hist N E) := by
  intro t c n hl
  simp [Hist.init] at hl

section
variable [DecidableEq N] {q : Quorums N} {h : Hist N E} {t : ℕ}

lemma Holds.raise (hh : Holds h) {n : N} (ht : h.term n ≤ t) :
    Holds { h with term := update h.term n t } := by
  have hmono : ∀ m, h.term m ≤ update h.term n t m := le_update_self_iff.2 ht
  intro u c m hc h1 h2
  exact hh u c m hc ((hmono c).trans h1) ((hmono m).trans h2)

variable [Termed E]

lemma holds_win (b : Base q h) (s : Safe q h) (hh : Holds h) {c : N} (ok : Ok q h (.win c t)) :
    Holds (record h (.win c t)) := by
  have hnone := b.leader_none ok
  intro u d n hd h1 h2
  by_cases hut : u = t
  · subst hut
    simp only [record, update_self]
    rcases set2_cases h.acked c n u u (h.log c).length with ⟨rfl, -, he⟩ | ⟨-, he⟩
    · exact take_prefix _ _
    · -- nothing has been acknowledged of a term that had no leader
      have hle := s.ack_le n u
      rw [b.no_lead u hnone] at hle
      rw [he, Nat.le_zero.1 hle]
      exact nil_prefix
  · simp only [record, update_of_ne hut, set2_ne h.acked _ (Or.inr hut)] at hd ⊢
    exact hh u d n hd h1 h2

lemma holds_append (b : Base q h) (s : Safe q h) (hh : Holds h) {c : N} {e : E} (ok : Ok q h (.append c e)) :
    Holds (record h (.append c e)) := by
  have hlog := b.lead_log c ok.1
  intro u d n hd h1 h2
  have hold := hh u d n hd h1 h2
  simp only [record]
  by_cases hnc : n = c
  · subst hnc
    rw [update_self]
    by_cases hut : u = h.term n
    · subst hut
      rw [update_self]
      exact take_prefix _ _
    · rw [update_of_ne hut, set2_ne h.acked _ (Or.inr hut)]
      exact hold.trans (prefix_append _ _)
  · rw [update_of_ne hnc, set2_ne h.acked _ (Or.inl hnc)]
    by_cases hut : u = h.term c
    · subst hut
      rw [update_self, take_append_of_le_length (by rw [hlog]; exact s.ack_le n _), hlog]
      exact hold
    · rw [update_of_ne hut]
      exact hold

lemma holds_adopt (b : Base q h) (s : Safe q h) (hh : Holds h) {m : N} {l : List E}
    (ok : Ok q h (.adopt m t l)) (keep : Keep h (.adopt m t l)) : Holds (record h (.adopt m t l)) := by
  obtain ⟨ht, ⟨c, hc, hcm⟩, -⟩ := ok
  have hraise := hh.raise ht
  intro u d n hd h1 h2
  have hold := hraise u d n hd h1 h2
  simp only [record]
  by_cases hnm : n = m
  swap
  · rw [update_of_ne hnm]; exact hold
  subst hnm
  rw [update_self]
  change update h.term n t n ≤ u at h2
  rw [update_self] at h2
  rcases Nat.eq_zero_or_pos (h.acked n u) with h0 | hpos
  · rw [h0]; exact nil_prefix
  -- the node has acknowledged something of the term, so it was in it before and is in it now
  have hterm := s.ack_term n u hpos
  obtain rfl : u = t := by omega
  have hdc : d = c := Option.some.inj (hd.symm.trans hc)
  subst hdc
  have hcur : h.term d = u := by
    change update h.term n u d ≤ u at h1
    rw [update_of_ne hcm] at h1
    exact le_antisymm h1 (b.lead_term u d hc)
  refine keep d hc _ hold ( take_prefix _ _) ?_
  rw [b.lead_log d (by rw [hcur]; exact hc), hcur]
  exact take_prefix _ _

lemma holds_record (b : Base q h) (s : Safe q h) (hh : Holds h) {ev : Ev N E} (ok : Ok q h ev) (keep : Keep h ev) :
    Holds (record h ev) := by
  cases ev with
  | observe => exact hh.raise ok
  | campaign => exact hh.raise (le_of_lt ok)
  | grant => exact hh.raise ok.1
  | win => exact holds_win b s hh ok
  | append => exact holds_append b s hh ok
  | adopt => exact holds_adopt b s hh ok keep
  | ack n t m =>
    intro u c v hc h1 h2
    have hold := hh u c v hc h1 h2
    simp only [record]
    rcases set2_cases h.acked n v t u (max (h.acked n t) m) with ⟨rfl, rfl, he⟩ | ⟨-, he⟩
    · rw [he]
      rcases max_choice (h.acked v u) m with hm | hm
      · rw [hm]; exact hold
      · rw [hm]; exact ok.2.2.2
    · rw [he]; exact hold
  | commit => exact hh

end

end MaxRedis.TermLog

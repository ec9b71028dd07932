/-
Replicated logs ordered by terms: a general library, with nothing of any particular program in it.

A set of nodes `N` keeps logs of entries `E`; every entry carries the term in which it was made. Time is cut into
terms, and a term has at most one leader, chosen by a quorum of votes. What happens to such a system is a sequence of
events (`Ev`):
- `observe`, `campaign`, `grant`, `win`: the election events. A node votes once a term, and only for a candidate whose
  log is at least as recent as its own (`Recent`);
- `append`: the leader of a term adds an entry of that term to its own log;
- `adopt`: a node takes over a part of a leader's log, or cuts its own;
- `ack`: a node reports that its log starts with the first `m` entries of the leader's.
`Hist` is what has happened so far: each node's term and log, every vote and candidacy, the leader of every term with
the log it had in that term (`tlog`) and the acknowledgements. `Ok` says when an event may happen.
-/
import Mathlib.Data.Finset.Card
import Mathlib.Data.List.Infix
import Mathlib.Logic.Function.Basic
import Mathlib.Tactic

namespace MaxRedis.TermLog

open List

/-! ## Nodes, entries and what has happened -/

class Termed (E : Type) where
  term : E → ℕ

structure Quorums (N : Type) where
  mem : Finset N → Prop
  meet : ∀ Q R, mem Q → mem R → ∃ n ∈ Q, n ∈ R

structure Hist (N E : Type) where
  term : N → ℕ
  log : N → List E
  /-- the candidate a node voted for in a term -/
  vote : N → ℕ → Option N
  /-- the log with which a node stood for election in a term -/
  camp : N → ℕ → Option (List E)
  leader : ℕ → Option N
  /-- the log of a term's leader, at its longest in that term -/
  tlog : ℕ → List E
  /-- how much of `tlog` the leader had when it was elected -/
  start : ℕ → ℕ
  /-- the longest prefix of `tlog` that a node has acknowledged in that term -/
  acked : N → ℕ → ℕ
  /-- the highest index a term's leader has committed in that term -/
  commit : ℕ → ℕ

inductive Ev (N E : Type) where
  | observe (n : N) (t : ℕ)
  | campaign (n : N) (t : ℕ)
  | grant (v : N) (t : ℕ) (c : N)
  | win (c : N) (t : ℕ)
  | append (c : N) (e : E)
  | adopt (n : N) (t : ℕ) (l : List E)
  | ack (n : N) (t m : ℕ)
  | commit (c : N) (i : ℕ)

variable {N E : Type} {h h' : Hist N E}

open Termed Function

def Hist.init : Hist N E :=
  ⟨fun _ => 0, fun _ => [], fun _ _ => none, fun _ _ => none, fun _ => none, fun _ => [], fun _ => 0, fun _ _ => 0,
    fun _ => 0⟩

def Committed (q : Quorums N) (h : Hist N E) (t i : ℕ) : Prop :=
  h.start t < i ∧ i ≤ (h.tlog t).length ∧ ∃ Q, q.mem Q ∧ ∀ n ∈ Q, i ≤ h.acked n t

section Logs
variable [Termed E] {h : Hist N E}

def lastTerm (l : List E) : ℕ := (l.getLast?.map term).getD 0

lemma lastTerm_concat (l : List E) (e : E) : lastTerm (l ++ [e]) = term e := by simp [lastTerm]

def Recent (l k : List E) : Prop := lastTerm k < lastTerm l ∨ lastTerm k = lastTerm l ∧ k.length ≤ l.length

def Ok (q : Quorums N) (h : Hist N E) : Ev N E → Prop
  | .observe n t => h.term n ≤ t
  | .campaign n t => h.term n < t
  | .grant v t c => h.term v ≤ t ∧ (h.vote v t = none ∨ h.vote v t = some c) ∧
      ∃ l, h.camp c t = some l ∧ Recent l (h.log v)
  | .win c t => h.term c = t ∧ h.leader t ≠ some c ∧ h.camp c t ≠ none ∧ ∃ Q, q.mem Q ∧ ∀ v ∈ Q, h.vote v t = some c
  | .append c e => h.leader (h.term c) = some c ∧ term e = h.term c
  | .adopt n t l => h.term n ≤ t ∧ (∃ c, h.leader t = some c ∧ c ≠ n) ∧ (l <+: h.tlog t ∨ l <+: h.log n)
  | .ack n t m => h.term n = t ∧ h.leader t ≠ none ∧ m ≤ (h.tlog t).length ∧ (h.tlog t).take m <+: h.log n
  | .commit c i => h.leader (h.term c) = some c ∧ Committed q h (h.term c) i

def Good (h : Hist N E) (l : List E) : Prop :=
  ∀ p e, p ++ [e] <+: l → h.leader (term e) ≠ none ∧ p ++ [e] <+: h.tlog (term e)

lemma Good.of_le {l k : List E} (hg : Good h l) (hk : k <+: l) : Good h k :=
  fun p e hp => hg p e (hp.trans hk)

/-- **Log matching.** -/
theorem good_agree {l k p r : List E} {e f : E} (hl : Good h l) (hk : Good h k)
    (hp : p ++ [e] <+: l) (hr : r ++ [f] <+: k) (hlen : p.length = r.length) (ht : term e = term f) :
    p ++ [e] = r ++ [f] := by
  have h1 := (hl p e hp).2
  have h2 := (hk r f hr).2
  rw [← ht] at h2
  exact (prefix_of_prefix_length_le h1 h2 (by simp [hlen])).eq_of_length (by simp [hlen])

end Logs

/-- an `adopt` keeps what the node's log has in common with the leader's: with the log the leader had in that term
and with the log it has now -/
def Keep (h : Hist N E) : Ev N E → Prop
  | .adopt n t l => ∀ c, h.leader t = some c → ∀ p, p <+: h.log n → p <+: h.tlog t → p <+: h.log c → p <+: l
  | _ => True

structure Grows (h h' : Hist N E) : Prop where
  leader : ∀ t c, h.leader t = some c → h'.leader t = some c
  tlog : ∀ t, h.leader t ≠ none → h.tlog t <+: h'.tlog t

lemma Grows.leader_ne (g : Grows h h') {t : ℕ} (ht : h.leader t ≠ none) : h'.leader t ≠ none := by
  obtain ⟨c, hc⟩ := Option.ne_none_iff_exists'.1 ht
  rw [g.leader t c hc]; simp

lemma Good.grows [Termed E] (g : Grows h h') {l : List E} (hg : Good h l) : Good h' l := by
  intro p e hp
  obtain ⟨h1, h2⟩ := hg p e hp
  exact ⟨g.leader_ne h1, h2.trans (g.tlog _ h1)⟩

/-! ## The effect of an event -/

section Tables
variable [DecidableEq N] {X : Type} (f : N → ℕ → X)

def set2 (f : N → ℕ → X) (n : N) (t : ℕ) (x : X) : N → ℕ → X := update f n (update (f n) t x)

lemma set2_self (n : N) (t : ℕ) (x : X) : set2 f n t x n t = x := by simp [set2]

lemma set2_ne {n m : N} {t u : ℕ} (x : X) (h : m ≠ n ∨ u ≠ t) : set2 f n t x m u = f m u := by
  unfold set2
  by_cases hm : m = n
  · subst hm
    simp [h.resolve_left (fun hn => hn rfl)]
  · simp [hm]

lemma set2_cases (n m : N) (t u : ℕ) (x : X) :
    (m = n ∧ u = t ∧ set2 f n t x m u = x) ∨ ((m ≠ n ∨ u ≠ t) ∧ set2 f n t x m u = f m u) := by
  by_cases h : m = n ∧ u = t
  · obtain ⟨rfl, rfl⟩ := h
    exact Or.inl ⟨rfl, rfl, set2_self f _ _ x⟩
  · have h' : m ≠ n ∨ u ≠ t := by tauto
    exact Or.inr ⟨h', set2_ne f x h'⟩

end Tables

def record [DecidableEq N] (h : Hist N E) : Ev N E → Hist N E
  | .observe n t => { h with term := update h.term n t }
  | .campaign n t =>
    { h with term := update h.term n t, vote := set2 h.vote n t (some n), camp := set2 h.camp n t (some (h.log n)) }
  | .grant v t c => { h with term := update h.term v t, vote := set2 h.vote v t (some c) }
  | .win c t =>
    { h with
      leader := update h.leader t (some c), tlog := update h.tlog t (h.log c)
      start := update h.start t (h.log c).length, acked := set2 h.acked c t (h.log c).length }
  | .append c e =>
    { h with
      log := update h.log c (h.log c ++ [e]), tlog := update h.tlog (h.term c) (h.log c ++ [e])
      acked := set2 h.acked c (h.term c) ((h.log c).length + 1) }
  | .adopt n t l => { h with term := update h.term n t, log := update h.log n l }
  | .ack n t m => { h with acked := set2 h.acked n t (max (h.acked n t) m) }
  | .commit c i => { h with commit := update h.commit (h.term c) (max (h.commit (h.term c)) i) }

/-! ## One leader a term, logs made of leaders' logs -/

structure Base [Termed E] (q : Quorums N) (h : Hist N E) : Prop where
  vote_le : ∀ n t, h.vote n t ≠ none → t ≤ h.term n
  vote_camp : ∀ v t c, h.vote v t = some c → h.camp c t ≠ none
  camp_le : ∀ n t, h.camp n t ≠ none → t ≤ h.term n
  camp_pos : ∀ n t, h.camp n t ≠ none → 0 < t
  camp_good : ∀ n t l, h.camp n t = some l → Good h l ∧ ∀ e ∈ l, term e < t
  /-- until its term has a leader, a candidate's log is the one it stood with -/
  camp_log : ∀ n l, h.camp n (h.term n) = some l → h.leader (h.term n) = none → h.log n = l
  lead_pos : ∀ t, h.leader t ≠ none → 0 < t
  lead_term : ∀ t c, h.leader t = some c → t ≤ h.term c
  lead_votes : ∀ t c, h.leader t = some c → ∃ Q, q.mem Q ∧ ∀ v ∈ Q, h.vote v t = some c
  /-- a leader's log in its own term -/
  lead_log : ∀ c, h.leader (h.term c) = some c → h.log c = h.tlog (h.term c)
  no_lead : ∀ t, h.leader t = none → h.tlog t = []
  log_good : ∀ n, Good h (h.log n)
  tlog_good : ∀ t, Good h (h.tlog t)
  log_le : ∀ n, ∀ e ∈ h.log n, term e ≤ h.term n
  start_le : ∀ t, h.start t ≤ (h.tlog t).length
  start_lt : ∀ t, ∀ e ∈ (h.tlog t).take (h.start t), term e < t
  start_eq : ∀ t, ∀ e ∈ (h.tlog t).drop (h.start t), term e = t

lemma base_init [Termed E] (q : Quorums N) : Base q (Hist.init : Hist N E) := by
  constructor <;> simp [Hist.init, Good]

section
variable [Termed E] {q : Quorums N} {h : Hist N E} {c n : N} {t : ℕ}

section
variable (b : Base q h)
include b

lemma Base.tlog_le (t : ℕ) : ∀ e ∈ h.tlog t, term e ≤ t := by
  intro e he
  rw [← take_append_drop (h.start t) (h.tlog t), mem_append] at he
  rcases he with he | he
  · exact (b.start_lt t e he).le
  · exact (b.start_eq t e he).le

lemma Base.good_sorted {l p : List E} {e : E} (hl : Good h l) (hp : p ++ [e] <+: l) :
    ∀ x ∈ p, term x ≤ term e := by
  intro x hx
  exact b.tlog_le _ x ((hl p e hp).2.subset (mem_append_left _ hx))

lemma Base.leader_none (ok : Ok q h (.win c t)) : h.leader t = none := by
  obtain ⟨-, hc, -, Q, hQ, hv⟩ := ok
  cases hl : h.leader t with
  | none => rfl
  | some d =>
    obtain ⟨R, hR, hw⟩ := b.lead_votes t d hl
    obtain ⟨v, hvQ, hvR⟩ := q.meet Q R hQ hR
    have h1 := hv v hvQ
    rw [hw v hvR] at h1
    cases h1
    exact absurd hl hc

lemma Base.lead_same (ht : h.term n ≤ t) (hl : h.leader t = some n) :
    t = h.term n := le_antisymm (b.lead_term t n hl) ht

lemma Base.camp_same {l : List E} (ht : h.term n ≤ t) (hc : h.camp n t = some l) :
    t = h.term n := le_antisymm (b.camp_le n t (by rw [hc]; simp)) ht

end

variable [DecidableEq N] {ev : Ev N E}

lemma grows_record (b : Base q h) (ok : Ok q h ev) : Grows h (record h ev) := by
  cases ev with
  | win _ t =>
    have hn := b.leader_none ok
    refine ⟨fun u d hu => ?_, fun u hu => ?_⟩
    · have : u ≠ t := by rintro rfl; rw [hn] at hu; cases hu
      simp [record, this, hu]
    · have : u ≠ t := by rintro rfl; exact hu hn
      simp [record, this]
  | append c =>
    refine ⟨fun u d hu => hu, fun u hu => ?_⟩
    by_cases huc : u = h.term c
    · subst huc
      simp only [record, update_self, b.lead_log c ok.1]
      exact prefix_append _ _
    · simp [record, huc]
  | _ => exact ⟨fun u d hu => hu, fun u hu => prefix_refl _⟩

lemma term_record (ok : Ok q h ev) (n : N) : h.term n ≤ (record h ev).term n := by
  cases ev with
  | observe => exact le_update_self_iff.2 ok n
  | campaign => exact le_update_self_iff.2 (le_of_lt ok) n
  | grant | adopt => exact le_update_self_iff.2 ok.1 n
  | _ => exact le_rfl

section
variable (b : Base q h)
include b

lemma Base.raise (n : N) (t : ℕ) (ht : h.term n ≤ t) : Base q { h with term := update h.term n t } := by
  have hmono : ∀ m, h.term m ≤ update h.term n t m := le_update_self_iff.2 ht
  refine { b with vote_le := ?_, camp_le := ?_, camp_log := ?_, lead_term := ?_, lead_log := ?_, log_le := ?_ }
  · intro m u hu; exact (b.vote_le m u hu).trans (hmono m)
  · intro m u hu; exact (b.camp_le m u hu).trans (hmono m)
  · intro m l hc hl
    by_cases hm : m = n
    · subst hm
      simp only [update_self] at hc hl
      have := b.camp_same ht hc
      subst this
      exact b.camp_log m l hc hl
    · simp only [update_of_ne hm] at hc hl
      exact b.camp_log m l hc hl
  · intro u c hc; exact (b.lead_term u c hc).trans (hmono c)
  · intro c hc
    by_cases hm : c = n
    · subst hm
      simp only [update_self] at hc ⊢
      have := b.lead_same ht hc
      subst this
      exact b.lead_log c hc
    · simp only [update_of_ne hm] at hc ⊢
      exact b.lead_log c hc
  · intro m e he; exact (b.log_le m e he).trans (hmono m)

lemma base_campaign (ok : Ok q h (.campaign n t)) : Base q (record h (.campaign n t)) := by
  have ht : h.term n < t := ok
  have r := b.raise n t ht.le
  -- nobody can have voted for `n` in term `t` before
  have hfresh : h.camp n t = none := by
    by_contra hc
    exact absurd (b.camp_le n t hc) (by omega)
  refine { r with
    vote_le := ?_, vote_camp := ?_, camp_le := ?_, camp_pos := ?_, camp_good := ?_, camp_log := ?_, lead_votes := ?_ }
  · intro m u hu
    rcases set2_cases h.vote n m t u (some n) with ⟨rfl, rfl, -⟩ | ⟨-, he⟩
    · simp [record]
    · simp only [record] at hu; rw [he] at hu; exact r.vote_le m u hu
  · intro v u c hv
    simp only [record] at hv ⊢
    rcases set2_cases h.camp n c t u (some (h.log n)) with ⟨rfl, rfl, he⟩ | ⟨hne, he⟩
    · rw [he]; simp
    · rw [he]
      rcases set2_cases h.vote n v t u (some n) with ⟨rfl, rfl, hw⟩ | ⟨-, hw⟩
      · rw [hw] at hv; cases hv; simp at hne
      · rw [hw] at hv; exact b.vote_camp v u c hv
  · intro m u hu
    simp only [record] at hu
    rcases set2_cases h.camp n m t u (some (h.log n)) with ⟨rfl, rfl, -⟩ | ⟨-, he⟩
    · simp [record]
    · rw [he] at hu; exact r.camp_le m u hu
  · intro m u hu
    simp only [record] at hu
    rcases set2_cases h.camp n m t u (some (h.log n)) with ⟨-, rfl, -⟩ | ⟨-, he⟩
    · omega
    · rw [he] at hu; exact b.camp_pos m u hu
  · intro m u l hc
    simp only [record] at hc
    rcases set2_cases h.camp n m t u (some (h.log n)) with ⟨rfl, rfl, he⟩ | ⟨-, he⟩
    · rw [he] at hc; cases hc
      exact ⟨b.log_good m, fun e he => lt_of_le_of_lt (b.log_le m e he) ht⟩
    · rw [he] at hc; exact b.camp_good m u l hc
  · intro m l hc hl
    simp only [record] at hc hl ⊢
    rcases set2_cases h.camp n m t (update h.term n t m) (some (h.log n)) with ⟨rfl, -, he⟩ | ⟨-, he⟩
    · rw [he] at hc; cases hc; rfl
    · rw [he] at hc; exact r.camp_log m l hc hl
  · intro u c hc
    obtain ⟨Q, hQ, hv⟩ := b.lead_votes u c hc
    refine ⟨Q, hQ, fun v hvQ => ?_⟩
    simp only [record]
    rcases set2_cases h.vote n v t u (some n) with ⟨rfl, rfl, -⟩ | ⟨-, he⟩
    · have := b.vote_le v u (by rw [hv v hvQ]; simp); omega
    · rw [he]; exact hv v hvQ

lemma base_grant {v c : N} (ok : Ok q h (.grant v t c)) : Base q (record h (.grant v t c)) := by
  obtain ⟨ht, hfree, l, hl, -⟩ := ok
  have r := b.raise v t ht
  refine { r with vote_le := ?_, vote_camp := ?_, lead_votes := ?_ }
  · intro m u hu
    simp only [record] at hu
    rcases set2_cases h.vote v m t u (some c) with ⟨rfl, rfl, -⟩ | ⟨-, he⟩
    · simp [record]
    · rw [he] at hu; exact r.vote_le m u hu
  · intro w u d hw
    simp only [record] at hw ⊢
    rcases set2_cases h.vote v w t u (some c) with ⟨rfl, rfl, he⟩ | ⟨-, he⟩
    · rw [he] at hw; cases hw; rw [hl]; simp
    · rw [he] at hw; exact b.vote_camp w u d hw
  · intro u d hd
    obtain ⟨Q, hQ, hv⟩ := b.lead_votes u d hd
    refine ⟨Q, hQ, fun w hw => ?_⟩
    simp only [record]
    rcases set2_cases h.vote v w t u (some c) with ⟨rfl, rfl, he⟩ | ⟨-, he⟩
    · have h1 := hv w hw
      rcases hfree with h2 | h2
      · rw [h1] at h2; cases h2
      · rw [he, ← h2, h1]
    · rw [he]; exact hv w hw

lemma base_win (ok : Ok q h (.win c t)) : Base q (record h (.win c t)) := by
  have hn := b.leader_none ok
  have g := grows_record b ok
  obtain ⟨ht, -, hcamp, Q, hQ, hv⟩ := ok
  have htc : t ≤ h.term c := ht.ge
  obtain ⟨l, hl⟩ := Option.ne_none_iff_exists'.1 hcamp
  have hlog : h.log c = l := b.camp_log c l (by rw [ht]; exact hl) (by rw [ht]; exact hn)
  refine
    { b with
      camp_good := ?_, camp_log := ?_, lead_pos := ?_, lead_term := ?_, lead_votes := ?_, lead_log := ?_, no_lead := ?_,
      log_good := ?_, tlog_good := ?_, start_le := ?_, start_lt := ?_, start_eq := ?_ }
  · intro m u k hk; exact ⟨(b.camp_good m u k hk).1.grows g, (b.camp_good m u k hk).2⟩
  · intro m k hk hm
    simp only [record] at hm
    by_cases hmt : h.term m = t
    · rw [hmt] at hm; simp at hm
    · rw [update_of_ne hmt] at hm; exact b.camp_log m k hk hm
  · intro u hu
    by_cases hut : u = t
    · subst hut; exact b.camp_pos c u hcamp
    · simp only [record, update_of_ne hut] at hu; exact b.lead_pos u hu
  · intro u d hd
    by_cases hut : u = t
    · subst hut; simp only [record, update_self, Option.some.injEq] at hd; subst hd; exact htc
    · simp only [record, update_of_ne hut] at hd; exact b.lead_term u d hd
  · intro u d hd
    by_cases hut : u = t
    · subst hut; simp only [record, update_self, Option.some.injEq] at hd; subst hd; exact ⟨Q, hQ, hv⟩
    · simp only [record, update_of_ne hut] at hd; exact b.lead_votes u d hd
  · intro d hd
    by_cases hut : h.term d = t
    · simp only [record, hut, update_self, Option.some.injEq] at hd ⊢; rw [hd]
    · simp only [record, update_of_ne hut] at hd ⊢; exact b.lead_log d hd
  · intro u hu
    by_cases hut : u = t
    · subst hut; simp [record] at hu
    · simp only [record, update_of_ne hut] at hu ⊢; exact b.no_lead u hu
  · intro m; exact (b.log_good m).grows g
  · intro u
    by_cases hut : u = t
    · subst hut; simp only [record, update_self]; exact (b.log_good c).grows g
    · simp only [record, update_of_ne hut]; exact (b.tlog_good u).grows g
  · intro u
    by_cases hut : u = t
    · subst hut; simp [record]
    · simp only [record, update_of_ne hut]; exact b.start_le u
  · intro u e he
    by_cases hut : u = t
    · subst hut
      simp only [record, update_self, take_length] at he
      rw [hlog] at he
      exact (b.camp_good c u l hl).2 e he
    · simp only [record, update_of_ne hut] at he; exact b.start_lt u e he
  · intro u e he
    by_cases hut : u = t
    · subst hut; simp [record] at he
    · simp only [record, update_of_ne hut] at he; exact b.start_eq u e he

lemma base_append {e : E} (ok : Ok q h (.append c e)) : Base q (record h (.append c e)) := by
  have g := grows_record b ok
  obtain ⟨hl, he⟩ := ok
  have hlog := b.lead_log c hl
  -- the new entry stands at the end of the leader's log, and nowhere else
  have hgood : ∀ l, l = h.log c ++ [e] → Good (record h (.append c e)) l := by
    rintro l rfl p x hp
    rcases List.prefix_concat_iff.1 hp with hp | hp
    · obtain ⟨rfl, hx⟩ := append_inj' hp rfl
      cases hx
      refine ⟨g.leader_ne (by rw [he, hl]; simp), ?_⟩
      simp only [record, he, update_self]
      exact prefix_refl _
    · exact (b.log_good c).grows g p x hp
  refine
    { b with
      camp_good := ?_, camp_log := ?_, lead_log := ?_, no_lead := ?_, log_good := ?_, tlog_good := ?_, log_le := ?_,
      start_le := ?_, start_lt := ?_, start_eq := ?_ }
  · intro m u k hk; exact ⟨(b.camp_good m u k hk).1.grows g, (b.camp_good m u k hk).2⟩
  · intro m k hk hm
    simp only [record] at hk hm ⊢
    have hmc : m ≠ c := by rintro rfl; rw [hl] at hm; cases hm
    rw [update_of_ne hmc]; exact b.camp_log m k hk hm
  · intro d hd
    simp only [record] at hd ⊢
    by_cases hdc : d = c
    · subst hdc; simp
    · have hdt : h.term d ≠ h.term c := by
        intro hdt; rw [hdt, hl] at hd; cases hd; exact hdc rfl
      rw [update_of_ne hdc, update_of_ne hdt]; exact b.lead_log d hd
  · intro u hu
    have hut : u ≠ h.term c := by
      rintro rfl
      change h.leader (h.term c) = none at hu
      rw [hl] at hu; cases hu
    simp only [record, update_of_ne hut]; exact b.no_lead u hu
  · intro m
    by_cases hmc : m = c
    · subst hmc; simp only [record, update_self]; exact hgood _ rfl
    · simp only [record, update_of_ne hmc]; exact (b.log_good m).grows g
  · intro u
    by_cases hut : u = h.term c
    · subst hut; simp only [record, update_self]; exact hgood _ rfl
    · simp only [record, update_of_ne hut]; exact (b.tlog_good u).grows g
  · intro m x hx
    by_cases hmc : m = c
    · subst hmc
      simp only [record, update_self, mem_append, mem_singleton] at hx ⊢
      rcases hx with hx | rfl
      · exact b.log_le m x hx
      · exact he.le
    · simp only [record, update_of_ne hmc] at hx; exact b.log_le m x hx
  · intro u
    by_cases hut : u = h.term c
    · subst hut
      have := b.start_le (h.term c)
      simp only [record, update_self, hlog, length_append]; omega
    · simp only [record, update_of_ne hut]; exact b.start_le u
  · intro u x hx
    by_cases hut : u = h.term c
    · subst hut
      simp only [record, update_self, hlog] at hx
      rw [take_append_of_le_length (b.start_le _)] at hx
      exact b.start_lt _ x hx
    · simp only [record, update_of_ne hut] at hx; exact b.start_lt u x hx
  · intro u x hx
    by_cases hut : u = h.term c
    · subst hut
      simp only [record, update_self, hlog] at hx
      rw [drop_append_of_le_length (b.start_le _), mem_append] at hx
      rcases hx with hx | hx
      · exact b.start_eq _ x hx
      · simp only [mem_singleton] at hx; rw [hx, he]
    · simp only [record, update_of_ne hut] at hx; exact b.start_eq u x hx

lemma base_adopt {l : List E} (ok : Ok q h (.adopt n t l)) : Base q (record h (.adopt n t l)) := by
  obtain ⟨ht, ⟨c, hc, hcn⟩, hl⟩ := ok
  have r := b.raise n t ht
  have hgood : Good h l := hl.elim (b.tlog_good t).of_le (b.log_good n).of_le
  refine { r with camp_log := ?_, lead_log := ?_, log_good := ?_, log_le := ?_ }
  · intro m k hk hm
    simp only [record] at hk hm ⊢
    have hmn : m ≠ n := by rintro rfl; simp only [update_self] at hm; rw [hc] at hm; cases hm
    rw [update_of_ne hmn]; exact r.camp_log m k hk hm
  · intro d hd
    simp only [record] at hd ⊢
    have hdn : d ≠ n := by
      rintro rfl; simp only [update_self] at hd; rw [hc] at hd; cases hd; exact hcn rfl
    rw [update_of_ne hdn]; exact r.lead_log d hd
  · intro m
    by_cases hmn : m = n
    · subst hmn; simp only [record, update_self]; exact hgood
    · simp only [record, update_of_ne hmn]; exact b.log_good m
  · intro m e he
    by_cases hmn : m = n
    · subst hmn
      simp only [record, update_self] at he ⊢
      rcases hl with hl | hl
      · exact b.tlog_le t e (hl.subset he)
      · exact (b.log_le m e (hl.subset he)).trans ht
    · simp only [record, update_of_ne hmn] at he ⊢; exact b.log_le m e he

theorem base_record (ok : Ok q h ev) : Base q (record h ev) := by
  cases ev with
  | observe n t => exact b.raise n t ok
  | campaign => exact base_campaign b ok
  | grant => exact base_grant b ok
  | win => exact base_win b ok
  | append => exact base_append b ok
  | adopt => exact base_adopt b ok
  | ack | commit => exact { b with }

end

end

end MaxRedis.TermLog

/-
Sequences of events of a term log.

`Path q K h h'`: the events that lead from `h` to `h'` are all allowed, and if `K` holds none of them drops what a
leader and a node have in common.
-/
import MaxRedis.Core.Chosen

namespace MaxRedis.TermLog

open Termed Function

variable {N E : Type} [DecidableEq N] [Termed E]

inductive Path (q : Quorums N) (K : Prop) (h : Hist N E) : Hist N E → Prop where
  | refl : Path q K h h
  | step {h' : Hist N E} (p : Path q K h h') (ev : Ev N E) (ok : Ok q h' ev) (keep : K → Keep h' ev) :
      Path q K h (record h' ev)

variable {q : Quorums N} {K : Prop} {h h' h'' : Hist N E} {ev : Ev N E} {n c : N} {t : ℕ} {l : List E}

lemma Path.one (ev : Ev N E) (ok : Ok q h ev) (keep : K → Keep h ev) : Path q K h (record h ev) :=
  .step .refl ev ok keep

section
variable (p : Path q K h h')
include p

lemma Path.trans (r : Path q K h' h'') : Path q K h h'' := by
  induction r with
  | refl => exact p
  | step _ ev ok keep ih => exact .step ih ev ok keep

lemma Path.base (b : Base q h) : Base q h' := by
  induction p with
  | refl => exact b
  | step _ _ ok _ ih => exact base_record ih ok

lemma Path.safe (hK : K) (b : Base q h) (s : Safe q h) : Safe q h' := by
  induction p with
  | refl => exact s
  | step r _ ok keep ih => exact safe_record (r.base b) ih ok (keep hK)

lemma Path.grows (b : Base q h) : Grows h h' := by
  induction p with
  | refl => exact ⟨fun _ _ hc => hc, fun _ _ => List.prefix_refl _⟩
  | step r _ ok _ ih =>
    have g := grows_record (r.base b) ok
    exact ⟨fun t c hc => g.leader t c (ih.leader t c hc), fun t ht => (ih.tlog t ht).trans (g.tlog t (ih.leader_ne ht))⟩

end

lemma camp_record (b : Base q h) (ok : Ok q h ev) (hc : h.camp n t = some l) : (record h ev).camp n t = some l := by
  cases ev with
  | campaign m u =>
    have hm : h.term m < u := ok
    simp only [record]
    rw [set2_ne, hc]
    by_contra hne
    push Not at hne
    obtain ⟨rfl, rfl⟩ := hne
    exact absurd (b.camp_le n t (by rw [hc]; simp)) (by omega)
  | _ => exact hc

lemma Path.camp (p : Path q K h h') (b : Base q h) (hc : h.camp n t = some l) :
    h'.camp n t = some l := by
  induction p with
  | refl => exact hc
  | step r _ ok _ ih => exact camp_record (r.base b) ok ih

lemma vote_record (b : Base q h) (ok : Ok q h ev) (hv : h.vote n t = some c) :
    (record h ev).vote n t = some c := by
  cases ev with
  | campaign m u =>
    have hm : h.term m < u := ok
    simp only [record]
    rw [set2_ne, hv]
    by_contra hne
    push Not at hne
    obtain ⟨rfl, rfl⟩ := hne
    exact absurd (b.vote_le n t (by rw [hv]; simp)) (by omega)
  | grant v u d =>
    simp only [record]
    rcases set2_cases h.vote v n u t (some d) with ⟨rfl, rfl, he⟩ | ⟨-, he⟩
    · rw [he]
      rcases ok.2.1 with hn | hn
      · rw [hn] at hv; cases hv
      · rw [← hn, hv]
    · rw [he, hv]
  | _ => exact hv

lemma Path.vote (p : Path q K h h') (b : Base q h) (hv : h.vote n t = some c) :
    h'.vote n t = some c := by
  induction p with
  | refl => exact hv
  | step r _ ok _ ih => exact vote_record (r.base b) ok ih

lemma Path.decided (p : Path q K h h') (hK : K) (b : Base q h) (s : Safe q h) {k : ℕ}
    (hd : Decided h k l) : Decided h' k l := by
  induction p with
  | refl => exact hd
  | step r _ ok _ ih => exact decided_record (r.base b) (r.safe hK b s) ok ih

lemma Path.term (p : Path q K h h') (n : N) : h.term n ≤ h'.term n := by
  induction p with
  | refl => exact le_rfl
  | step _ _ ok _ ih => exact ih.trans (term_record ok n)

lemma acked_record (b : Base q h) (s : Safe q h) (ok : Ok q h ev) (n : N) (t : ℕ) :
    h.acked n t ≤ (record h ev).acked n t := by
  cases ev with
  | win c u =>
    simp only [record]
    rcases set2_cases h.acked c n u t (h.log c).length with ⟨rfl, rfl, -⟩ | ⟨-, he⟩
    · have := s.ack_le n t
      rw [b.no_lead t (b.leader_none ok)] at this
      exact this.trans (Nat.zero_le _)
    · rw [he]
  | append c =>
    simp only [record]
    rcases set2_cases h.acked c n (h.term c) t ((h.log c).length + 1) with ⟨rfl, rfl, he⟩ | ⟨-, he⟩
    · rw [s.ack_lead _ n ok.1, ← b.lead_log n ok.1]; omega
    · rw [he]
  | ack m u k =>
    simp only [record]
    rcases set2_cases h.acked m n u t (max (h.acked m u) k) with ⟨rfl, rfl, he⟩ | ⟨-, he⟩
    · rw [he]; exact le_max_left _ _
    · rw [he]
  | _ => exact le_rfl

lemma Path.acked (p : Path q K h h') (hK : K) (b : Base q h) (s : Safe q h) (n : N) (t : ℕ) :
    h.acked n t ≤ h'.acked n t := by
  induction p with
  | refl => exact le_rfl
  | step r _ ok _ ih => exact ih.trans (acked_record (r.base b) (r.safe hK b s) ok n t)

lemma Path.holds (p : Path q K h h') (hK : K) (b : Base q h) (s : Safe q h) (hh : Holds h) : Holds h' := by
  induction p with
  | refl => exact hh
  | step r _ ok keep ih => exact holds_record (r.base b) (r.safe hK b s) ih ok (keep hK)

lemma Path.weaken {K' : Prop} (p : Path q K h h') (hK : K' → K) : Path q K' h h' := by
  induction p with
  | refl => exact .refl
  | step _ ev ok keep ih => exact .step ih ev ok (fun hk => keep (hK hk))

end MaxRedis.TermLog

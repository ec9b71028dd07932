/-
Searching a text for a pattern.

`search pat s` is the text from the first occurrence of the pattern on.
-/
import Mathlib.Data.List.Infix

namespace MaxRedis.Search

variable {α : Type} {pat a rest : List α}

def Clear (pat : List α) : List α → List α → Prop
  | [], _ => True
  | c :: a, rest => ¬ pat <+: c :: (a ++ rest) ∧ Clear pat a rest

lemma clear_append {b : List α} : Clear pat (a ++ b) rest ↔ Clear pat a (b ++ rest) ∧ Clear pat b rest := by
  induction a with
  | nil => simp [Clear]
  | cons _ _ ih => rw [List.cons_append, Clear, Clear, ih, List.append_assoc, and_assoc]

lemma not_begins_of_ne {p c : α} {s : List α} (h : c ≠ p) : ¬ p :: pat <+: c :: s := by
  intro hbegins
  exact h (List.cons_prefix_cons.1 hbegins).1.symm

lemma clear_of_not_mem {p : α} (h : p ∉ a) : Clear (p :: pat) a rest := by
  induction a with
  | nil => trivial
  | cons _ _ ih =>
    obtain ⟨hc, ha⟩ := not_or.1 (mt List.mem_cons.2 h)
    exact ⟨not_begins_of_ne (Ne.symm hc), ih ha⟩

variable [DecidableEq α]

def search (pat : List α) : List α → Option (List α)
  | [] => if pat = [] then some [] else none
  | c :: s => if pat <+: c :: s then some (c :: s) else search pat s

lemma search_found (pat rest : List α) : search pat (pat ++ rest) = some (pat ++ rest) := by
  have hfound : pat <+: pat ++ rest := List.prefix_append pat rest
  cases hs : pat ++ rest with
  | nil => rw [search, if_pos (List.append_eq_nil_iff.1 hs).1]
  | cons =>
    rw [hs] at hfound
    rw [search, if_pos hfound]

lemma search_skip (h : Clear pat a rest) : search pat (a ++ rest) = search pat rest := by
  induction a with
  | nil => rfl
  | cons _ _ ih => rw [List.cons_append, search, if_neg h.1, ih h.2]

end MaxRedis.Search

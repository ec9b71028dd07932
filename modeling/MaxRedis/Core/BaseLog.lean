/-
Logs without their oldest entries: a general library, with nothing of any particular program in it.

A `BaseLog` holds the entries above a compaction point `base`, oldest first: the entry with index `i` stands at place `i
- base - 1`.
-/
import Mathlib.Tactic

namespace MaxRedis

open List

structure BaseLog (E : Type) where
  base : ℕ := 0
  kept : List E := []
  deriving DecidableEq

namespace BaseLog

variable {E : Type} {a : BaseLog E} {i : ℕ}

def lastIndex (a : BaseLog E) : ℕ := a.base + a.kept.length

def get (a : BaseLog E) (i : ℕ) : Option E := if i ≤ a.base then none else a.kept[i - a.base - 1]?

def since (a : BaseLog E) (i : ℕ) : List E := a.kept.drop (i - a.base - 1)

def append (a : BaseLog E) (e : ℕ → E) : BaseLog E := { a with kept := a.kept ++ [e (a.lastIndex + 1)] }

def truncate (a : BaseLog E) (n : ℕ) : BaseLog E := { a with kept := a.kept.take (n - a.base) }

def compact (a : BaseLog E) (b : ℕ) : BaseLog E := ⟨max a.base b, a.kept.drop (b - a.base)⟩

lemma lastIndex_append (a : BaseLog E) (e : ℕ → E) : (a.append e).lastIndex = a.lastIndex + 1 := by
  simp [lastIndex, append]
  omega

lemma lastIndex_truncate {n : ℕ} (h1 : a.base ≤ n) (h2 : n ≤ a.lastIndex) :
    (a.truncate n).lastIndex = n := by
  unfold lastIndex at h2 ⊢
  simp only [truncate, length_take]
  omega

lemma lastIndex_compact {b : ℕ} (h : b ≤ a.lastIndex) : (a.compact b).lastIndex = a.lastIndex := by
  unfold lastIndex at h ⊢
  simp only [compact, length_drop]
  omega

lemma get_append_last (a : BaseLog E) (e : ℕ → E) :
    (a.append e).get (a.lastIndex + 1) = some (e (a.lastIndex + 1)) := by
  unfold get append
  have hpos : ¬a.lastIndex + 1 ≤ a.base := by unfold lastIndex; omega
  have hlen : a.lastIndex + 1 - a.base - 1 = a.kept.length := by unfold lastIndex; omega
  rw [if_neg hpos, hlen, getElem?_concat_length]

lemma get_eq_none (h : a.lastIndex < i) : a.get i = none := by
  unfold lastIndex at h
  rw [get, if_neg (by omega), getElem?_eq_none (by omega)]

lemma since_eq_nil (h : a.lastIndex < i) : a.since i = [] := by
  unfold lastIndex at h
  exact drop_eq_nil_of_le (by omega)

lemma exists_get (hb : a.base < i) (h : i ≤ a.lastIndex) : ∃ e ∈ a.kept, a.get i = some e := by
  unfold lastIndex at h
  have hlt : i - a.base - 1 < a.kept.length := by omega
  exact ⟨_, getElem_mem hlt, by rw [get, if_neg (by omega), getElem?_eq_getElem hlt]⟩

lemma get_append_of_le (e : ℕ → E) (hb : a.base < i) (h : i ≤ a.lastIndex) :
    (a.append e).get i = a.get i := by
  unfold lastIndex at h
  have hlt : i - a.base - 1 < a.kept.length := by omega
  unfold get append
  rw [if_neg (not_le.2 hb), if_neg (not_le.2 hb), getElem?_append_left hlt]

lemma since_append_last (a : BaseLog E) (e : ℕ → E) :
    (a.append e).since (a.lastIndex + 1) = [e (a.lastIndex + 1)] := by
  have hlen : a.lastIndex + 1 - a.base - 1 = a.kept.length := by unfold lastIndex; omega
  rw [since, append, hlen, drop_left]

def Numbered (idx : E → ℕ) (a : BaseLog E) : Prop := ∀ i e, a.kept[i]? = some e → idx e = a.base + i + 1

section
variable {idx : E → ℕ} {a : BaseLog E}

lemma Numbered.append (h : Numbered idx a) {e : ℕ → E} (he : ∀ i, idx (e i) = i) : Numbered idx (a.append e) := by
  intro i x hx
  simp only [BaseLog.append] at hx ⊢
  rcases Nat.lt_or_ge i a.kept.length with hi | hi
  · rw [getElem?_append_left hi] at hx
    exact h i x hx
  · rw [getElem?_append_right hi] at hx
    obtain ⟨h0, rfl⟩ := List.getElem?_eq_some_iff.1 hx
    simp only [length_singleton] at h0
    simp only [getElem_singleton, he, lastIndex]
    omega

lemma Numbered.truncate (h : Numbered idx a) (n : ℕ) : Numbered idx (a.truncate n) := by
  intro i x hx
  simp only [BaseLog.truncate, getElem?_take] at hx
  split_ifs at hx
  exact h i x hx

lemma Numbered.compact (h : Numbered idx a) (b : ℕ) : Numbered idx (a.compact b) := by
  intro i x hx
  simp only [BaseLog.compact, getElem?_drop] at hx ⊢
  have := h _ x hx
  omega

end

end BaseLog

end MaxRedis

/-
The log interface (`ILogStorage`) and its in-memory implementation (`CommandLog`).

`LogStorage` is the interface as `RaftNode` calls it; `LawfulLog` is what the node may rely on.
-/
import MaxRedis.Raft.Types

namespace MaxRedis.Raft

open List

/-- `ILogStorage`. `append l e flush` is `Append(entry, flush)`: without `flush` the bytes are written, not synced. -/
class LogStorage (N C : outParam Type) (L : Type) where
  empty : L
  lastIndex : L → ℕ
  lastTerm : L → ℕ
  get : L → ℕ → Option (LogEntry N C)
  getTerm : L → ℕ → ℕ
  getRange : L → ℕ → ℕ → List (LogEntry N C)
  append : L → LogEntry N C → Bool → L
  persist : L → L
  flush : L → L
  truncateFrom : L → ℕ → L
  compactLogs : L → ℕ → ℕ → L
  clear : L → L
  setSnapshotAnchor : L → ℕ → ℕ → L
  pruneCompacted : L → L

open LogStorage

class LawfulLog (N C : outParam Type) (L : Type) [LogStorage N C L] where
  /-- what the log holds, oldest first -/
  entries : L → List (LogEntry N C)
  /-- nothing has been compacted -/
  Whole : L → Prop
  /-- the index of the snapshot anchor, 0 without one -/
  anchorIndex : L → ℕ
  /-- the index up to which the log has been compacted -/
  baseIndex : L → ℕ
  whole_empty : Whole (empty : L)
  entries_empty : entries (empty : L) = []
  anchor_empty : anchorIndex (empty : L) = 0
  index_eq : ∀ l : L, Whole l → ∀ i e, (entries l)[i]? = some e → e.index = i + 1
  lastIndex_eq : ∀ l : L, Whole l → lastIndex l = (entries l).length
  lastTerm_eq : ∀ l : L, Whole l → lastTerm l = TermLog.lastTerm (entries l)
  get_eq : ∀ l : L, Whole l → ∀ i, get l (i + 1) = (entries l)[i]?
  get_zero : ∀ l : L, Whole l → get l 0 = some .blank
  getTerm_whole : ∀ l : L, Whole l → ∀ i, i + 1 ≠ anchorIndex l →
    getTerm l (i + 1) = ((entries l)[i]?.map LogEntry.term).getD 0
  getRange_eq : ∀ l : L, Whole l → ∀ i k, 0 < k → getRange l (i + 1) k = ((entries l).drop i).take k
  append_whole : ∀ (l : L) e f, Whole l → Whole (append l e f)
  append_eq : ∀ (l : L) e f, Whole l →
    entries (append l e f) = entries l ++ [{ e with index := (entries l).length + 1 }]
  append_anchor : ∀ (l : L) e f, anchorIndex (append l e f) = anchorIndex l
  truncate_whole : ∀ (l : L) i, Whole l → i ≤ (entries l).length → Whole (truncateFrom l i)
  truncate_eq : ∀ (l : L) i, Whole l → i ≤ (entries l).length → entries (truncateFrom l i) = (entries l).take i
  truncate_anchor : ∀ (l : L) i, anchorIndex l = 0 → anchorIndex (truncateFrom l i) = 0
  persist_whole : ∀ l : L, Whole l → Whole (persist l)
  persist_eq : ∀ l : L, entries (persist l) = entries l
  persist_anchor : ∀ l : L, anchorIndex (persist l) = anchorIndex l
  flush_whole : ∀ l : L, Whole l → Whole (flush l)
  flush_eq : ∀ l : L, entries (flush l) = entries l
  flush_anchor : ∀ l : L, anchorIndex (flush l) = anchorIndex l
  -- what installing a snapshot leaves of the log
  clear_whole : ∀ (l : L) i t, Whole (setSnapshotAnchor (clear l) i t)
  clear_eq : ∀ (l : L) i t, entries (setSnapshotAnchor (clear l) i t) = []
  clear_anchor : ∀ (l : L) i t, anchorIndex (setSnapshotAnchor (clear l) i t) = i
  compact_base : ∀ (l : L) i t, baseIndex (compactLogs l i t) = max (baseIndex l) i
  mem_range : ∀ (l : L) i k, ∀ e ∈ getRange l i k, e ∈ entries l
  mem_append : ∀ (l : L) e f, ∀ x ∈ entries (append l e f), x ∈ entries l ∨ ∃ i, x = { e with index := i }
  mem_truncate : ∀ (l : L) i, ∀ x ∈ entries (truncateFrom l i), x ∈ entries l
  mem_compact : ∀ (l : L) i t, ∀ x ∈ entries (compactLogs l i t), x ∈ entries l
  mem_clear : ∀ l : L, ∀ x ∈ entries (clear l), x ∈ entries l
  mem_anchor : ∀ (l : L) i t, ∀ x ∈ entries (setSnapshotAnchor l i t), x ∈ entries l
  mem_prune : ∀ l : L, ∀ x ∈ entries (pruneCompacted l), x ∈ entries l

namespace LawfulLog
variable {N C L : Type} [LogStorage N C L] [LawfulLog N C L] (l : L)

structure Plain (l : L) : Prop where
  whole : Whole l
  free : anchorIndex l = 0

lemma plain_empty : Plain (empty : L) := ⟨whole_empty, anchor_empty⟩

lemma getTerm_eq (p : Plain l) (i : ℕ) : getTerm l (i + 1) = ((entries l)[i]?.map LogEntry.term).getD 0 :=
  getTerm_whole l p.whole i (by rw [p.free]; omega)

lemma append_plain (e : LogEntry N C) (f : Bool) (p : Plain l) : Plain (append l e f) :=
  ⟨append_whole l e f p.whole, (append_anchor l e f).trans p.free⟩

lemma truncate_plain (i : ℕ) (p : Plain l) (hi : i ≤ (entries l).length) : Plain (truncateFrom l i) :=
  ⟨truncate_whole l i p.whole hi, truncate_anchor l i p.free⟩

end LawfulLog

/-! ## The in-memory log -/

/-- `entries_` without its sentinel: the entry at position `i` has logical index `baseIndex + i + 1` -/
structure CommandLog (N C : Type) where
  baseIndex : ℕ := 0
  entries : List (LogEntry N C) := []
  anchor : SnapshotMeta := {}
  deriving DecidableEq

namespace CommandLog
variable {N C : Type}

def lastIndex (l : CommandLog N C) : ℕ := if l.entries = [] then 0 else l.baseIndex + l.entries.length

def firstIndex (l : CommandLog N C) : ℕ := if l.entries = [] then 0 else l.baseIndex + 1

def lastTerm (l : CommandLog N C) : ℕ := (l.entries.getLast?.map LogEntry.term).getD 0

def get (l : CommandLog N C) (index : ℕ) : Option (LogEntry N C) :=
  if index < l.baseIndex ∨ l.lastIndex < index then none
  else if index = l.baseIndex then some .blank
  else l.entries[index - l.baseIndex - 1]?

def getTerm (l : CommandLog N C) (index : ℕ) : ℕ :=
  if index = l.anchor.index ∧ 0 < l.anchor.index then l.anchor.term
  else ((l.get index).map LogEntry.term).getD 0

def getRange (l : CommandLog N C) (start limit : ℕ) : List (LogEntry N C) :=
  if start < l.firstIndex ∨ l.lastIndex < start then []
  else if limit = 0 then l.entries.drop (start - l.baseIndex - 1)
  else (l.entries.drop (start - l.baseIndex - 1)).take limit

def append (l : CommandLog N C) (e : LogEntry N C) (_flush : Bool) : CommandLog N C :=
  { l with entries := l.entries ++ [{ e with index := l.lastIndex + 1 }] }

def truncateFrom (l : CommandLog N C) (newLast : ℕ) : CommandLog N C :=
  if newLast ≤ l.baseIndex then { l with entries := [] }
  else { l with entries := l.entries.take (newLast - l.baseIndex) }

def compactUpTo (l : CommandLog N C) (index : ℕ) : CommandLog N C :=
  if index ≤ l.baseIndex then l
  else if l.lastIndex ≤ index then { l with baseIndex := index, entries := [] }
  else { l with baseIndex := index, entries := l.entries.drop (index - l.baseIndex) }

def setSnapshotAnchor (l : CommandLog N C) (index term : ℕ) : CommandLog N C := { l with anchor := ⟨index, term⟩ }

def clear (l : CommandLog N C) : CommandLog N C := { l with baseIndex := 0, entries := [] }

instance : LogStorage N C (CommandLog N C) where
  empty := {}
  lastIndex := lastIndex
  lastTerm := lastTerm
  get := get
  getTerm := getTerm
  getRange := getRange
  append := append
  persist := id
  flush := id
  truncateFrom := truncateFrom
  compactLogs l i t := (l.setSnapshotAnchor i t).compactUpTo i
  clear := clear
  setSnapshotAnchor := setSnapshotAnchor
  pruneCompacted := id

structure Whole (l : CommandLog N C) : Prop where
  base : l.baseIndex = 0
  index : ∀ i e, l.entries[i]? = some e → e.index = i + 1

variable {l : CommandLog N C}

lemma Whole.lastIndex (p : Whole l) : l.lastIndex = l.entries.length := by
  unfold CommandLog.lastIndex
  split_ifs with h
  · simp [h]
  · rw [p.base]; omega

lemma Whole.get (p : Whole l) (i : ℕ) : l.get (i + 1) = l.entries[i]? := by
  unfold CommandLog.get
  rw [p.lastIndex, p.base]
  rcases Nat.lt_or_ge i l.entries.length with hi | hi
  · rw [if_neg (by omega)]; rfl
  · rw [if_pos (by omega), getElem?_eq_none (by omega)]

lemma Whole.getRange (p : Whole l) (i k : ℕ) (hk : 0 < k) : l.getRange (i + 1) k = (l.entries.drop i).take k := by
  unfold CommandLog.getRange firstIndex
  rw [p.lastIndex, p.base]
  rcases Nat.lt_or_ge i l.entries.length with hi | hi
  · have hne : l.entries ≠ [] := by rintro h; rw [h] at hi; simp at hi
    rw [if_neg hne, if_neg (by omega), if_neg (by omega)]; rfl
  · rw [if_pos (by omega), drop_eq_nil_of_le hi]; simp

lemma Whole.append (p : Whole l) (e : LogEntry N C) (f : Bool) : Whole (l.append e f) := by
  refine ⟨p.base, fun i x hx => ?_⟩
  simp only [CommandLog.append] at hx
  rcases Nat.lt_or_ge i l.entries.length with hi | hi
  · rw [getElem?_append_left hi] at hx; exact p.index i x hx
  · rw [getElem?_append_right hi] at hx
    obtain ⟨h0, rfl⟩ := List.getElem?_eq_some_iff.1 hx
    simp only [length_singleton] at h0
    simp [p.lastIndex]; omega

lemma truncateFrom_entries (l : CommandLog N C) (h0 : l.baseIndex = 0) (i : ℕ) :
    l.truncateFrom i = { l with entries := l.entries.take i } := by
  unfold truncateFrom
  split_ifs with h
  · have hi : i = 0 := by omega
    simp [hi]
  · rw [h0]; rfl

lemma Whole.truncateFrom (p : Whole l) (i : ℕ) : Whole (l.truncateFrom i) := by
  rw [truncateFrom_entries l p.base]
  refine ⟨p.base, fun j x hx => p.index j x ?_⟩
  simp only [getElem?_take] at hx
  split_ifs at hx
  exact hx

lemma mem_getRange (l : CommandLog N C) (i k : ℕ) : ∀ e ∈ l.getRange i k, e ∈ l.entries := by
  intro e he
  unfold getRange at he
  split_ifs at he
  · simp at he
  · exact mem_of_mem_drop he
  · exact mem_of_mem_drop (mem_of_mem_take he)

lemma mem_compactUpTo (l : CommandLog N C) (i : ℕ) : ∀ e ∈ (l.compactUpTo i).entries, e ∈ l.entries := by
  intro e he
  unfold compactUpTo at he
  split_ifs at he
  · exact he
  · simp at he
  · exact mem_of_mem_drop he

lemma compactUpTo_base (l : CommandLog N C) (i : ℕ) : (l.compactUpTo i).baseIndex = max l.baseIndex i := by
  unfold compactUpTo
  split_ifs with h1 h2
  · exact (max_eq_left h1).symm
  · exact (max_eq_right (Nat.le_of_not_le h1)).symm
  · exact (max_eq_right (Nat.le_of_not_le h1)).symm

lemma mem_truncateFrom (l : CommandLog N C) (i : ℕ) : ∀ e ∈ (l.truncateFrom i).entries, e ∈ l.entries := by
  intro e he
  unfold truncateFrom at he
  split_ifs at he
  · simp at he
  · exact mem_of_mem_take he

instance : LawfulLog N C (CommandLog N C) where
  entries := entries
  Whole := Whole
  anchorIndex l := l.anchor.index
  baseIndex := baseIndex
  whole_empty := ⟨rfl, fun i e he => by simp [LogStorage.empty] at he⟩
  entries_empty := rfl
  anchor_empty := rfl
  index_eq l p := p.index
  lastIndex_eq l p := p.lastIndex
  lastTerm_eq l p := rfl
  get_eq l p := p.get
  get_zero l p := by
    show l.get 0 = some .blank
    simp [get, p.base]
  getTerm_whole l p i hi := by
    show l.getTerm (i + 1) = _
    unfold getTerm
    rw [if_neg (fun h => hi h.1), p.get]
  getRange_eq l p := p.getRange
  append_whole l e f p := p.append e f
  append_eq l e f p := by
    show l.entries ++ [{ e with index := l.lastIndex + 1 }] = _
    rw [p.lastIndex]
  append_anchor l e f := rfl
  truncate_whole l i p _ := p.truncateFrom i
  truncate_eq l i p _ := by
    show (l.truncateFrom i).entries = _
    rw [truncateFrom_entries l p.base]
  truncate_anchor l i h := by
    show (l.truncateFrom i).anchor.index = 0
    unfold truncateFrom
    split_ifs <;> exact h
  persist_whole l p := p
  persist_eq l := rfl
  persist_anchor l := rfl
  flush_whole l p := p
  flush_eq l := rfl
  flush_anchor l := rfl
  clear_whole l i t := ⟨rfl, fun j e he => by simp [LogStorage.clear, LogStorage.setSnapshotAnchor, clear,
    setSnapshotAnchor] at he⟩
  clear_eq l i t := rfl
  clear_anchor l i t := rfl
  compact_base l i t := by
    show ((l.setSnapshotAnchor i t).compactUpTo i).baseIndex = max l.baseIndex i
    exact compactUpTo_base _ i
  mem_range := mem_getRange
  mem_append l e f x hx := by
    rcases List.mem_append.1 hx with h | h
    · exact Or.inl h
    · exact Or.inr ⟨_, List.mem_singleton.1 h⟩
  mem_truncate := mem_truncateFrom
  mem_compact l i t := mem_compactUpTo _ i
  mem_clear l x hx := by cases hx
  mem_anchor l i t x hx := hx
  mem_prune l x hx := hx

end CommandLog

end MaxRedis.Raft

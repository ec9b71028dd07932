/-
`CommandLog` and `SegmentLogStorage` as one abstract log, and what a compaction does to votes.

`LogOp` are the operations of the storages that change what can be read; `LogOp.spec` is what they do to a `BaseLog`.
-/
import MaxRedis.Core.BaseLog
import MaxRedis.Raft.ReplicationMoves
import MaxRedis.Storage.SegmentLog

namespace MaxRedis.Storage

open Raft LogStorage List

variable {N C L : Type} {a : BaseLog (LogEntry N C)} (nd : RaftNode N C L)

/-! ## Operations -/

inductive LogOp (N C : Type) where
  | append (e : LogEntry N C) (flush : Bool)
  | truncateFrom (newLast : ℕ)
  | compactLogs (index : ℕ)
  | clear
  deriving DecidableEq

namespace LogOp

def on [LogStorage N C L] (l : L) : LogOp N C → L
  | .append e flush => LogStorage.append l e flush
  | .truncateFrom n => LogStorage.truncateFrom l n
  | .compactLogs b => LogStorage.compactLogs l b (getTerm l b)
  | .clear => LogStorage.clear l

def spec (a : BaseLog (LogEntry N C)) : LogOp N C → BaseLog (LogEntry N C)
  | .append e _ => a.append (fun i => { e with index := i })
  | .truncateFrom n => a.truncate n
  | .compactLogs b => a.compact b
  | .clear => {}

def inRange (a : BaseLog (LogEntry N C)) : LogOp N C → Bool
  | .truncateFrom n => a.base ≤ n ∧ n ≤ a.lastIndex
  | .compactLogs b => a.base ≤ b ∧ b ≤ a.lastIndex
  | _ => true

def cutsAbove (a : BaseLog (LogEntry N C)) : LogOp N C → Bool
  | .truncateFrom n => a.base = 0 ∨ a.base < n
  | _ => true

def keepsSome (a : BaseLog (LogEntry N C)) : LogOp N C → Bool
  | .truncateFrom n => a.base = 0 ∨ a.base < n
  | .compactLogs b => b = 0 ∨ b < a.lastIndex
  | .clear => a.base = 0
  | .append _ _ => true

lemma cutsAbove_of_keepsSome {a : BaseLog (LogEntry N C)} {op : LogOp N C} (h : op.keepsSome a) : op.cutsAbove a := by
  cases op with
  | truncateFrom => exact h
  | _ => rfl

def along (p : BaseLog (LogEntry N C) → LogOp N C → Bool) : BaseLog (LogEntry N C) → List (LogOp N C) → Bool
  | _, [] => true
  | a, op :: ops => p a op && along p (op.spec a) ops

end LogOp

/-! ## What can be read -/

/-- what is read of `l` is read of `a`, ranges up to some `limits`; at and below the compaction point there is at most
the sentinel -/
structure ReadsAs [LogStorage N C L] (limits : ℕ → Prop) (l : L) (a : BaseLog (LogEntry N C)) : Prop where
  lastIndex : LogStorage.lastIndex l = a.lastIndex
  get : ∀ i, a.base < i → LogStorage.get l i = a.get i
  low : ∀ i, i ≤ a.base → LogStorage.get l i = none ∨ LogStorage.get l i = some .blank
  getTerm : ∀ i, a.base < i → LogStorage.getTerm l i = ((a.get i).map LogEntry.term).getD 0
  getRange : ∀ i k, a.base < i → limits k →
    LogStorage.getRange l i k = if k = 0 then a.since i else (a.since i).take k
  own : ∀ i e, a.base < i → LogStorage.get l i = some e → e.index = i
  next : ∀ e flush, LogStorage.get (LogStorage.append l e flush) (LogStorage.lastIndex l + 1) =
    some { e with index := LogStorage.lastIndex l + 1 }

/-- a way to read logs as abstract logs that appending and syncing keep. Below the first entry after a compaction of the
whole log there is nothing, and the term there stays. -/
structure LogReading [LogStorage N C L] (Rep : L → BaseLog (LogEntry N C) → Prop) : Prop where
  refines : ∀ {l a}, Rep l a → ReadsAs (fun _ => True) l a
  append : ∀ {l a} (e : LogEntry N C) (flush : Bool), Rep l a →
    Rep (LogStorage.append l e flush) (a.append (fun i => { e with index := i }))
  persist : ∀ {l a}, Rep l a → Rep (LogStorage.persist l) a
  flush : ∀ {l a}, Rep l a → Rep (LogStorage.flush l) a
  get_persist : ∀ (l : L) (i : ℕ), LogStorage.get (LogStorage.persist l) i = LogStorage.get l i
  getTerm_persist : ∀ (l : L) (i : ℕ), LogStorage.getTerm (LogStorage.persist l) i = LogStorage.getTerm l i
  first : ∀ {l a} (e : LogEntry N C) (flush : Bool), Rep l a → a.kept = [] → 0 < a.base →
    LogStorage.get (LogStorage.append l e flush) a.base = none ∧
    LogStorage.getTerm (LogStorage.append l e flush) a.base = LogStorage.getTerm l a.base

lemma LogOp.run_rep [LogStorage N C L] {Rep : L → BaseLog (LogEntry N C) → Prop}
    {p : BaseLog (LogEntry N C) → LogOp N C → Bool} {l : L}
    (hstep : ∀ {l a} op, Rep l a → LogOp.inRange a op → p a op → Rep (op.on l) (op.spec a)) {ops : List (LogOp N C)}
    (h : Rep l a) (hr : LogOp.along LogOp.inRange a ops) (hk : LogOp.along p a ops) :
    Rep (ops.foldl LogOp.on l) (ops.foldl LogOp.spec a) := by
  induction ops generalizing l a with
  | nil => exact h
  | cons op _ ih =>
    simp only [LogOp.along, Bool.and_eq_true] at hr hk
    exact ih (hstep op h hr.1 hk.1) hr.2 hk.2

lemma get_own (h : a.Numbered LogEntry.index) {i : ℕ} (hi : a.base < i)
    {e : LogEntry N C} (he : a.get i = some e) : e.index = i := by
  unfold BaseLog.get at he
  rw [if_neg (by omega)] at he
  have := h _ e he
  omega

def padded (a : BaseLog (LogEntry N C)) : List (LogEntry N C) :=
  (List.range a.base).map (fun i => ⟨0, i + 1, .empty⟩) ++ a.kept

section Padded
variable {a : BaseLog (LogEntry N C)}

lemma length_padded (a : BaseLog (LogEntry N C)) : (padded a).length = a.lastIndex := by
  simp [padded, BaseLog.lastIndex]

lemma drop_padded {i : ℕ} (hi : a.base ≤ i) : (padded a).drop i = a.since (i + 1) := by
  unfold padded BaseLog.since
  rw [drop_append, drop_eq_nil_of_le (by simpa using hi), nil_append, length_map, length_range]
  congr 1
  omega

lemma getElem?_padded {i : ℕ} (hi : a.base ≤ i) : (padded a)[i]? = a.get (i + 1) := by
  rw [padded, getElem?_append_right (by simpa using hi), length_map, length_range, BaseLog.get,
    if_neg (by omega)]
  congr 1
  omega

lemma LogReading.serves [LogStorage N C L] {Rep : L → BaseLog (LogEntry N C) → Prop} (h : LogReading Rep) {l : L}
    (hl : Rep l a) : RaftNode.Serves (fun l => Rep l a) a.base (padded a) where
  flush l hl := h.flush hl
  last l hl := by rw [(h.refines hl).lastIndex, length_padded]
  range l hl i k hi hk := by rw [(h.refines hl).getRange _ _ (by omega) trivial, if_neg (by omega), drop_padded hi]
  index i e he := by
    rcases Nat.lt_or_ge i a.base with hi | hi
    · rw [padded, getElem?_append_left (by simpa using hi), getElem?_map, getElem?_range hi] at he
      cases he
      rfl
    · rw [getElem?_padded hi] at he
      exact (h.refines hl).own (i + 1) e (by omega) (((h.refines hl).get (i + 1) (by omega)).trans he)

end Padded

/-! ## `CommandLog` -/

/-- an empty `CommandLog` has not been compacted, and its anchor is not above the compaction point -/
structure CommandLogRep (l : CommandLog N C) (a : BaseLog (LogEntry N C)) : Prop where
  base : l.baseIndex = a.base
  entries : l.entries = a.kept
  nonempty : 0 < a.base → a.kept ≠ []
  anchor : l.anchor.index ≤ a.base
  numbered : a.Numbered LogEntry.index

namespace CommandLogRep
variable {l : CommandLog N C} {a : BaseLog (LogEntry N C)} {i : ℕ}

section
variable (h : CommandLogRep l a)
include h

lemma lastIndex : l.lastIndex = a.lastIndex := by
  unfold CommandLog.lastIndex BaseLog.lastIndex
  rw [h.entries, h.base]
  split_ifs with hk
  · rw [hk, length_nil]
    by_contra hne
    exact h.nonempty (by omega) hk
  · rfl

lemma get (hi : a.base < i) : l.get i = a.get i := by
  unfold CommandLog.get
  rw [h.lastIndex, h.base, h.entries]
  by_cases hl : a.lastIndex < i
  · rw [if_pos (Or.inr hl), BaseLog.get_eq_none hl]
  · rw [if_neg (by omega), if_neg (by omega), BaseLog.get, if_neg (by omega)]

lemma getRange (hi : a.base < i) (k : ℕ) : l.getRange i k = if k = 0 then a.since i else (a.since i).take k := by
  unfold CommandLog.getRange CommandLog.firstIndex
  rw [h.lastIndex, h.base, h.entries]
  have hfirst : ¬i < (if a.kept = [] then 0 else a.base + 1) := by split_ifs <;> omega
  by_cases hl : a.lastIndex < i
  · rw [if_pos (Or.inr hl), BaseLog.since_eq_nil hl]
    simp
  · rw [if_neg (by omega)]
    rfl

lemma low (hi : i ≤ a.base) : l.get i = none ∨ l.get i = some .blank := by
  unfold CommandLog.get
  split_ifs with h1 h2
  · exact Or.inl rfl
  · exact Or.inr rfl
  · rw [h.base] at h1 h2
    omega

lemma append (e : LogEntry N C) (flush : Bool) :
    CommandLogRep (l.append e flush) (a.append (fun i => { e with index := i })) := by
  refine ⟨h.base, ?_, fun _ => by simp [BaseLog.append], h.anchor, h.numbered.append (fun _ => rfl)⟩
  unfold CommandLog.append BaseLog.append
  rw [h.lastIndex, h.entries]

lemma truncateFrom {n : ℕ} (h3 : a.base = 0 ∨ a.base < n) : CommandLogRep (l.truncateFrom n) (a.truncate n) := by
  have heq : l.truncateFrom n = { l with entries := l.entries.take (n - l.baseIndex) } := by
    unfold CommandLog.truncateFrom
    split_ifs with hn
    · rw [show n - l.baseIndex = 0 by omega, take_zero]
    · rfl
  rw [heq]
  refine ⟨h.base, ?_, fun hb => ?_, h.anchor, h.numbered.truncate n⟩
  · dsimp only [BaseLog.truncate]
    rw [h.entries, h.base]
  · dsimp only [BaseLog.truncate] at hb ⊢
    have hne := h.nonempty hb
    intro hnil
    rw [take_eq_nil_iff] at hnil
    rcases hnil with hnil | hnil
    · omega
    · exact hne hnil

lemma compactLogs {b : ℕ} (h1 : a.base ≤ b) (h2 : b = 0 ∨ b < a.lastIndex) (t : ℕ) :
    CommandLogRep ((l.setSnapshotAnchor b t).compactUpTo b) (a.compact b) := by
  have hlast : (l.setSnapshotAnchor b t).lastIndex = a.lastIndex := h.lastIndex
  have hbase : (l.setSnapshotAnchor b t).baseIndex = a.base := h.base
  have hmax : max a.base b = b := max_eq_right h1
  unfold CommandLog.compactUpTo
  rw [hlast, hbase]
  split_ifs with hb hl
  · obtain rfl : b = a.base := le_antisymm hb h1
    refine ⟨?_, ?_, fun hpos => ?_, ?_, h.numbered.compact _⟩
    · exact h.base.trans hmax.symm
    · show l.entries = (a.compact a.base).kept
      rw [h.entries]
      simp [BaseLog.compact]
    · simpa [BaseLog.compact] using h.nonempty (by simpa [BaseLog.compact] using hpos)
    · exact le_of_eq hmax.symm
  · omega
  · refine ⟨hmax.symm, ?_, fun _ => ?_, le_of_eq hmax.symm, h.numbered.compact _⟩
    · exact congrArg (drop (b - a.base)) h.entries
    · unfold BaseLog.lastIndex at hl
      simp only [BaseLog.compact, ne_eq, drop_eq_nil_iff]
      omega

lemma clear (h0 : a.base = 0) : CommandLogRep l.clear {} :=
  ⟨rfl, rfl, fun hb => absurd hb (lt_irrefl 0), h0 ▸ h.anchor, nofun⟩

lemma refines : ReadsAs (fun _ => True) l a where
  lastIndex := h.lastIndex
  get _ hi := h.get hi
  low _ hi := h.low hi
  getTerm i hi := by
    show l.getTerm i = _
    unfold CommandLog.getTerm
    have hne : ¬(i = l.anchor.index ∧ 0 < l.anchor.index) := by
      have := h.anchor
      omega
    rw [if_neg hne, h.get hi]
  getRange _ k hi _ := h.getRange hi k
  own i e hi he := get_own h.numbered hi ((h.get hi).symm.trans he)
  next e flush := by
    have hlast : a.base ≤ a.lastIndex := Nat.le_add_right _ _
    have heq : LogStorage.lastIndex l = a.lastIndex := h.lastIndex
    rw [heq]
    show (l.append e flush).get (a.lastIndex + 1) = _
    rw [(h.append e flush).get (by dsimp only [BaseLog.append]; omega), BaseLog.get_append_last]

lemma step (op : LogOp N C) (hr : op.inRange a) (hk : op.keepsSome a) : CommandLogRep (op.on l) (op.spec a) := by
  cases op with
  | append e flush => exact h.append e flush
  | truncateFrom =>
    simp only [LogOp.keepsSome, decide_eq_true_eq] at hk
    exact h.truncateFrom hk
  | compactLogs =>
    simp only [LogOp.inRange, LogOp.keepsSome, decide_eq_true_eq] at hr hk
    exact h.compactLogs hr.1 hk _
  | clear =>
    simp only [LogOp.keepsSome, decide_eq_true_eq] at hk
    exact h.clear hk

end

end CommandLogRep

lemma commandLog_reading : LogReading (CommandLogRep (N := N) (C := C)) where
  refines h := h.refines
  append e flush h := h.append e flush
  persist h := h
  flush h := h
  get_persist _ _ := rfl
  getTerm_persist _ _ := rfl
  first _ _ h hk hb := absurd hk (h.nonempty hb)

/-! ## `SegmentLogStorage` -/

section Segment
variable [CommandText N C]

structure SegmentLogRep (l : SegmentLog (LogEntry N C)) (a : BaseLog (LogEntry N C)) : Prop where
  base : l.baseIndex = a.base
  entries : l.entries = a.kept
  last : l.lastIndex = a.lastIndex
  anchor : l.anchor.index ≤ a.base
  numbered : a.Numbered LogEntry.index
  writer : l.persistent = true → l.lastIndex = 0 ∨ l.writer.isSome

namespace SegmentLogRep
variable {l : SegmentLog (LogEntry N C)} {a : BaseLog (LogEntry N C)} {i : ℕ}

section
variable (h : SegmentLogRep l a)
include h

lemma find_low (hi : i ≤ a.base) : l.entries.find? (fun e => WalEntry.index e = i) = none := by
  rw [find?_eq_none]
  intro e he
  rw [h.entries] at he
  obtain ⟨j, hj⟩ := mem_iff_getElem?.1 he
  have hidx : WalEntry.index e = a.base + j + 1 := h.numbered j e hj
  simp only [decide_eq_true_eq]
  omega

lemma get (hi : a.base < i) : l.get i = a.get i := by
  unfold SegmentLog.get
  rw [h.last, h.base]
  by_cases hl : a.lastIndex < i
  · rw [if_pos (Or.inr hl), BaseLog.get_eq_none hl]
  · obtain ⟨e, -, he⟩ := BaseLog.exists_get hi (by omega)
    have hidx : WalEntry.index e = i := get_own h.numbered hi he
    have hplace : a.kept[i - a.base - 1]? = some e := by rwa [BaseLog.get, if_neg (by omega)] at he
    rw [if_neg (by omega), if_neg (by omega), h.entries, hplace, he]
    dsimp only
    rw [if_pos hidx]

lemma low (hi : i ≤ a.base) : l.get i = none ∨ l.get i = some .blank := by
  unfold SegmentLog.get
  rw [h.base, h.find_low hi]
  by_cases h1 : i < a.base ∨ l.lastIndex < i
  · rw [if_pos h1]; exact Or.inl rfl
  · rw [if_neg h1, if_pos (by omega)]
    dsimp only
    split_ifs
    · exact Or.inr rfl
    · exact Or.inl rfl

lemma getRange (hi : a.base < i) (k : ℕ) : l.getRange i k = if k = 0 then a.since i else (a.since i).take k := by
  unfold SegmentLog.getRange SegmentLog.firstIndex
  rw [h.last, h.base, h.entries]
  have hfirst : ¬i < (if a.kept = [] then 0 else if a.base + 1 ≤ a.lastIndex then a.base + 1 else 0) := by
    split_ifs <;> omega
  by_cases hl : a.lastIndex < i
  · rw [if_pos (Or.inr hl), BaseLog.since_eq_nil hl]
    simp
  · rw [if_neg (by omega)]
    rfl

lemma append (e : LogEntry N C) (flush : Bool) :
    SegmentLogRep (l.append e flush) (a.append (fun i => { e with index := i })) := by
  have hp := SegmentLog.append_pushed l e flush h.writer
  have hlast : WalEntry.index (WalEntry.withIndex e (l.lastIndex + 1)) = l.lastIndex + 1 := WalEntry.index_withIndex _ _
  refine ⟨hp.base.trans h.base, ?_, ?_, ?_, h.numbered.append (fun _ => rfl), fun hpers => ?_⟩
  · rw [hp.entries, h.entries, h.last]; rfl
  · rw [hp.last, hlast, h.last, BaseLog.lastIndex_append]
  · rw [hp.anchor]; exact h.anchor
  · exact Or.inr (hp.writer (hp.persistent.symm.trans hpers))

end

lemma clear (l : SegmentLog (LogEntry N C)) : SegmentLogRep l.clear {} := by
  have h := SegmentLog.clear_same l
  exact ⟨h.base, h.entries, h.last, le_of_eq (congrArg SnapshotMeta.index h.anchor), nofun,
    fun _ => Or.inl h.last⟩

section
variable (h : SegmentLogRep l a)
include h

lemma truncateFrom {n : ℕ} (h1 : a.base ≤ n) (h2 : n ≤ a.lastIndex)
    (h3 : a.base = 0 ∨ a.base < n) : SegmentLogRep (l.truncateFrom n) (a.truncate n) := by
  by_cases hn : n ≤ l.baseIndex
  · -- the cut is at 0, and clearing leaves the same log
    have hb : a.base = 0 := by rw [h.base] at hn; omega
    have hn0 : n = 0 := by rw [h.base] at hn; omega
    have hempty : a.truncate n = {} := by rw [BaseLog.truncate, hn0, hb]; rfl
    rw [SegmentLog.truncateFrom, if_pos hn, hempty]
    exact clear l
  · obtain ⟨hs, hw⟩ := SegmentLog.truncateFrom_memory l n hn
    refine ⟨hs.base.trans h.base, ?_, ?_, ?_, h.numbered.truncate n, fun hp => ?_⟩
    · rw [hs.entries]
      dsimp only [BaseLog.truncate]
      rw [h.entries, h.base]
    · rw [hs.last, BaseLog.lastIndex_truncate h1 h2]
    · rw [hs.anchor]; exact h.anchor
    · rw [h.base] at hn
      have hne : l.lastIndex ≠ 0 := by rw [h.last]; omega
      exact Or.inr (hw ((h.writer (hs.persistent.symm.trans hp)).resolve_left hne))

lemma compactLogs {b : ℕ} (h1 : a.base ≤ b) (h2 : b ≤ a.lastIndex) (t : ℕ) :
    SegmentLogRep (l.compactLogs b t) (a.compact b) := by
  have hs := SegmentLog.compactSegments_same (l.setSnapshotAnchor b t) b
  have hw : ((l.setSnapshotAnchor b t).compactSegments b).writer = l.writer := by
    unfold SegmentLog.compactSegments
    split_ifs
    · rfl
    · split <;> rfl
  have hmax : max a.base b = b := max_eq_right h1
  have hlast := BaseLog.lastIndex_compact h2
  unfold SegmentLog.compactLogs
  generalize (l.setSnapshotAnchor b t).compactSegments b = l1 at hs hw
  have hb1 : l1.baseIndex = a.base := hs.base.trans h.base
  have he1 : l1.entries = a.kept := hs.entries.trans h.entries
  have hl1 : l1.lastIndex = a.lastIndex := hs.last.trans h.last
  have ha1 : l1.anchor.index = b := congrArg SnapshotMeta.index hs.anchor
  have hw1 : l1.persistent = true → l1.lastIndex = 0 ∨ l1.writer.isSome := by
    intro hp
    rw [hw, hl1, ← h.last]
    exact h.writer (hs.persistent.symm.trans hp)
  unfold SegmentLog.compactUpTo
  rw [hb1, hl1]
  split_ifs with hb hl
  · obtain rfl : b = a.base := le_antisymm hb h1
    refine ⟨hb1.trans hmax.symm, ?_, hl1.trans hlast.symm, ?_, h.numbered.compact _, hw1⟩
    · simpa [BaseLog.compact] using he1
    · exact le_of_eq (ha1.trans hmax.symm)
  · obtain rfl : b = a.lastIndex := le_antisymm h2 hl
    refine ⟨hmax.symm, ?_, hlast.symm, le_of_eq (ha1.trans hmax.symm), h.numbered.compact _, fun hp => ?_⟩
    · simp [BaseLog.compact, BaseLog.lastIndex]
    · have := hw1 hp
      rwa [hl1] at this
  · refine ⟨hmax.symm, ?_, hlast.symm, le_of_eq (ha1.trans hmax.symm), h.numbered.compact _, fun hp => ?_⟩
    · exact congrArg (drop (b - a.base)) he1
    · have := hw1 hp
      rwa [hl1] at this

lemma refines : ReadsAs (fun _ => True) l a where
  lastIndex := h.last
  get _ hi := h.get hi
  low _ hi := h.low hi
  getTerm i hi := by
    show l.getTerm i = _
    unfold SegmentLog.getTerm
    have hne : ¬(i = l.anchor.index ∧ 0 < l.anchor.index) := by
      have := h.anchor
      omega
    rw [if_neg hne, h.get hi]
    rfl
  getRange _ k hi _ := h.getRange hi k
  own i e hi he := get_own h.numbered hi ((h.get hi).symm.trans he)
  next e flush := by
    have hlast : a.base ≤ a.lastIndex := Nat.le_add_right _ _
    have heq : LogStorage.lastIndex l = a.lastIndex := h.last
    rw [heq]
    show (l.append e flush).get (a.lastIndex + 1) = _
    rw [(h.append e flush).get (by dsimp only [BaseLog.append]; omega), BaseLog.get_append_last]

lemma step (op : LogOp N C) (hr : op.inRange a) (hk : op.cutsAbove a) : SegmentLogRep (op.on l) (op.spec a) := by
  cases op with
  | append e flush => exact h.append e flush
  | truncateFrom =>
    simp only [LogOp.inRange, LogOp.cutsAbove, decide_eq_true_eq] at hr hk
    exact h.truncateFrom hr.1 hr.2 hk
  | compactLogs =>
    simp only [LogOp.inRange, decide_eq_true_eq] at hr
    exact h.compactLogs hr.1 hr.2 _
  | clear => exact clear l

end

end SegmentLogRep

namespace SegmentLogRep
variable {l l' : SegmentLog (LogEntry N C)} {a : BaseLog (LogEntry N C)}

lemma of_same (h : SegmentLogRep l a) (hs : SegmentLog.SameMemory l l') (hw : l.writer.isSome → l'.writer.isSome) :
    SegmentLogRep l' a := by
  refine ⟨hs.base.trans h.base, hs.entries.trans h.entries, hs.last.trans h.last, ?_, h.numbered, fun hp => ?_⟩
  · rw [hs.anchor]; exact h.anchor
  · rw [hs.last]
    exact (h.writer (hs.persistent.symm.trans hp)).imp_right hw

lemma get_base (h : SegmentLogRep l a) (hb : 0 < a.base) : l.get a.base = none := by
  rcases h.low le_rfl with he | he
  · exact he
  · -- the sentinel has index 0
    unfold SegmentLog.get at he
    rw [h.base, h.find_low le_rfl, if_neg (by rw [h.last]; unfold BaseLog.lastIndex; omega), if_pos rfl] at he
    dsimp only at he
    rw [if_neg (by show ¬ (0 = a.base); omega)] at he
    cases he

end SegmentLogRep

lemma SegmentLog.get_of_same {l l' : SegmentLog (LogEntry N C)} (hs : SegmentLog.SameMemory l l') (i : ℕ) :
    l'.get i = l.get i ∧ l'.getTerm i = l.getTerm i := by
  have hget : l'.get i = l.get i := by
    unfold SegmentLog.get
    rw [hs.base, hs.last, hs.entries]
  refine ⟨hget, ?_⟩
  unfold SegmentLog.getTerm
  rw [hs.anchor, hget]

lemma segmentLog_reading : LogReading (SegmentLogRep (N := N) (C := C)) where
  refines h := h.refines
  append e flush h := h.append e flush
  persist {l a} h := by
    show SegmentLogRep l.persist a
    unfold SegmentLog.persist
    split_ifs
    · exact h.of_same (SegmentLog.flush_same l) (SegmentLog.flush_isSome l)
    · exact h
  flush {l a} h := h.of_same (SegmentLog.flush_same l) (SegmentLog.flush_isSome l)
  get_persist l i := (SegmentLog.get_of_same (SegmentLog.persist_same l) i).1
  getTerm_persist l i := (SegmentLog.get_of_same (SegmentLog.persist_same l) i).2
  first {l a} e flush h hk hb := by
    have hnew : (l.append e flush).get a.base = none := (h.append e flush).get_base hb
    refine ⟨hnew, ?_⟩
    show (l.append e flush).getTerm a.base = l.getTerm a.base
    unfold SegmentLog.getTerm
    rw [SegmentLog.append_anchor, hnew, h.get_base hb]

lemma LogOp.along_cutsAbove {ops : List (LogOp N C)} {a : BaseLog (LogEntry N C)}
    (h : LogOp.along LogOp.keepsSome a ops) : LogOp.along LogOp.cutsAbove a ops := by
  induction ops generalizing a with
  | nil => rfl
  | cons _ _ ih =>
    simp only [LogOp.along, Bool.and_eq_true] at h ⊢
    exact ⟨LogOp.cutsAbove_of_keepsSome h.1, ih h.2⟩

/-- `ReadsAs` for the limits of the source: `physical + limit` is a `size_t`, which does not wrap for limits up to
2^63, since a vector has fewer than 2^63 elements -/
abbrev Refines [LogStorage N C L] (l : L) (a : BaseLog (LogEntry N C)) : Prop := ReadsAs (· ≤ UInt64.size / 2) l a

lemma ReadsAs.within [LogStorage N C L] {l : L} {a : BaseLog (LogEntry N C)} (h : ReadsAs (fun _ => True) l a) :
    Refines l a :=
  ⟨h.lastIndex, h.get, h.low, h.getTerm, fun i k hi _ => h.getRange i k hi trivial, h.own, h.next⟩

structure Agree {L L' : Type} [LogStorage N C L] [LogStorage N C L'] (base : ℕ) (l : L) (l' : L') : Prop where
  lastIndex : LogStorage.lastIndex l = LogStorage.lastIndex l'
  get : ∀ i, base < i → LogStorage.get l i = LogStorage.get l' i
  getTerm : ∀ i, base < i → LogStorage.getTerm l i = LogStorage.getTerm l' i
  getRange : ∀ i k, base < i → k ≤ UInt64.size / 2 → LogStorage.getRange l i k = LogStorage.getRange l' i k

lemma Refines.agree {L L' : Type} [LogStorage N C L] [LogStorage N C L'] {l : L} {l' : L'}
    {a : BaseLog (LogEntry N C)} (h : Refines l a) (h' : Refines l' a) : Agree a.base l l' :=
  ⟨h.lastIndex.trans h'.lastIndex.symm, fun i hi => (h.get i hi).trans (h'.get i hi).symm,
    fun i hi => (h.getTerm i hi).trans (h'.getTerm i hi).symm,
      fun i k hi hk => (h.getRange i k hi hk).trans (h'.getRange i k hi hk).symm⟩

/-- **Both storages are the same log.** -/
theorem storages_refine (persistent fsyncPerAppend : Bool) (ops : List (LogOp N C))
    (hr : LogOp.along LogOp.inRange {} ops) (hk : LogOp.along LogOp.keepsSome {} ops) :
    let a := ops.foldl LogOp.spec {}
    let c := ops.foldl LogOp.on ({} : CommandLog N C)
    let s := ops.foldl LogOp.on ({ persistent, fsyncPerAppend } : SegmentLog (LogEntry N C))
    Refines c a ∧ Refines s a ∧ Agree a.base c s := by
  intro a c s
  have hnum : ({} : BaseLog (LogEntry N C)).Numbered LogEntry.index := nofun
  have hc : CommandLogRep c a :=
    LogOp.run_rep (fun op h => h.step op) ⟨rfl, rfl, fun h => absurd h (lt_irrefl 0), le_rfl, hnum⟩ hr hk
  have hs : SegmentLogRep s a :=
    LogOp.run_rep (fun op h => h.step op) ⟨rfl, rfl, rfl, le_rfl, hnum,
      fun _ => Or.inl rfl⟩ hr (LogOp.along_cutsAbove hk)
  exact ⟨hc.refines.within, hs.refines.within, hc.refines.within.agree hs.refines.within⟩

end Segment

def cutAndCompact : List (LogOp Unit Unit) :=
  [.append ⟨1, 0, .client ()⟩ true, .append ⟨1, 0, .client ()⟩ false, .append ⟨1, 0, .client ()⟩ true, .compactLogs 1,
    .truncateFrom 2, .append ⟨2, 0, .client ()⟩ true]

theorem storages_refine_cutAndCompact :
    let a := cutAndCompact.foldl LogOp.spec {}
    a = ⟨1, [⟨1, 2, .client ()⟩, ⟨2, 3, .client ()⟩]⟩ ∧
    let s := cutAndCompact.foldl LogOp.on ({ persistent := true, fsyncPerAppend := true } :
      SegmentLog (LogEntry Unit Unit))
    Refines (cutAndCompact.foldl LogOp.on ({} : CommandLog Unit Unit)) a ∧ Refines s a ∧
    Agree a.base (cutAndCompact.foldl LogOp.on ({} : CommandLog Unit Unit)) s :=
  ⟨by decide, storages_refine true true cutAndCompact (by decide) (by decide)⟩

/-- **The storages lose their place.** -/
theorem storages_lose_index :
    let up : List (LogOp Unit Unit) := [.append ⟨1, 0, .client ()⟩ true, .compactLogs 1]
    let cut : List (LogOp Unit Unit) :=
      [.append ⟨1, 0, .client ()⟩ true, .append ⟨1, 0, .client ()⟩ true, .compactLogs 1,
      .truncateFrom 1]
    let again : List (LogOp Unit Unit) :=
      [.append ⟨1, 0, .client ()⟩ true, .append ⟨1, 0, .client ()⟩ true, .compactLogs 1,
      .clear, .append ⟨2, 0, .client ()⟩ true]
    let command (ops : List (LogOp Unit Unit)) := ops.foldl LogOp.on ({} : CommandLog Unit Unit)
    let segment (ops : List (LogOp Unit Unit)) := ops.foldl LogOp.on ({} : SegmentLog (LogEntry Unit Unit))
    (LogOp.along LogOp.inRange {} up ∧ lastIndex (command up) = 0 ∧ lastIndex (segment up) = 1) ∧
    (LogOp.along LogOp.inRange {} cut ∧ (cut.foldl LogOp.spec {}).lastIndex = 1 ∧ lastIndex (command cut) = 0 ∧
      lastIndex (segment cut) = 0) ∧
    (LogOp.along LogOp.inRange {} again ∧ (get (command again) 1).map LogEntry.term = some 2 ∧
    getTerm (command again) 1 = 1 ∧
      getTerm (segment again) 1 = 2) := by
  decide +kernel

/-! ## Votes -/

structure SameVotes [DecidableEq N] [LogStorage N C L] (l l' : L) : Prop where
  answer : ∀ (nd : RaftNode N C L) (req : VoteRequest N),
    (({ nd with log := l' }).onRequestVote req).2 = (({ nd with log := l }).onRequestVote req).2
  own : ∀ nd : RaftNode N C L, ({ nd with log := l' }).startElection.2 = ({ nd with log := l }).startElection.2

lemma onRequestVote_snd [DecidableEq N] [LogStorage N C L] (req : VoteRequest N) :
    (nd.onRequestVote req).2 =
      if req.term < nd.term then ⟨nd.term, false⟩
      else
        let storage := if nd.term < req.term then nd.storage.setState req.term none else nd.storage
        ⟨storage.currentTerm, ¬ (storage.votedFor ≠ none ∧ storage.votedFor ≠ some req.candidateId) ∧
          ¬ req.lastLogTerm < lastTerm nd.log ∧
          ¬ (req.lastLogTerm = lastTerm nd.log ∧ req.lastLogIndex < lastIndex nd.log)⟩ := by
  -- the part after the term checks, for the node itself and for the follower it may have become
  have hrest : ∀ x : RaftNode N C L, x.log = nd.log →
      (if x.votedFor ≠ none ∧ x.votedFor ≠ some req.candidateId then (x, (⟨x.term, false⟩ : VoteResponse))
        else if req.lastLogTerm < lastTerm x.log then (x, ⟨x.term, false⟩)
        else if req.lastLogTerm = lastTerm x.log ∧ req.lastLogIndex < lastIndex x.log then (x, ⟨x.term, false⟩)
        else ({ x with storage := x.storage.setVotedFor (some req.candidateId) }, ⟨x.term, true⟩)).2 =
      ⟨x.storage.currentTerm, ¬ (x.storage.votedFor ≠ none ∧ x.storage.votedFor ≠ some req.candidateId) ∧
        ¬ req.lastLogTerm < lastTerm nd.log ∧
        ¬ (req.lastLogTerm = lastTerm nd.log ∧ req.lastLogIndex < lastIndex nd.log)⟩ := by
    intro x hx
    rw [hx]
    unfold RaftNode.votedFor RaftNode.term
    split_ifs with h1 h2 h3
    all_goals simp only [VoteResponse.mk.injEq, true_and]
    · simp [h1]
    · simp [h2]
    · simp [h3]
    · simp only [h1, h2, h3]; simp
  unfold RaftNode.onRequestVote
  by_cases hold : req.term < nd.term
  · simp only [hold, if_true]
  · simp only [hold, if_false]
    by_cases hnew : nd.term < req.term
    · have hst := RaftNode.becomeFollowerLocked_storage nd req.term
      simp only [hnew, if_true] at hst ⊢
      rw [← hst]
      exact hrest _ (RaftNode.becomeFollowerLocked_data nd req.term).log
    · simp only [hnew, if_false]
      exact hrest nd rfl

lemma startElection_snd [DecidableEq N] [LogStorage N C L] : nd.startElection.2 =
      if nd.shutdown ∨ nd.role = .leader then none
      else some (⟨nd.term + 1, nd.nodeId, lastIndex nd.log, lastTerm nd.log⟩, nd.getPeerIdsLocked) := by
  have hterm : nd.becomeCandidateNewTermLocked.term = nd.term + 1 := by
    show nd.becomeCandidateNewTermLocked.storage.currentTerm = _
    rw [RaftNode.becomeCandidateNewTermLocked, RaftNode.setRoleLocked_storage]
    rfl
  have hc := RaftNode.becomeCandidateNewTermLocked_campaigns nd
  have hsent : (if nd.becomeCandidateNewTermLocked.role ≠ .candidate then (nd.becomeCandidateNewTermLocked, none)
        else (nd.becomeCandidateNewTermLocked, some ((⟨nd.becomeCandidateNewTermLocked.term,
          nd.becomeCandidateNewTermLocked.nodeId, lastIndex nd.becomeCandidateNewTermLocked.log,
          lastTerm nd.becomeCandidateNewTermLocked.log⟩ : VoteRequest N),
          nd.becomeCandidateNewTermLocked.getPeerIdsLocked))).2 =
      some (⟨nd.term + 1, nd.nodeId, lastIndex nd.log, lastTerm nd.log⟩, nd.getPeerIdsLocked) := by
    rw [if_neg (by rw [hc.role]; simp), hterm, hc.data.id, hc.data.log, RaftNode.getPeerIdsLocked_eq hc.data]
  unfold RaftNode.startElection
  by_cases hs : nd.shutdown = true
  · rw [if_pos hs, if_pos (Or.inl hs)]
  rw [if_neg hs]
  cases hr : nd.role with
  | follower =>
    have hfirst : nd.becomeCandidateLocked = nd.becomeCandidateNewTermLocked := if_neg (by rw [hr]; simp)
    refine Eq.trans ?_ (if_neg (by simp [hs])).symm
    simp only [hfirst]
    exact hsent
  | candidate =>
    refine Eq.trans ?_ (if_neg (by simp [hs])).symm
    exact hsent
  | leader => simp [hr]

lemma SameVotes.of_last [DecidableEq N] [LogStorage N C L] {l l' : L} (hi : lastIndex l' = lastIndex l)
    (ht : lastTerm l' = lastTerm l) : SameVotes l l' := by
  refine ⟨fun nd req => ?_, fun nd => ?_⟩
  · rw [onRequestVote_snd, onRequestVote_snd, hi, ht]
    rfl
  · rw [startElection_snd, startElection_snd, hi, ht]
    rfl

lemma SameVotes.last [DecidableEq N] [LogStorage N C L] [Nonempty N] {l l' : L} (h : SameVotes l l') :
    lastIndex l' = lastIndex l ∧ lastTerm l' = lastTerm l := by
  obtain ⟨id⟩ := ‹Nonempty N›
  have hown := h.own { nodeId := id, log := l }
  rw [startElection_snd, startElection_snd] at hown
  have hreq := (Prod.mk.inj (Option.some.inj hown)).1
  exact ⟨(VoteRequest.mk.inj hreq).2.2.1, (VoteRequest.mk.inj hreq).2.2.2⟩

lemma CommandLog.compact_last (l : CommandLog N C) (b t : ℕ) (hb : b < l.lastIndex ∨ b ≤ l.baseIndex) :
    lastIndex (compactLogs l b t) = lastIndex l ∧ lastTerm (compactLogs l b t) = lastTerm l := by
  show ((l.setSnapshotAnchor b t).compactUpTo b).lastIndex = l.lastIndex ∧
    ((l.setSnapshotAnchor b t).compactUpTo b).lastTerm = l.lastTerm
  by_cases hlow : b ≤ l.baseIndex
  · have hsame : (l.setSnapshotAnchor b t).compactUpTo b = l.setSnapshotAnchor b t := if_pos hlow
    rw [hsame]
    exact ⟨rfl, rfl⟩
  have hlt : b < l.lastIndex := hb.resolve_right hlow
  have hne : l.entries ≠ [] := by
    intro h
    rw [CommandLog.lastIndex, if_pos h] at hlt
    omega
  have hlast : l.lastIndex = l.baseIndex + l.entries.length := if_neg hne
  have hsome : b - l.baseIndex < l.entries.length := by omega
  have hcut : (l.setSnapshotAnchor b t).compactUpTo b =
      { l with baseIndex := b, entries := l.entries.drop (b - l.baseIndex), anchor := ⟨b, t⟩ } :=
    (if_neg hlow).trans (if_neg (not_le.2 hlt))
  have hdrop : l.entries.drop (b - l.baseIndex) ≠ [] := by simp [hsome]
  rw [hcut]
  constructor
  · show (if l.entries.drop (b - l.baseIndex) = [] then 0 else b + (l.entries.drop (b - l.baseIndex)).length) = _
    rw [if_neg hdrop, length_drop]
    omega
  · show ((l.entries.drop (b - l.baseIndex)).getLast?.map LogEntry.term).getD 0 = _
    rw [getLast?_drop, if_neg (by omega)]
    rfl

lemma SegmentLog.compact_last {E : Type} [WalEntry E] (l : SegmentLog E) (b t : ℕ)
    (hb : b < l.lastIndex ∨ b ≤ l.baseIndex) :
    (l.compactLogs b t).lastIndex = l.lastIndex ∧ (l.compactLogs b t).lastTerm = l.lastTerm := by
  have hsame := SegmentLog.compactSegments_same (l.setSnapshotAnchor b t) b
  have hbase : ((l.setSnapshotAnchor b t).compactSegments b).baseIndex = l.baseIndex := hsame.base
  have hlast : ((l.setSnapshotAnchor b t).compactSegments b).lastIndex = l.lastIndex := hsame.last
  have hterm : ((l.setSnapshotAnchor b t).compactSegments b).lastTerm = l.lastTerm := hsame.lastTerm
  unfold SegmentLog.compactLogs SegmentLog.compactUpTo
  by_cases hlow : b ≤ l.baseIndex
  · rw [if_pos (hbase.symm ▸ hlow)]
    exact ⟨hlast, hterm⟩
  · rw [if_neg (hbase.symm ▸ hlow), if_neg (hlast.symm ▸ not_le.2 (hb.resolve_right hlow))]
    exact ⟨hlast, hterm⟩

lemma SegmentLog.compact_whole {E : Type} [WalEntry E] (l : SegmentLog E) {b : ℕ} (t : ℕ) (hb : b = l.lastIndex)
    (hlow : l.baseIndex < b) : (l.compactLogs b t).lastIndex = l.lastIndex ∧ (l.compactLogs b t).lastTerm = 0 := by
  have hsame := SegmentLog.compactSegments_same (l.setSnapshotAnchor b t) b
  have hbase : ((l.setSnapshotAnchor b t).compactSegments b).baseIndex = l.baseIndex := hsame.base
  have hlast : ((l.setSnapshotAnchor b t).compactSegments b).lastIndex = l.lastIndex := hsame.last
  unfold SegmentLog.compactLogs SegmentLog.compactUpTo
  rw [if_neg (by omega), if_pos (by omega)]
  exact ⟨hb, rfl⟩

/-- **A compaction changes no vote** exactly if it is below the last index or already done, whatever is in the log; with
the segment log also if the last term is 0, which is what it becomes. -/
theorem compaction_keeps_votes [DecidableEq N] [CommandText N C] [Nonempty N] :
    (∀ (l : CommandLog N C) (b : ℕ), b ≤ lastIndex l →
      (SameVotes l (compactLogs l b (getTerm l b)) ↔ b < lastIndex l ∨ b ≤ l.baseIndex)) ∧
    (∀ (l : SegmentLog (LogEntry N C)) (b : ℕ), b ≤ lastIndex l →
      (SameVotes l (compactLogs l b (getTerm l b)) ↔ b < lastIndex l ∨ b ≤ l.baseIndex ∨ lastTerm l = 0)) := by
  constructor
  · intro l b hle
    refine ⟨fun h => ?_, fun hb => ?_⟩
    · by_contra hno
      push Not at hno
      -- nothing is left, and `LastIndex` is 0
      have hcut : compactLogs l b (getTerm l b) =
          { l with baseIndex := b, entries := [], anchor := ⟨b, getTerm l b⟩ } :=
        (if_neg (not_le.2 hno.2)).trans (if_pos hno.1)
      have hlast := h.last.1
      rw [hcut] at hlast
      have hzero : lastIndex l = 0 := hlast.symm.trans (show CommandLog.lastIndex _ = 0 from if_pos rfl)
      omega
    · obtain ⟨hi, ht⟩ := CommandLog.compact_last l b (getTerm l b) hb
      exact SameVotes.of_last hi ht
  · intro l b hle
    by_cases hb : b < lastIndex l ∨ b ≤ l.baseIndex
    · obtain ⟨hi, ht⟩ := SegmentLog.compact_last l b (l.getTerm b) hb
      exact iff_of_true (SameVotes.of_last hi ht) (by tauto)
    · push Not at hb
      obtain ⟨hi, ht⟩ := SegmentLog.compact_whole l (l.getTerm b) (le_antisymm hle hb.1) hb.2
      refine ⟨fun h => Or.inr (Or.inr (h.last.2.symm.trans ht)), fun h => ?_⟩
      exact SameVotes.of_last hi (ht.trans ((h.resolve_left (by omega)).resolve_left (by omega)).symm)

/-- two entries, compacted up to the first -/
theorem compaction_keeps_votes_first :
    let l : CommandLog Unit Unit := ⟨0, [⟨1, 1, .client ()⟩, ⟨2, 2, .client ()⟩], {}⟩
    let s : SegmentLog (LogEntry Unit Unit) := { entries := l.entries, lastIndex := 2, lastTerm := 2 }
    1 < lastIndex l ∧ 1 < lastIndex s ∧ SameVotes l (compactLogs l 1 (getTerm l 1)) ∧
    SameVotes s (compactLogs s 1 (getTerm s 1)) :=
  ⟨by decide, by decide, (compaction_keeps_votes.1 _ 1 (by decide)).2 (Or.inl (by decide)),
    (compaction_keeps_votes.2 _ 1 (by decide)).2 (Or.inl (by decide))⟩

/-- **A compacted log is taken for an old one.** -/
theorem compaction_changes_votes :
    let l : CommandLog (Fin 2) ℕ := ⟨0, [⟨2, 1, .client 0⟩], {}⟩
    let s : SegmentLog (LogEntry (Fin 2) ℕ) := { entries := l.entries, lastIndex := 1, lastTerm := 2 }
    let l' := compactLogs l 1 (getTerm l 1)
    let s' := compactLogs s 1 (getTerm s 1)
    let request : VoteRequest (Fin 2) := ⟨3, 1, 1, 1⟩
    let answer {L : Type} [LogStorage (Fin 2) ℕ L] (k : L) :=
      (RaftNode.onRequestVote ({ nodeId := 0, log := k } : RaftNode (Fin 2) ℕ L) request).2
    let own {L : Type} [LogStorage (Fin 2) ℕ L] (k : L) :=
      (RaftNode.startElection ({ nodeId := 0, log := k } : RaftNode (Fin 2) ℕ L)).2.map Prod.fst
    (1 ≤ lastIndex l ∧ answer l = ⟨3, false⟩ ∧ answer l' = ⟨3, true⟩ ∧ own l = some ⟨1, 0, 1, 2⟩ ∧
      own l' = some ⟨1, 0, 0, 0⟩) ∧
    (1 ≤ lastIndex s ∧ answer s = ⟨3, false⟩ ∧ answer s' = ⟨3, true⟩ ∧ own s = some ⟨1, 0, 1, 2⟩ ∧
      own s' = some ⟨1, 0, 1, 0⟩) := by
  decide +kernel

end MaxRedis.Storage

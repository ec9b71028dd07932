/-
`SegmentLogStorage` (`segment_log_storage.cc`): the log in memory and its segment files.

The log's entries are a type parameter with `WalEntry`; `entries_` is without its sentinel. The directory is a list of
segment files by id.
-/
import MaxRedis.Raft.LogStorage
import MaxRedis.Storage.Wal

namespace MaxRedis.Storage

open Bytes Raft List

/-! ## The directory -/

abbrev WalDir := List (ℕ × SegFile)

namespace WalDir

def file (d : WalDir) (id : ℕ) : SegFile := (d.lookup id).getD {}

def set (d : WalDir) (id : ℕ) (f : SegFile) : WalDir := d.map (fun p => if p.1 = id then (id, f) else p)

def create (d : WalDir) (id : ℕ) : WalDir := if (d.map Prod.fst).contains id then d else d ++ [(id, ({} : SegFile))]

def unlink (d : WalDir) (p : ℕ → Bool) : WalDir := d.filter (fun x => !p x.1)

def discoverSegments (d : WalDir) : List ℕ := (d.map Prod.fst).insertionSort (· ≤ ·)

def crash (d : WalDir) : WalDir := d.map (fun p => (p.1, p.2.crash))

end WalDir

def SegFile.truncate (f : SegFile) (size : ℕ) : SegFile := ⟨f.bytes.take size, min f.synced size⟩

structure EntryLocation where
  segmentId : ℕ
  offset : ℕ
  deriving DecidableEq, Repr

def maxSegmentBytes : ℕ := 64 * 1024 * 1024

/-! ## The log -/

/-- `locations` is the `WalIndex`; `persistent` says that a directory was given -/
structure SegmentLog (E : Type) where
  persistent : Bool := true
  fsyncPerAppend : Bool := true
  dir : WalDir := []
  writer : Option WalWriter := none
  currentSegmentId : ℕ := 0
  baseIndex : ℕ := 0
  entries : List E := []
  locations : ℕ → Option EntryLocation := fun _ => none
  lastIndex : ℕ := 0
  lastTerm : ℕ := 0
  anchor : SnapshotMeta := {}

namespace SegmentLog

variable {E : Type} [WalEntry E]

open WalEntry

def ensureWriter (l : SegmentLog E) : SegmentLog E :=
  match l.writer with
  | some _ => l
  | none =>
    { l with dir := l.dir.create l.currentSegmentId, writer := some (.openAppend (l.dir.file l.currentSegmentId)) }

def closeWriter (l : SegmentLog E) : SegmentLog E :=
  match l.writer with
  | none => l
  | some w => { l with dir := l.dir.set l.currentSegmentId (w.flush (l.dir.file l.currentSegmentId)).2, writer := none }

def rollSegment (l : SegmentLog E) : SegmentLog E :=
  ({ l.closeWriter with currentSegmentId := l.currentSegmentId + 1 }).ensureWriter

def firstIndex (l : SegmentLog E) : ℕ :=
  if l.entries = [] then 0 else if l.baseIndex + 1 ≤ l.lastIndex then l.baseIndex + 1 else 0

def get (l : SegmentLog E) (i : ℕ) : Option E :=
  if i < l.baseIndex ∨ l.lastIndex < i then none
  else
    match (if i = l.baseIndex then some blank else l.entries[i - l.baseIndex - 1]?) with
    | some e => if index e = i then some e else l.entries.find? (fun e => index e = i)
    | none => l.entries.find? (fun e => index e = i)

def getTerm (l : SegmentLog E) (i : ℕ) : ℕ :=
  if i = l.anchor.index ∧ 0 < l.anchor.index then l.anchor.term else ((l.get i).map term).getD 0

def getRange (l : SegmentLog E) (start limit : ℕ) : List E :=
  if start < l.firstIndex ∨ l.lastIndex < start then []
  else if limit = 0 then l.entries.drop (start - l.baseIndex - 1)
  else (l.entries.drop (start - l.baseIndex - 1)).take limit

def setSnapshotAnchor (l : SegmentLog E) (i t : ℕ) : SegmentLog E := { l with anchor := ⟨i, t⟩ }

def push (l : SegmentLog E) (e : E) : SegmentLog E :=
  { l with entries := l.entries ++ [e], lastIndex := index e, lastTerm := term e }

def addLocation (l : SegmentLog E) (i : ℕ) (loc : EntryLocation) : SegmentLog E :=
  { l with locations := fun j => if j = i then some loc else l.locations j }

def writeRecord (l : SegmentLog E) (w : WalWriter) (e : E) (sync : Bool) : SegmentLog E :=
  let f := l.dir.file l.currentSegmentId
  let out := if sync then (w.append e).flush f else (w.append e).writeNoSync f
  { l with dir := l.dir.set l.currentSegmentId out.2, writer := some out.1 }

def append (l : SegmentLog E) (e : E) (flush : Bool) : SegmentLog E :=
  let e := withIndex e (l.lastIndex + 1)
  if !l.persistent then l.push e
  else
    let l := if l.lastIndex = 0 then l.ensureWriter else l
    match l.writer with
    | none => l
    | some w =>
      let l := ((l.push e).writeRecord w e (flush && l.fsyncPerAppend)).addLocation (index e)
        ⟨l.currentSegmentId, w.nextWriteOffset⟩
      if maxSegmentBytes ≤ (l.writer.map WalWriter.fileSize).getD 0 then l.rollSegment else l

def flush (l : SegmentLog E) : SegmentLog E :=
  match l.writer with
  | none => l
  | some w =>
    let out := w.flush (l.dir.file l.currentSegmentId)
    { l with dir := l.dir.set l.currentSegmentId out.2, writer := some out.1 }

def persist (l : SegmentLog E) : SegmentLog E := if l.fsyncPerAppend then l.flush else l

def wipe (l : SegmentLog E) : SegmentLog E :=
  { l with baseIndex := 0, locations := fun _ => none, lastIndex := 0, lastTerm := 0, entries := [], anchor := {} }

def clear (l : SegmentLog E) : SegmentLog E :=
  let l := l.wipe.closeWriter
  if l.persistent then { l with dir := [] } else l

def cutFiles (l : SegmentLog E) (loc : EntryLocation) (keep : E) : SegmentLog E :=
  let f := (l.dir.file loc.segmentId).truncate (loc.offset + headerSize + (command keep).length)
  { l with dir := (l.dir.set loc.segmentId f).unlink (fun id => loc.segmentId < id) }

/-- the files of `TruncateFrom`: after the cut the writer reopens at the new end -/
def truncateFiles (l : SegmentLog E) (loc : EntryLocation) (keep : E) : SegmentLog E :=
  ({ (l.cutFiles loc keep).closeWriter with currentSegmentId := loc.segmentId }).ensureWriter

def truncateFrom (l : SegmentLog E) (newLast : ℕ) : SegmentLog E :=
  if newLast ≤ l.baseIndex then l.clear
  else
    let keep := l.entries[newLast - l.baseIndex - 1]?
    let l := { l with
      locations := fun i => if i ≤ newLast then l.locations i else none
      lastIndex := newLast
      lastTerm := (keep.map term).getD 0
      entries := l.entries.take (newLast - l.baseIndex) }
    match l.locations newLast, keep, l.writer with
    | some loc, some keep, some _ => l.truncateFiles loc keep
    | _, _, _ => l

def compactUpTo (l : SegmentLog E) (i : ℕ) : SegmentLog E :=
  if i ≤ l.baseIndex then l
  else if l.lastIndex ≤ i then
    { l with baseIndex := i, locations := fun _ => none, lastIndex := i, lastTerm := 0, entries := [] }
  else
    { l with
      baseIndex := i
      entries := l.entries.drop (i - l.baseIndex)
      locations := fun j => if i < j then l.locations j else none }

def compactSegments (l : SegmentLog E) (snapshotIndex : ℕ) : SegmentLog E :=
  if !l.persistent then l
  else
    match l.locations snapshotIndex with
    | none => l
    | some loc => { l with dir := l.dir.unlink (fun id => id < loc.segmentId) }

def compactLogs (l : SegmentLog E) (snapshotIndex snapshotTerm : ℕ) : SegmentLog E :=
  ((l.setSnapshotAnchor snapshotIndex snapshotTerm).compactSegments snapshotIndex).compactUpTo snapshotIndex

def pruneCompacted (l : SegmentLog E) : SegmentLog E :=
  if l.anchor.index = 0 then l
  else
    match l.entries, l.entries.dropWhile (fun e => index e ≤ l.anchor.index) with
    | [], _ => l
    | _ :: _, [] => { l with baseIndex := l.anchor.index, entries := [] }
    | e :: _, rest@(_ :: _) =>
      if index e ≤ l.anchor.index then { l with baseIndex := l.anchor.index, entries := rest } else l

/-! ## Open -/

/-- one turn of `ScanSegment`; the second component is the offset in the file -/
def scanStep (segmentId : ℕ) (t : SegmentLog E × ℕ) (bs : List UInt8) : Option ((SegmentLog E × ℕ) × List UInt8) :=
  match readRecord t.1.lastIndex bs with
  | none => none
  | some (e, rest) =>
    some (((t.1.push e).addLocation (index e) ⟨segmentId, t.2⟩, t.2 + (bs.length - rest.length)), rest)

def scanSegment (l : SegmentLog E) (segmentId : ℕ) : SegmentLog E :=
  let bytes := (l.dir.file segmentId).bytes
  (scan (scanStep segmentId) (bytes.length + 1) (l, 0) bytes).1

def adjustBase (l : SegmentLog E) : SegmentLog E :=
  match l.entries with
  | [] => l
  | e :: _ => if l.baseIndex = 0 ∧ 1 < index e then { l with baseIndex := index e - 1 } else l

def openDir (d : WalDir) : SegmentLog E :=
  let l := (d.discoverSegments.foldl scanSegment { dir := d }).adjustBase
  match d.discoverSegments.getLast? with
  | none => l
  | some id => { l with currentSegmentId := id, writer := some (.openAppend (d.file id)) }

variable (l : SegmentLog E) (e : E) (n i t : ℕ)

lemma adjustBase_eq : ∃ b, l.adjustBase = { l with baseIndex := b } := by
  unfold adjustBase
  split
  · exact ⟨l.baseIndex, rfl⟩
  · split_ifs
    · exact ⟨_, rfl⟩
    · exact ⟨l.baseIndex, rfl⟩

/-! ## In memory -/

structure SameMemory (l l' : SegmentLog E) : Prop where
  persistent : l'.persistent = l.persistent
  fsync : l'.fsyncPerAppend = l.fsyncPerAppend
  base : l'.baseIndex = l.baseIndex
  entries : l'.entries = l.entries
  last : l'.lastIndex = l.lastIndex
  lastTerm : l'.lastTerm = l.lastTerm
  anchor : l'.anchor = l.anchor

lemma SameMemory.refl : SameMemory l l := ⟨rfl, rfl, rfl, rfl, rfl, rfl, rfl⟩

lemma SameMemory.trans {a b c : SegmentLog E} (h : SameMemory a b) (k : SameMemory b c) : SameMemory a c :=
  ⟨k.persistent.trans h.persistent, k.fsync.trans h.fsync, k.base.trans h.base, k.entries.trans h.entries,
    k.last.trans h.last, k.lastTerm.trans h.lastTerm, k.anchor.trans h.anchor⟩

lemma ensureWriter_same : SameMemory l l.ensureWriter := by
  unfold ensureWriter
  split <;> exact ⟨rfl, rfl, rfl, rfl, rfl, rfl, rfl⟩

lemma ensureWriter_isSome : l.ensureWriter.writer.isSome := by
  unfold ensureWriter
  split
  · rename_i w h; rw [h]; rfl
  · rfl

lemma closeWriter_same : SameMemory l l.closeWriter := by
  unfold closeWriter
  split <;> exact ⟨rfl, rfl, rfl, rfl, rfl, rfl, rfl⟩

lemma rollSegment_same : SameMemory l l.rollSegment := by
  have h := closeWriter_same l
  have hid : SameMemory l { l.closeWriter with currentSegmentId := l.currentSegmentId + 1 } :=
    ⟨h.persistent, h.fsync, h.base, h.entries, h.last, h.lastTerm, h.anchor⟩
  exact hid.trans (ensureWriter_same _)

lemma flush_same : SameMemory l l.flush := by
  unfold flush
  split <;> exact ⟨rfl, rfl, rfl, rfl, rfl, rfl, rfl⟩

lemma flush_isSome (h : l.writer.isSome) : l.flush.writer.isSome := by
  unfold flush
  split
  · exact h
  · rfl

lemma persist_same : SameMemory l l.persist := by
  unfold persist
  split_ifs
  · exact flush_same l
  · exact SameMemory.refl l

lemma truncateFiles_same (loc : EntryLocation) (keep : E) : SameMemory l (l.truncateFiles loc keep) := by
  have h := closeWriter_same (l.cutFiles loc keep)
  have hid : SameMemory l { (l.cutFiles loc keep).closeWriter with currentSegmentId := loc.segmentId } :=
    ⟨h.persistent, h.fsync, h.base, h.entries, h.last, h.lastTerm, h.anchor⟩
  exact hid.trans (ensureWriter_same _)

/-- what `append` does in memory, when it does not stop at a missing writer -/
structure Pushed (l l' : SegmentLog E) (e : E) : Prop where
  persistent : l'.persistent = l.persistent
  fsync : l'.fsyncPerAppend = l.fsyncPerAppend
  base : l'.baseIndex = l.baseIndex
  entries : l'.entries = l.entries ++ [e]
  last : l'.lastIndex = index e
  lastTerm : l'.lastTerm = term e
  anchor : l'.anchor = l.anchor
  writer : l.persistent = true → l'.writer.isSome

lemma Pushed.after {l l1 l2 : SegmentLog E} {e : E} (h : Pushed l l1 e) (k : SameMemory l1 l2)
    (hw : l.persistent = true → l2.writer.isSome) : Pushed l l2 e :=
  ⟨k.persistent.trans h.persistent, k.fsync.trans h.fsync, k.base.trans h.base, k.entries.trans h.entries,
    k.last.trans h.last, k.lastTerm.trans h.lastTerm, k.anchor.trans h.anchor, hw⟩

lemma writeRecord_pushed (w : WalWriter) (e : E) (sync : Bool) (loc : EntryLocation) :
    Pushed l (((l.push e).writeRecord w e sync).addLocation (index e) loc) e :=
  ⟨rfl, rfl, rfl, rfl, rfl, rfl, rfl, fun _ => rfl⟩

lemma writer_before_append (hw : l.lastIndex = 0 ∨ l.writer.isSome) :
    (if l.lastIndex = 0 then l.ensureWriter else l).writer.isSome := by
  split_ifs with h0
  · exact ensureWriter_isSome l
  · exact hw.resolve_left h0

lemma append_pushed (f : Bool) (hw : l.persistent = true → l.lastIndex = 0 ∨ l.writer.isSome) :
    Pushed l (l.append e f) (withIndex e (l.lastIndex + 1)) := by
  unfold append
  by_cases hp : l.persistent = true
  · dsimp only
    rw [if_neg (by simp [hp])]
    set l1 := if l.lastIndex = 0 then l.ensureWriter else l with hl1
    have hsame : SameMemory l l1 := by
      rw [hl1]; split_ifs
      · exact ensureWriter_same l
      · exact SameMemory.refl l
    have hsome : l1.writer.isSome := writer_before_append l (hw hp)
    obtain ⟨w, hw1⟩ := Option.isSome_iff_exists.1 hsome
    rw [hw1]
    dsimp only
    have hpush := writeRecord_pushed l1 w (withIndex e (l.lastIndex + 1)) (f && l1.fsyncPerAppend)
      ⟨l1.currentSegmentId, w.nextWriteOffset⟩
    set l2 := ((l1.push (withIndex e (l.lastIndex + 1))).writeRecord w (withIndex e (l.lastIndex + 1))
      (f && l1.fsyncPerAppend)).addLocation (index (withIndex e (l.lastIndex + 1)))
      ⟨l1.currentSegmentId, w.nextWriteOffset⟩
    have hmid : Pushed l l2 (withIndex e (l.lastIndex + 1)) :=
      ⟨hpush.persistent.trans hsame.persistent, hpush.fsync.trans hsame.fsync, hpush.base.trans hsame.base,
        by rw [hpush.entries, hsame.entries], hpush.last, hpush.lastTerm, hpush.anchor.trans hsame.anchor,
        fun _ => rfl⟩
    split_ifs
    · exact hmid.after (rollSegment_same l2) (fun _ => ensureWriter_isSome _)
    · exact hmid
  · rw [if_pos (by simpa using hp)]
    exact ⟨rfl, rfl, rfl, rfl, rfl, rfl, rfl, fun h => absurd h hp⟩

lemma append_stuck {l : SegmentLog E} (f : Bool)
    (hw : ¬(l.persistent = true → l.lastIndex = 0 ∨ l.writer.isSome)) : l.append e f = l := by
  push Not at hw
  obtain ⟨hp, h0, hnone⟩ := hw
  have hn : l.writer = none := by simpa using hnone
  unfold append
  dsimp only
  rw [if_neg (by simp [hp]), if_neg h0, hn]

lemma append_anchor (f : Bool) : (l.append e f).anchor = l.anchor := by
  by_cases hw : l.persistent = true → l.lastIndex = 0 ∨ l.writer.isSome
  · exact (append_pushed l e f hw).anchor
  · rw [append_stuck e f hw]

/-! ## A log without compaction -/

structure Whole (l : SegmentLog E) : Prop where
  base : l.baseIndex = 0
  last : l.lastIndex = l.entries.length
  lastTerm : l.lastTerm = (l.entries.getLast?.map term).getD 0
  index : ∀ i e, l.entries[i]? = some e → WalEntry.index e = i + 1
  writer : l.persistent = true → l.lastIndex = 0 ∨ l.writer.isSome

lemma Whole.of_same {l l' : SegmentLog E} (p : Whole l) (h : SameMemory l l')
    (hw : l.writer.isSome → l'.writer.isSome) : Whole l' := by
  refine ⟨h.base.trans p.base, ?_, ?_, ?_, ?_⟩
  · rw [h.last, h.entries, p.last]
  · rw [h.lastTerm, h.entries, p.lastTerm]
  · rw [h.entries]; exact p.index
  · intro hp
    rw [h.last]
    exact (p.writer (h.persistent.symm.trans hp)).imp_right hw

lemma Whole.flush {l : SegmentLog E} (p : Whole l) : Whole l.flush := p.of_same (flush_same l) (flush_isSome l)

lemma Whole.persist {l : SegmentLog E} (p : Whole l) : Whole l.persist := by
  unfold SegmentLog.persist
  split_ifs
  · exact p.flush
  · exact p

lemma Whole.append {l : SegmentLog E} (p : Whole l) (e : E) (f : Bool) : Whole (l.append e f) := by
  have h := append_pushed l e f p.writer
  refine ⟨h.base.trans p.base, ?_, ?_, ?_, ?_⟩
  · rw [h.last, h.entries, index_withIndex, p.last]; simp
  · rw [h.lastTerm, h.entries]; simp
  · intro i x hx
    rw [h.entries] at hx
    rcases Nat.lt_or_ge i l.entries.length with hi | hi
    · rw [getElem?_append_left hi] at hx; exact p.index i x hx
    · rw [getElem?_append_right hi] at hx
      obtain ⟨h0, rfl⟩ := List.getElem?_eq_some_iff.1 hx
      simp only [length_singleton] at h0
      simp only [getElem_singleton, index_withIndex, p.last]
      omega
  · intro hp; exact Or.inr (h.writer (h.persistent ▸ hp))

lemma clear_same : SameMemory l.wipe l.clear := by
  have h := closeWriter_same l.wipe
  unfold clear
  dsimp only
  split_ifs
  · exact ⟨h.persistent, h.fsync, h.base, h.entries, h.last, h.lastTerm, h.anchor⟩
  · exact h

lemma clear_entries : l.clear.entries = [] := (clear_same l).entries

lemma clear_anchorIndex : l.clear.anchor.index = 0 := by rw [(clear_same l).anchor]; rfl

lemma Whole.clear : Whole l.clear := by
  have h := clear_same l
  refine ⟨h.base, ?_, ?_, ?_, fun _ => Or.inl h.last⟩
  · rw [h.last, h.entries]; rfl
  · rw [h.lastTerm, h.entries]; rfl
  · intro i e he
    rw [h.entries] at he
    simp [wipe] at he

lemma truncateFrom_memory (hn : ¬n ≤ l.baseIndex) :
    SameMemory { l with
      lastIndex := n
      lastTerm := (l.entries[n - l.baseIndex - 1]?.map term).getD 0
      entries := l.entries.take (n - l.baseIndex) } (l.truncateFrom n) ∧
    (l.writer.isSome → (l.truncateFrom n).writer.isSome) := by
  unfold truncateFrom
  rw [if_neg hn]
  dsimp only
  split
  · rename_i loc keep w _ _ _
    have h := truncateFiles_same { l with
      locations := fun i => if i ≤ n then l.locations i else none
      lastIndex := n
      lastTerm := (l.entries[n - l.baseIndex - 1]?.map term).getD 0
      entries := l.entries.take (n - l.baseIndex) } loc keep
    exact ⟨⟨h.persistent, h.fsync, h.base, h.entries, h.last, h.lastTerm, h.anchor⟩, fun _ => ensureWriter_isSome _⟩
  · exact ⟨⟨rfl, rfl, rfl, rfl, rfl, rfl, rfl⟩, fun h => h⟩

lemma truncateFrom_entries (hb : l.baseIndex = 0) : (l.truncateFrom n).entries = l.entries.take n := by
  by_cases hn : n ≤ l.baseIndex
  · have h0 : n = 0 := by omega
    rw [truncateFrom, if_pos hn, clear_entries, h0, take_zero]
  · rw [(truncateFrom_memory l n hn).1.entries, hb]; rfl

lemma truncateFrom_anchor (h : l.anchor.index = 0) : (l.truncateFrom n).anchor.index = 0 := by
  by_cases hn : n ≤ l.baseIndex
  · rw [truncateFrom, if_pos hn, clear_anchorIndex]
  · rw [(truncateFrom_memory l n hn).1.anchor]; exact h

lemma Whole.truncateFrom {l : SegmentLog E} (p : Whole l) {n : ℕ} (hn : n ≤ l.entries.length) :
    Whole (l.truncateFrom n) := by
  by_cases h0 : n ≤ l.baseIndex
  · rw [SegmentLog.truncateFrom, if_pos h0]; exact Whole.clear l
  · obtain ⟨h, hw⟩ := truncateFrom_memory l n h0
    have hent := truncateFrom_entries l n p.base
    have hpos : 0 < n := by rw [p.base] at h0; omega
    refine ⟨h.base.trans p.base, ?_, ?_, ?_, ?_⟩
    · rw [h.last, hent]; simp [hn]
    · rw [h.lastTerm, hent, p.base]
      simp only [Nat.sub_zero]
      rw [getLast?_take, if_neg (by omega), getElem?_eq_getElem (by omega)]; rfl
    · intro i x hx
      rw [hent, getElem?_take] at hx
      split_ifs at hx
      exact p.index i x hx
    · intro hp
      have hlast : l.lastIndex ≠ 0 := by rw [p.last]; omega
      exact Or.inr (hw ((p.writer (h.persistent.symm.trans hp)).resolve_left hlast))

lemma Whole.get {l : SegmentLog E} (p : Whole l) (i : ℕ) : l.get (i + 1) = l.entries[i]? := by
  unfold SegmentLog.get
  rw [p.base, p.last]
  rcases Nat.lt_or_ge i l.entries.length with hi | hi
  · have he : l.entries[i]? = some l.entries[i] := getElem?_eq_getElem hi
    rw [if_neg (by omega), if_neg (by omega), show i + 1 - 0 - 1 = i by omega, he]
    dsimp only
    rw [if_pos (p.index i _ he)]
  · rw [if_pos (by omega), getElem?_eq_none hi]

lemma Whole.getRange {l : SegmentLog E} (p : Whole l) (i k : ℕ) (hk : 0 < k) :
    l.getRange (i + 1) k = (l.entries.drop i).take k := by
  unfold SegmentLog.getRange firstIndex
  rw [p.base, p.last]
  rcases Nat.lt_or_ge i l.entries.length with hi | hi
  · have hne : l.entries ≠ [] := by rintro h; rw [h] at hi; simp at hi
    have hfirst : 0 + 1 ≤ l.entries.length := by omega
    rw [if_neg hne, if_pos hfirst, if_neg (by omega), if_neg (by omega)]; rfl
  · rw [if_pos (by omega), drop_eq_nil_of_le hi]; simp

lemma mem_getRange (i k : ℕ) : ∀ e ∈ l.getRange i k, e ∈ l.entries := by
  intro e he
  unfold getRange at he
  split_ifs at he
  · simp at he
  · exact mem_of_mem_drop he
  · exact mem_of_mem_drop (mem_of_mem_take he)

lemma mem_append (f : Bool) : ∀ x ∈ (l.append e f).entries, x ∈ l.entries ∨ ∃ i, x = withIndex e i := by
  intro x hx
  by_cases hw : l.persistent = true → l.lastIndex = 0 ∨ l.writer.isSome
  · rw [(append_pushed l e f hw).entries] at hx
    rcases List.mem_append.1 hx with h | h
    · exact Or.inl h
    · exact Or.inr ⟨_, mem_singleton.1 h⟩
  · rw [append_stuck e f hw] at hx; exact Or.inl hx

lemma mem_truncateFrom : ∀ x ∈ (l.truncateFrom n).entries, x ∈ l.entries := by
  intro x hx
  by_cases hn : n ≤ l.baseIndex
  · rw [truncateFrom, if_pos hn, clear_entries] at hx; simp at hx
  · rw [(truncateFrom_memory l n hn).1.entries] at hx; exact mem_of_mem_take hx

lemma compactSegments_same : SameMemory l (l.compactSegments i) := by
  unfold compactSegments
  split_ifs
  · exact SameMemory.refl l
  · split <;> exact ⟨rfl, rfl, rfl, rfl, rfl, rfl, rfl⟩

lemma compactLogs_base : (l.compactLogs i t).baseIndex = max l.baseIndex i := by
  have h : ((l.setSnapshotAnchor i t).compactSegments i).baseIndex = l.baseIndex :=
    (compactSegments_same (l.setSnapshotAnchor i t) i).base
  unfold compactLogs compactUpTo
  rw [h]
  split_ifs with h1 h2
  · rw [h, max_eq_left h1]
  · exact (max_eq_right (Nat.le_of_not_le h1)).symm
  · exact (max_eq_right (Nat.le_of_not_le h1)).symm

lemma mem_compactLogs : ∀ x ∈ (l.compactLogs i t).entries, x ∈ l.entries := by
  intro x hx
  have h := compactSegments_same (l.setSnapshotAnchor i t) i
  unfold compactLogs compactUpTo at hx
  split_ifs at hx
  · rw [h.entries] at hx; exact hx
  · simp at hx
  · have hm := mem_of_mem_drop hx
    rw [h.entries] at hm; exact hm

lemma mem_pruneCompacted : ∀ x ∈ l.pruneCompacted.entries, x ∈ l.entries := by
  intro x hx
  unfold pruneCompacted at hx
  split_ifs at hx with h0
  · exact hx
  · split at hx
    · exact hx
    · simp at hx
    · rename_i e es y ys he hd
      split_ifs at hx
      · exact dropWhile_subset (fun e => index e ≤ l.anchor.index) (by rw [hd]; exact hx)
      · exact hx

end SegmentLog

/-! ## As the node's log -/

class CommandText (N C : Type) where
  text : Command N C → List UInt8
  parse : List UInt8 → Command N C
  parse_text : ∀ c, parse (text c) = c

instance : CommandText Unit Unit where
  text
    | .empty => []
    | .client _ => [1]
    | .configChange t => 2 :: t.voters.ids.length.toUInt8 :: t.learners.ids.length.toUInt8 :: List.replicate t.version 0
  parse
    | [1] => .client ()
    | 2 :: v :: l :: rest =>
      .configChange ⟨rest.length, if v = 0 then .empty else .insert .empty (),
      if l = 0 then .empty else .insert .empty ()⟩
    | _ => .empty
  parse_text c := by
    have hids : ∀ s : IdSet Unit, s = .empty ∨ s = .insert .empty () := by
      rintro ⟨ids, hn⟩
      match ids, hn with
      | [], _ => exact Or.inl rfl
      | [()], _ => exact Or.inr rfl
      | () :: () :: _, hn => simp at hn
    cases c with
    | empty => rfl
    | client => rfl
    | configChange t =>
      obtain ⟨version, voters, learners⟩ := t
      rcases hids voters with rfl | rfl <;> rcases hids learners with rfl | rfl <;> simp [IdSet.empty, IdSet.insert]

/-! A text form for numbered nodes and commands: the numbers of a command, each as so many zeros and a one -/

namespace Unary

def bytes (ns : List ℕ) : List UInt8 := ns.flatMap (fun n => List.replicate n 0 ++ [1])

def ofBytes (k : ℕ) : List UInt8 → List ℕ
  | [] => []
  | b :: bs => if b = 0 then ofBytes (k + 1) bs else k :: ofBytes 0 bs

lemma ofBytes_replicate (k n : ℕ) (bs : List UInt8) :
    ofBytes k (replicate n 0 ++ 1 :: bs) = (k + n) :: ofBytes 0 bs := by
  induction n generalizing k with
  | zero => simp [ofBytes]
  | succ _ ih =>
    rw [replicate_succ, cons_append, ofBytes, if_pos rfl, ih]
    congr 1
    omega

lemma ofBytes_bytes (ns : List ℕ) : ofBytes 0 (bytes ns) = ns := by
  induction ns with
  | nil => rfl
  | cons n ns ih =>
    have hcons : bytes (n :: ns) = replicate n 0 ++ 1 :: bytes ns := by simp [bytes]
    rw [hcons, ofBytes_replicate, ih, Nat.zero_add]

def ofIds {m : ℕ} (ns : List ℕ) : IdSet (Fin (m + 1)) :=
  if h : (ns.map (Fin.ofNat (m + 1))).Nodup then ⟨ns.map (Fin.ofNat (m + 1)), h⟩ else .empty

lemma ofIds_val {m : ℕ} (s : IdSet (Fin (m + 1))) : ofIds (s.ids.map Fin.val) = s := by
  have hmap : (s.ids.map Fin.val).map (Fin.ofNat (m + 1)) = s.ids := by
    have hid : Fin.ofNat (m + 1) ∘ Fin.val = id := by
      funext i
      exact Fin.ofNat_val_eq_self i
    rw [map_map, hid, map_id]
  unfold ofIds
  rw [dif_pos (by rw [hmap]; exact s.nodup)]
  simp only [hmap]

end Unary

instance (m : ℕ) : CommandText (Fin (m + 1)) ℕ where
  text
    | .empty => []
    | .client c => Unary.bytes [0, c]
    | .configChange t =>
      Unary.bytes (1 :: t.version :: t.voters.ids.length :: (t.voters.ids.map Fin.val ++ t.learners.ids.map Fin.val))
  parse bs :=
    match Unary.ofBytes 0 bs with
    | 0 :: c :: _ => .client c
    | 1 :: version :: k :: rest => .configChange ⟨version, Unary.ofIds (rest.take k), Unary.ofIds (rest.drop k)⟩
    | _ => .empty
  parse_text c := by
    cases c with
    | empty => rfl
    | client => simp only [Unary.ofBytes_bytes]
    | configChange t =>
      have hk : t.voters.ids.length = (t.voters.ids.map Fin.val).length := by simp
      simp only [Unary.ofBytes_bytes]
      rw [hk, List.take_left, List.drop_left, Unary.ofIds_val, Unary.ofIds_val]

instance (N C : Type) [CommandText N C] : WalEntry (LogEntry N C) where
  index := LogEntry.index
  term := LogEntry.term
  command e := CommandText.text e.command
  ofRecord index term command := ⟨term, index, CommandText.parse command⟩
  withIndex e i := { e with index := i }
  blank := .blank
  ofRecord_self e := by simp [CommandText.parse_text]
  index_withIndex _ _ := rfl
  term_withIndex _ _ := rfl
  command_withIndex _ _ := rfl
  withIndex_self _ := rfl
  index_blank := rfl

section Instance
variable {N C : Type} [CommandText N C]

instance : LogStorage N C (SegmentLog (LogEntry N C)) where
  empty := {}
  lastIndex := SegmentLog.lastIndex
  lastTerm := SegmentLog.lastTerm
  get := SegmentLog.get
  getTerm := SegmentLog.getTerm
  getRange := SegmentLog.getRange
  append := SegmentLog.append
  persist := SegmentLog.persist
  flush := SegmentLog.flush
  truncateFrom := SegmentLog.truncateFrom
  compactLogs := SegmentLog.compactLogs
  clear := SegmentLog.clear
  setSnapshotAnchor := SegmentLog.setSnapshotAnchor
  pruneCompacted := SegmentLog.pruneCompacted

/-- **`SegmentLogStorage` is a lawful log.** -/
instance : LawfulLog N C (SegmentLog (LogEntry N C)) where
  entries := SegmentLog.entries
  Whole := SegmentLog.Whole
  anchorIndex l := l.anchor.index
  baseIndex := SegmentLog.baseIndex
  whole_empty := ⟨rfl, rfl, rfl, fun i e he => by simp [LogStorage.empty] at he, fun _ => Or.inl rfl⟩
  entries_empty := rfl
  anchor_empty := rfl
  index_eq l p := p.index
  lastIndex_eq l p := p.last
  lastTerm_eq l p := p.lastTerm
  get_eq l p := p.get
  get_zero l p := by
    show l.get 0 = some .blank
    unfold SegmentLog.get
    rw [p.base, if_neg (by omega), if_pos rfl]
    rfl
  getTerm_whole l p i hi := by
    show l.getTerm (i + 1) = _
    unfold SegmentLog.getTerm
    rw [if_neg (fun h => hi h.1), p.get]
    rfl
  getRange_eq l p := p.getRange
  append_whole l e f p := p.append e f
  append_eq l e f p := by
    show (l.append e f).entries = _
    rw [(SegmentLog.append_pushed l e f p.writer).entries, p.last]; rfl
  append_anchor l e f := by
    show (l.append e f).anchor.index = l.anchor.index
    exact congrArg SnapshotMeta.index (SegmentLog.append_anchor l e f)
  truncate_whole l i p hi := p.truncateFrom hi
  truncate_eq l i p _ := SegmentLog.truncateFrom_entries l i p.base
  truncate_anchor l i h := SegmentLog.truncateFrom_anchor l i h
  persist_whole l p := p.persist
  persist_eq l := (SegmentLog.persist_same l).entries
  persist_anchor l := by rw [show LogStorage.persist l = l.persist from rfl, (SegmentLog.persist_same l).anchor]
  flush_whole l p := p.flush
  flush_eq l := (SegmentLog.flush_same l).entries
  flush_anchor l := by rw [show LogStorage.flush l = l.flush from rfl, (SegmentLog.flush_same l).anchor]
  clear_whole l i t := by
    have h := SegmentLog.Whole.clear l
    exact ⟨h.base, h.last, h.lastTerm, h.index, h.writer⟩
  clear_eq l i t := SegmentLog.clear_entries l
  clear_anchor l i t := rfl
  compact_base := SegmentLog.compactLogs_base
  mem_range := SegmentLog.mem_getRange
  mem_append := SegmentLog.mem_append
  mem_truncate := SegmentLog.mem_truncateFrom
  mem_compact := SegmentLog.mem_compactLogs
  mem_clear l x hx := by
    have h : x ∈ l.clear.entries := hx
    rw [SegmentLog.clear_entries] at h
    simp at h
  mem_anchor l i t x hx := hx
  mem_prune := SegmentLog.mem_pruneCompacted

end Instance

end MaxRedis.Storage

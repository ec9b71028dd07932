/-
The segment files of a log against its entries.

`OnDisk l gs` says that the directory of the log `l` is the segments `gs`, that their records are the entries in memory,
and that the writer stands at the end of the last one.
-/
import MaxRedis.Storage.SegmentLog

namespace MaxRedis.Storage

open Bytes WalEntry List

variable {E : Type} [WalEntry E]

structure Segment (E : Type) where
  id : ℕ
  records : List E := []
  synced : ℕ := 0

namespace Segment

def file (g : Segment E) : SegFile :=
  ⟨writeAll record g.records, (writeAll record (g.records.take g.synced)).length⟩

def add (g : Segment E) (e : E) (sync : Bool) : Segment E :=
  { g with records := g.records ++ [e], synced := if sync then g.records.length + 1 else g.synced }

def crash (g : Segment E) : Segment E := { g with records := g.records.take g.synced }

lemma crash_file (g : Segment E) : g.crash.file = g.file.crash := by
  have htake : writeAll record g.records =
      writeAll record (g.records.take g.synced) ++ writeAll record (g.records.drop g.synced) := by
    rw [← writeAll_append, take_append_drop]
  have hbytes : (writeAll record g.records).take (writeAll record (g.records.take g.synced)).length =
      writeAll record (g.records.take g.synced) := by
    rw [htake, take_left' rfl]
  simp only [crash, file, SegFile.crash, take_take, Nat.min_self, hbytes]

lemma add_file (g : Segment E) (hs : g.synced ≤ g.records.length) (e : E) (sync : Bool) : (g.add e sync).file =
    ⟨g.file.bytes ++ record e, if sync then (g.file.bytes ++ record e).length else g.file.synced⟩ := by
  have hall : (g.records ++ [e]).take (g.records.length + 1) = g.records ++ [e] := take_of_length_le (by simp)
  have hold : (g.records ++ [e]).take g.synced = g.records.take g.synced := take_append_of_le_length hs
  cases sync with
  | true => simp [add, file, hall]
  | false => simp [add, file, hold]

end Segment

def dirOf (gs : List (Segment E)) : WalDir := gs.map (fun g => (g.id, g.file))

def recordsOf (gs : List (Segment E)) : List E := gs.flatMap Segment.records

@[simp] lemma recordsOf_nil : recordsOf ([] : List (Segment E)) = [] := rfl

@[simp] lemma recordsOf_cons (g : Segment E) (gs : List (Segment E)) :
    recordsOf (g :: gs) = g.records ++ recordsOf gs :=
  rfl

@[simp] lemma recordsOf_append (gs hs : List (Segment E)) : recordsOf (gs ++ hs) = recordsOf gs ++ recordsOf hs := by
  simp [recordsOf]

def Ordered (gs : List (Segment E)) : Prop := gs.Pairwise (fun a b => a.id < b.id)

lemma crash_dirOf (gs : List (Segment E)) : (dirOf gs).crash = dirOf (gs.map Segment.crash) := by
  simp only [dirOf, WalDir.crash, map_map]
  refine map_congr_left (fun g _ => ?_)
  simp only [Function.comp_apply, Segment.crash_file]
  rfl

/-! ## The directory of ordered segments -/

lemma WalDir.file_of_mem {d : WalDir} (ho : d.Pairwise (fun a b => a.1 < b.1)) {p : ℕ × SegFile} (hp : p ∈ d) :
    d.file p.1 = p.2 := by
  induction d with
  | nil => simp at hp
  | cons a _ ih =>
    obtain ⟨id, f⟩ := a
    have ha := pairwise_cons.1 ho
    rcases mem_cons.1 hp with rfl | hp
    · simp [WalDir.file]
    · have hne : (p.1 == id) = false := by
        have := ha.1 p hp
        simp; omega
      have hrest := ih ha.2 hp
      simp only [WalDir.file, lookup_cons, hne] at hrest ⊢
      exact hrest

lemma WalDir.discoverSegments_eq {d : WalDir} (ho : d.Pairwise (fun a b => a.1 < b.1)) :
    d.discoverSegments = d.map Prod.fst := by
  apply List.Pairwise.insertionSort_eq
  exact pairwise_map.2 (ho.imp (fun h => h.le))

variable {gs : List (Segment E)} {g : Segment E} {id last : ℕ} {pre : List (Segment E)} {es fs : List E}

lemma Ordered.dir (ho : Ordered gs) : (dirOf gs).Pairwise (fun a b => a.1 < b.1) :=
  pairwise_map.2 ho

lemma file_dirOf (ho : Ordered gs) (hg : g ∈ gs) : (dirOf gs).file g.id = g.file :=
  WalDir.file_of_mem ho.dir (mem_map_of_mem (f := fun g : Segment E => (g.id, g.file)) hg)

lemma file_dirOf_ne (h : ∀ g ∈ gs, g.id ≠ id) : (dirOf gs).file id = {} := by
  induction gs with
  | nil => rfl
  | cons a _ ih =>
    have hne : (id == a.id) = false := by
      have := h a (mem_cons_self ..)
      simp; omega
    have hrest := ih (fun g hg => h g (mem_cons_of_mem _ hg))
    simp only [dirOf, WalDir.file, map_cons, lookup_cons, hne] at hrest ⊢
    exact hrest

lemma ids_lt (ho : Ordered (pre ++ [g])) : ∀ a ∈ pre, a.id < g.id := by
  intro a ha
  exact (pairwise_append.1 ho).2.2 a ha g (by simp)

lemma set_last (ho : Ordered (pre ++ [g])) (f : SegFile) :
    (dirOf (pre ++ [g])).set g.id f = dirOf pre ++ [(g.id, f)] := by
  simp only [dirOf, WalDir.set, map_append, map_map, map_cons, map_nil, if_true]
  congr 1
  refine map_congr_left (fun a ha => ?_)
  have hne : a.id ≠ g.id := (ids_lt ho a ha).ne
  simp [hne]

lemma set_dirOf {g g' : Segment E} (ho : Ordered (pre ++ [g])) (hid : g'.id = g.id) :
    (dirOf (pre ++ [g])).set g.id g'.file = dirOf (pre ++ [g']) := by
  rw [set_last ho, ← hid]
  simp [dirOf]

lemma discoverSegments_dirOf (ho : Ordered gs) : (dirOf gs).discoverSegments = gs.map Segment.id := by
  rw [WalDir.discoverSegments_eq ho.dir]
  simp [dirOf, Function.comp_def]

/-! ## Memory and files -/

structure OnDisk (l : SegmentLog E) (gs : List (Segment E)) : Prop where
  persistent : l.persistent = true
  dir : l.dir = dirOf gs
  ordered : Ordered gs
  synced : ∀ g ∈ gs, g.synced ≤ g.records.length
  entries : l.entries = recordsOf gs
  writer : (gs = [] ∧ l.writer = none ∧ l.lastIndex = 0) ∨
    ∃ pre g, gs = pre ++ [g] ∧ l.currentSegmentId = g.id ∧ l.writer = some ⟨g.file.bytes.length, []⟩

namespace OnDisk

variable {l : SegmentLog E} {gs : List (Segment E)} {pre : List (Segment E)} {g : Segment E}

lemma fresh : OnDisk ({} : SegmentLog E) [] :=
  ⟨rfl, rfl, List.Pairwise.nil, by simp, rfl, Or.inl ⟨rfl, rfl, rfl⟩⟩

lemma flush_eq (h : OnDisk l gs) : l.flush = l := by
  unfold SegmentLog.flush
  rcases h.writer with ⟨-, hw, -⟩ | ⟨pre, g, rfl, hid, hw⟩
  · rw [hw]
  · have hfile : (dirOf (pre ++ [g])).file g.id = g.file := file_dirOf h.ordered (by simp)
    have hset : (dirOf (pre ++ [g])).set g.id g.file = dirOf (pre ++ [g]) := set_dirOf h.ordered rfl
    rw [hw]
    simp only [WalWriter.flush, if_true]
    rw [h.dir, hid, hfile, hset, ← h.dir, ← hid, ← hw]

lemma persist_eq (h : OnDisk l gs) : l.persist = l := by
  unfold SegmentLog.persist
  split_ifs
  · exact h.flush_eq
  · rfl

def opened (l : SegmentLog E) (gs : List (Segment E)) : List (Segment E) :=
  if gs = [] then [⟨l.currentSegmentId, [], 0⟩] else gs

lemma opened_of_ne (hne : gs ≠ []) : opened l gs = gs := if_neg hne

lemma recordsOf_opened : recordsOf (opened l gs) = recordsOf gs := by
  unfold opened
  split_ifs with h
  · simp [h]
  · rfl

lemma opened_concat (l : SegmentLog E) (gs : List (Segment E)) : ∃ pre g, opened l gs = pre ++ [g] := by
  unfold opened
  split_ifs with h
  · exact ⟨[], _, rfl⟩
  · obtain ⟨pre, g, hg⟩ := eq_nil_or_concat gs |>.resolve_left h
    exact ⟨pre, g, by rw [hg, concat_eq_append]⟩

lemma ensureWriter (h : OnDisk l gs) : OnDisk l.ensureWriter (opened l gs) := by
  rcases h.writer with ⟨rfl, hw, h0⟩ | ⟨pre, g, rfl, hid, hw⟩
  · have hdir : l.dir = [] := h.dir
    have hwr : l.ensureWriter = { l with dir := [(l.currentSegmentId, {})], writer := some ⟨0, []⟩ } := by
      unfold SegmentLog.ensureWriter
      rw [hw, hdir]
      rfl
    rw [hwr]
    refine ⟨h.persistent, rfl, pairwise_singleton _ _, ?_, h.entries, Or.inr ⟨[], _, rfl, rfl, rfl⟩⟩
    intro g hg
    rw [opened, if_pos rfl, mem_singleton] at hg
    rw [hg]
    exact le_rfl
  · have hwr : l.ensureWriter = l := by unfold SegmentLog.ensureWriter; rw [hw]
    rw [hwr, opened_of_ne (by simp)]
    exact h

lemma writeRecord (h : OnDisk l (pre ++ [g])) (e : E) (sync : Bool) (loc : EntryLocation) : ∃ w, l.writer = some w ∧
      OnDisk (((l.push e).writeRecord w e sync).addLocation (index e) loc) (pre ++ [g.add e sync]) := by
  rcases h.writer with ⟨hnil, -, -⟩ | ⟨pre', g', heq, hid, hw⟩
  · simp at hnil
  · obtain ⟨rfl, hg⟩ := append_inj' heq rfl
    obtain rfl : g = g' := by simpa using hg
    have hs := h.synced g (by simp)
    have hfile : l.dir.file l.currentSegmentId = g.file := by
      rw [h.dir, hid]; exact file_dirOf h.ordered (by simp)
    have hbuf : record e ≠ [] := ne_nil_of_length_pos (record_pos e)
    have hadd := Segment.add_file g hs e sync
    refine ⟨_, hw, h.persistent, ?_, ?_, ?_, ?_, Or.inr ⟨pre, _, rfl, hid, ?_⟩⟩
    · -- the file gets the record's bytes
      have hout : (if sync then (WalWriter.append ⟨g.file.bytes.length, []⟩ e).flush g.file
          else (WalWriter.append ⟨g.file.bytes.length, []⟩ e).writeNoSync g.file).2 = (g.add e sync).file := by
        rw [hadd]
        cases sync <;> simp [WalWriter.append, WalWriter.flush, WalWriter.writeNoSync, hbuf]
      show l.dir.set l.currentSegmentId _ = _
      rw [show (l.push e).dir.file (l.push e).currentSegmentId = g.file from hfile, hout, h.dir, hid]
      exact set_dirOf h.ordered rfl
    · have ho := pairwise_append.1 h.ordered
      refine pairwise_append.2 ⟨ho.1, pairwise_singleton _ _, fun a ha b hb => ?_⟩
      rw [mem_singleton.1 hb]
      exact ids_lt h.ordered a ha
    · intro a ha
      rcases mem_append.1 ha with ha | ha
      · exact h.synced a (by simp [ha])
      · rw [mem_singleton.1 ha]
        cases sync with
        | true => simp [Segment.add]
        | false => simp only [Segment.add, length_append]; exact hs.trans (Nat.le_add_right _ _)
    · show l.entries ++ [e] = _
      rw [h.entries]
      simp [Segment.add]
    · show some _ = some _
      rw [show (l.push e).dir.file (l.push e).currentSegmentId = g.file from hfile, hadd]
      cases sync <;> simp [WalWriter.append, WalWriter.flush, WalWriter.writeNoSync, hbuf]

lemma roll (h : OnDisk l (pre ++ [g])) :
    OnDisk l.rollSegment (pre ++ [g] ++ [⟨g.id + 1, [], 0⟩]) := by
  rcases h.writer with ⟨hnil, -, -⟩ | ⟨pre', g', heq, hid, hw⟩
  · simp at hnil
  · obtain ⟨rfl, hg⟩ := append_inj' heq rfl
    obtain rfl : g = g' := by simpa using hg
    have hlt : ∀ a ∈ pre ++ [g], a.id < g.id + 1 := by
      intro a ha
      rcases mem_append.1 ha with ha | ha
      · have := ids_lt h.ordered a ha; omega
      · rw [mem_singleton.1 ha]; omega
    have hclose : l.closeWriter = { l with writer := none } := by
      unfold SegmentLog.closeWriter
      have hfile : l.dir.file l.currentSegmentId = g.file := by
        rw [h.dir, hid]; exact file_dirOf h.ordered (by simp)
      rw [hw]
      simp only [WalWriter.flush, if_true, hfile]
      rw [h.dir, hid, set_dirOf h.ordered rfl, ← h.dir, ← hid]
    have hnew : ((dirOf (pre ++ [g])).map Prod.fst).contains (g.id + 1) = false := by
      simp only [dirOf, map_map, contains_eq_mem, decide_eq_false_iff_not, mem_map, not_exists, not_and]
      intro a ha heq
      have := hlt a ha
      simp at heq
      omega
    have hroll : l.rollSegment = { l with
        dir := dirOf (pre ++ [g]) ++ [(g.id + 1, {})], currentSegmentId := g.id + 1, writer := some ⟨0, []⟩ } := by
      unfold SegmentLog.rollSegment SegmentLog.ensureWriter
      rw [hclose]
      rw [h.dir, hid, WalDir.create, if_neg (by rw [hnew]; simp), file_dirOf_ne (fun a ha => (hlt a ha).ne)]
      rfl
    rw [hroll]
    refine ⟨h.persistent, ?_, ?_, ?_, ?_, Or.inr ⟨pre ++ [g], _, rfl, rfl, rfl⟩⟩
    · simp [dirOf, Segment.file]
    · exact pairwise_append.2 ⟨h.ordered, pairwise_singleton _ _, fun a ha b hb => by
        rw [mem_singleton.1 hb]; exact hlt a ha⟩
    · intro a ha
      rcases mem_append.1 ha with ha | ha
      · exact h.synced a ha
      · rw [mem_singleton.1 ha]; exact le_rfl
    · rw [h.entries]; simp

theorem append (h : OnDisk l gs) (e : E) (f : Bool) :
    ∃ pre g tail, opened l gs = pre ++ [g] ∧ (tail = [] ∨ tail = [⟨g.id + 1, [], 0⟩]) ∧
      OnDisk (l.append e f) (pre ++ [g.add (withIndex e (l.lastIndex + 1)) (f && l.fsyncPerAppend)] ++ tail) := by
  obtain ⟨pre, g, hg⟩ := opened_concat l gs
  set e' := withIndex e (l.lastIndex + 1) with he'
  -- the writer is open before the record is written
  have hopen : OnDisk (if l.lastIndex = 0 then l.ensureWriter else l) (pre ++ [g]) := by
    rw [← hg]
    split_ifs with h0
    · exact h.ensureWriter
    · rcases h.writer with ⟨-, -, h0'⟩ | ⟨pre', g', rfl, -, -⟩
      · exact absurd h0' h0
      · rw [opened_of_ne (by simp)]; exact h
  have hfsync : (if l.lastIndex = 0 then l.ensureWriter else l).fsyncPerAppend = l.fsyncPerAppend := by
    split_ifs
    · exact (SegmentLog.ensureWriter_same l).fsync
    · rfl
  set l1 := if l.lastIndex = 0 then l.ensureWriter else l with hl1
  obtain ⟨w, hw, hdisk⟩ :=
    hopen.writeRecord e' (f && l1.fsyncPerAppend) ⟨l1.currentSegmentId, l1.writer.elim 0 WalWriter.nextWriteOffset⟩
  rw [hw] at hdisk
  have happ : l.append e f =
      (if maxSegmentBytes ≤ ((((l1.push e').writeRecord w e' (f && l1.fsyncPerAppend)).addLocation (index e')
          ⟨l1.currentSegmentId, w.nextWriteOffset⟩).writer.map WalWriter.fileSize).getD 0 then
        (((l1.push e').writeRecord w e' (f && l1.fsyncPerAppend)).addLocation (index e')
          ⟨l1.currentSegmentId, w.nextWriteOffset⟩).rollSegment
      else ((l1.push e').writeRecord w e' (f && l1.fsyncPerAppend)).addLocation (index e')
          ⟨l1.currentSegmentId, w.nextWriteOffset⟩) := by
    unfold SegmentLog.append
    dsimp only
    rw [if_neg (by simp [h.persistent]), ← he', ← hl1, hw]
  rw [happ, ← hfsync]
  split_ifs
  · exact ⟨pre, g, _, hg, Or.inr rfl, hdisk.roll⟩
  · exact ⟨pre, g, [], hg, Or.inl rfl, by rw [append_nil]; exact hdisk⟩

end OnDisk

/-! ## Opening a directory -/

structure Loaded (l l' : SegmentLog E) (es : List E) : Prop where
  entries : l'.entries = l.entries ++ es
  last : l'.lastIndex = (es.getLast?.map index).getD l.lastIndex
  persistent : l'.persistent = l.persistent
  fsync : l'.fsyncPerAppend = l.fsyncPerAppend
  dir : l'.dir = l.dir
  base : l'.baseIndex = l.baseIndex
  anchor : l'.anchor = l.anchor
  writer : l'.writer = l.writer
  current : l'.currentSegmentId = l.currentSegmentId

lemma Loaded.refl (l : SegmentLog E) : Loaded l l [] := ⟨by simp, rfl, rfl, rfl, rfl, rfl, rfl, rfl, rfl⟩

lemma Loaded.trans {a b c : SegmentLog E} (h : Loaded a b es) (k : Loaded b c fs) :
    Loaded a c (es ++ fs) := by
  refine ⟨?_, ?_, k.persistent.trans h.persistent, k.fsync.trans h.fsync, k.dir.trans h.dir, k.base.trans h.base,
    k.anchor.trans h.anchor, k.writer.trans h.writer, k.current.trans h.current⟩
  · rw [k.entries, h.entries, append_assoc]
  · rw [k.last, h.last, getLast?_append]
    cases fs.getLast? <;> rfl

def scanPush (id : ℕ) (t : SegmentLog E × ℕ) (e : E) : SegmentLog E × ℕ :=
  ((t.1.push e).addLocation (index e) ⟨id, t.2⟩, t.2 + (record e).length)

lemma scanPush_loaded (id : ℕ) (t : SegmentLog E × ℕ) (e : E) : Loaded t.1 (scanPush id t e).1 [e] :=
  ⟨rfl, rfl, rfl, rfl, rfl, rfl, rfl, rfl, rfl⟩

lemma foldl_scanPush (id : ℕ) (es : List E) (t : SegmentLog E × ℕ) : Loaded t.1 (es.foldl (scanPush id) t).1 es := by
  induction es generalizing t with
  | nil => exact Loaded.refl _
  | cons e _ ih => exact (scanPush_loaded id t e).trans (ih (scanPush id t e))

/-- what the scan can read after the index `last`: entries that fit their records, numbered upwards -/
structure Readable (last : ℕ) (es : List E) : Prop where
  storable : ∀ e ∈ es, Storable e
  above : ∀ e ∈ es, last < index e
  increasing : es.Pairwise (fun a b => index a < index b)

lemma Readable.tail {e : E} (h : Readable last (e :: es)) : Readable (index e) es :=
  ⟨fun x hx => h.storable x (mem_cons_of_mem _ hx), (pairwise_cons.1 h.increasing).1,
    (pairwise_cons.1 h.increasing).2⟩

lemma Readable.left (h : Readable last (es ++ fs)) : Readable last es :=
  ⟨fun e he => h.storable e (by simp [he]), fun e he => h.above e (by simp [he]), (pairwise_append.1 h.increasing).1⟩

lemma Readable.right (h : Readable last (es ++ fs)) :
    Readable ((es.getLast?.map index).getD last) fs := by
  obtain ⟨-, hfs, hcross⟩ := pairwise_append.1 h.increasing
  refine ⟨fun e he => h.storable e (by simp [he]), fun e he => ?_, hfs⟩
  cases hl : es.getLast? with
  | none => exact h.above e (by simp [he])
  | some a => exact hcross a (mem_of_getLast? hl) e he

lemma accepts_records (id : ℕ) {t : SegmentLog E × ℕ} (h : Readable t.1.lastIndex es) :
    Accepts (SegmentLog.scanStep id) (scanPush id) record t es := by
  induction es generalizing t with
  | nil => trivial
  | cons e _ ih =>
    refine ⟨fun rest => ?_, ih h.tail⟩
    have hread := readRecord_record (h.storable e (mem_cons_self ..)) (h.above e (mem_cons_self ..)) rest
    have hlen : (record e ++ rest).length - rest.length = (record e).length := by rw [length_append]; omega
    unfold SegmentLog.scanStep
    rw [hread]
    dsimp only
    rw [hlen]
    rfl

lemma scanSegment_eq {l : SegmentLog E} (hf : (l.dir.file id).bytes = writeAll record es)
    (h : Readable l.lastIndex es) : l.scanSegment id = (es.foldl (scanPush id) (l, 0)).1 := by
  have hlen := length_le_writeAll (α := E) record_pos es
  have hscan := scan_writeAll (fun t => by simp [SegmentLog.scanStep]) (accepts_records (t := (l, 0)) id h)
    (Nat.le_succ_of_le hlen)
  unfold SegmentLog.scanSegment
  dsimp only
  rw [hf, hscan]

lemma scanSegment_loaded {l : SegmentLog E} (hf : (l.dir.file id).bytes = writeAll record es)
    (h : Readable l.lastIndex es) : Loaded l (l.scanSegment id) es := by
  rw [scanSegment_eq hf h]
  exact foldl_scanPush id es (l, 0)

lemma scanSegments_loaded {l : SegmentLog E} (hf : ∀ g ∈ gs, l.dir.file g.id = g.file)
    (h : Readable l.lastIndex (recordsOf gs)) :
    Loaded l ((gs.map Segment.id).foldl SegmentLog.scanSegment l) (recordsOf gs) := by
  induction gs generalizing l with
  | nil => exact Loaded.refl l
  | cons g _ ih =>
    rw [recordsOf_cons] at h ⊢
    have hg := scanSegment_loaded (congrArg SegFile.bytes (hf g (mem_cons_self ..))) h.left
    refine hg.trans (ih (fun a ha => ?_) ?_)
    · rw [hg.dir]; exact hf a (mem_cons_of_mem _ ha)
    · rw [hg.last]; exact h.right

structure Opened (l : SegmentLog E) (gs : List (Segment E)) : Prop where
  disk : OnDisk l gs
  last : l.lastIndex = ((recordsOf gs).getLast?.map index).getD 0
  fsync : l.fsyncPerAppend = true
  anchor : l.anchor = {}

theorem openDir_onDisk (ho : Ordered gs) (hs : ∀ g ∈ gs, g.synced ≤ g.records.length)
    (h : Readable 0 (recordsOf gs)) : Opened (SegmentLog.openDir (dirOf gs)) gs := by
  have hload := scanSegments_loaded (l := { dir := dirOf gs }) (fun g hg => file_dirOf ho hg) h
  obtain ⟨b, hb⟩ := SegmentLog.adjustBase_eq
    ((gs.map Segment.id).foldl SegmentLog.scanSegment ({ dir := dirOf gs } : SegmentLog E))
  unfold SegmentLog.openDir
  rw [discoverSegments_dirOf ho, hb]
  rcases eq_nil_or_concat gs with rfl | ⟨pre, g, rfl⟩
  · exact ⟨⟨hload.persistent, hload.dir, ho, hs, hload.entries, Or.inl ⟨rfl, hload.writer, hload.last⟩⟩, hload.last,
      hload.fsync, hload.anchor⟩
  · rw [concat_eq_append] at *
    have hlast : ((pre ++ [g]).map Segment.id).getLast? = some g.id := by simp
    have hfile : (dirOf (pre ++ [g])).file g.id = g.file := file_dirOf ho (by simp)
    rw [hlast]
    refine ⟨⟨hload.persistent, hload.dir, ho, hs, hload.entries, Or.inr ⟨pre, g, rfl, rfl, ?_⟩⟩, hload.last,
      hload.fsync,
      hload.anchor⟩
    show some (WalWriter.openAppend ((dirOf (pre ++ [g])).file g.id)) = _
    rw [hfile]
    rfl

end MaxRedis.Storage

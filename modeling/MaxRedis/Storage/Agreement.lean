/-
Memory and disk.

A `SegmentLogStorage` is opened on a directory of whole records and then used: entries are appended (segments roll over
on the way), cut off and compacted.
-/
import MaxRedis.Core.Run
import MaxRedis.Storage.Compaction

namespace MaxRedis.Storage

open Bytes WalEntry List

variable {E : Type} [WalEntry E] {gs : List (Segment E)} {l : SegmentLog E}

/-! ## What `Open` notes -/

lemma foldl_scanPush_locations (id : ℕ) {es : List E} (t : SegmentLog E × ℕ) {s : ℕ}
    (hn : ∀ i e, es[i]? = some e → index e = s + i + 1) (j : ℕ) : (es.foldl (scanPush id) t).1.locations j =
      if s < j ∧ j ≤ s + es.length then some ⟨id, t.2 + (writeAll record (es.take (j - s - 1))).length⟩
      else t.1.locations j := by
  induction es generalizing t s with
  | nil => rw [if_neg (by simp only [length_nil]; omega)]; rfl
  | cons e es ih =>
    have he : index e = s + 1 := hn 0 e rfl
    have htail : ∀ i x, es[i]? = some x → index x = s + 1 + i + 1 := by
      intro i x hx
      rw [hn (i + 1) x (by simpa using hx)]
      omega
    have hpush : (scanPush id t e).1.locations j = if j = s + 1 then some ⟨id, t.2⟩ else t.1.locations j := by
      simp only [scanPush, SegmentLog.addLocation, SegmentLog.push, he]
    rw [foldl_cons, ih (scanPush id t e) htail, hpush, length_cons]
    rcases Nat.lt_trichotomy j (s + 1) with hj | rfl | hj
    · rw [if_neg (by omega), if_neg (by omega), if_neg (by omega)]
    · rw [if_neg (by omega)]
      simp
    · obtain ⟨k, rfl⟩ : ∃ k, j = s + 2 + k := ⟨j - (s + 2), by omega⟩
      have htake : (writeAll record ((e :: es).take (s + 2 + k - s - 1))).length =
          (record e).length + (writeAll record (es.take (s + 2 + k - (s + 1) - 1))).length := by
        rw [show s + 2 + k - s - 1 = k + 1 by omega, show s + 2 + k - (s + 1) - 1 = k by omega, take_succ_cons,
          writeAll_cons, length_append]
      by_cases hle : s + 2 + k ≤ s + 1 + es.length
      · rw [if_pos (by omega), if_pos (by omega), htake]
        simp only [scanPush, Nat.add_assoc]
      · rw [if_neg (by omega), if_neg (by omega), if_neg (by omega)]

lemma scanSegments_locations (hf : ∀ g ∈ gs, l.dir.file g.id = g.file) (h : Readable l.lastIndex (recordsOf gs)) {s : ℕ}
    (hn : ∀ i e, (recordsOf gs)[i]? = some e → index e = s + i + 1) (j : ℕ) :
    ((gs.map Segment.id).foldl SegmentLog.scanSegment l).locations j =
      if s < j ∧ j ≤ s + (recordsOf gs).length then locate gs (j - s - 1) else l.locations j := by
  induction gs generalizing l s with
  | nil => rw [if_neg (by simp only [recordsOf_nil, length_nil]; omega)]; rfl
  | cons g gs ih =>
    rw [recordsOf_cons] at h hn
    have hfile := congrArg SegFile.bytes (hf g mem_cons_self)
    have hg := scanSegment_loaded hfile h.left
    have hhead : ∀ i e, g.records[i]? = some e → index e = s + i + 1 := by
      intro i e he
      have hi := (List.getElem?_eq_some_iff.1 he).1
      exact hn i e (by rw [getElem?_append_left hi]; exact he)
    have htail : ∀ i e, (recordsOf gs)[i]? = some e → index e = s + g.records.length + i + 1 := by
      intro i e he
      rw [hn (g.records.length + i) e (by rw [getElem?_append_right (by omega)]; simpa using he)]
      omega
    have hseg := foldl_scanPush_locations g.id (l, 0) hhead j
    rw [← scanSegment_eq hfile h.left] at hseg
    rw [map_cons, foldl_cons, ih (fun a ha => by rw [hg.dir]; exact hf a (mem_cons_of_mem _ ha))
      (by rw [hg.last]; exact h.right) htail, hseg, recordsOf_cons, length_append, locate_cons]
    by_cases h1 : s < j ∧ j ≤ s + g.records.length
    · rw [if_neg (by omega), if_pos h1, if_pos (by omega), if_pos (by omega), Nat.zero_add]
    · by_cases h2 : s + g.records.length < j ∧ j ≤ s + g.records.length + (recordsOf gs).length
      · rw [if_pos h2, if_pos (by omega), if_neg (by omega)]
        congr 1; omega
      · rw [if_neg h2, if_neg h1, if_neg (by omega)]

/-- segments of whole records, numbered one after another from `d + 1` on -/
structure WholeDir (gs : List (Segment E)) (d : ℕ) : Prop where
  ordered : Ordered gs
  synced : ∀ g ∈ gs, g.synced ≤ g.records.length
  storable : ∀ e ∈ recordsOf gs, Storable e
  numbered : ∀ i e, (recordsOf gs)[i]? = some e → index e = d + i + 1

namespace WholeDir

variable {gs : List (Segment E)} {d : ℕ}

lemma readable (h : WholeDir gs d) : Readable 0 (recordsOf gs) := by
  have hidx : ∀ i (hi : i < (recordsOf gs).length), index (recordsOf gs)[i] = d + i + 1 :=
    fun i hi => h.numbered i _ (getElem?_eq_getElem hi)
  refine ⟨h.storable, fun e he => ?_, pairwise_iff_getElem.2 (fun i j hi hj hij => ?_)⟩
  · obtain ⟨i, hi, rfl⟩ := getElem_of_mem he
    rw [hidx i hi]; omega
  · rw [hidx i hi, hidx j hj]; omega

lemma openDir_locations (h : WholeDir gs d) (j : ℕ) : (SegmentLog.openDir (dirOf gs) : SegmentLog E).locations j =
      if d < j ∧ j ≤ d + (recordsOf gs).length then locate gs (j - d - 1) else none := by
  have hscan := scanSegments_locations (l := ({ dir := dirOf gs } : SegmentLog E))
    (fun g hg => file_dirOf h.ordered hg) h.readable h.numbered j
  obtain ⟨b, hb⟩ := SegmentLog.adjustBase_eq
    ((gs.map Segment.id).foldl SegmentLog.scanSegment ({ dir := dirOf gs } : SegmentLog E))
  unfold SegmentLog.openDir
  rw [discoverSegments_dirOf h.ordered, hb]
  split <;> exact hscan

lemma opened (h : WholeDir gs d) (hne : recordsOf gs ≠ []) :
    (SegmentLog.openDir (dirOf gs) : SegmentLog E).baseIndex = d ∧
      (SegmentLog.openDir (dirOf gs) : SegmentLog E).lastIndex = d + (recordsOf gs).length := by
  have hopen := openDir_onDisk h.ordered h.synced h.readable
  have hpos : 0 < (recordsOf gs).length := length_pos_iff.2 hne
  have hhead : (recordsOf gs).head? = some (recordsOf gs)[0] := by
    rw [head?_eq_getElem?, getElem?_eq_getElem hpos]
  have hend : (recordsOf gs)[(recordsOf gs).length - 1]? = some (recordsOf gs)[(recordsOf gs).length - 1] :=
    getElem?_eq_getElem (by omega)
  constructor
  · rw [openDir_base h.ordered h.readable, hhead, Option.map_some, Option.getD_some,
      h.numbered 0 _ (getElem?_eq_getElem hpos)]
    rfl
  · rw [hopen.last, getLast?_eq_getElem?, hend, Option.map_some, Option.getD_some, h.numbered _ _ hend]
    omega

end WholeDir

/-! ## The invariant -/

/-- `Kept` with what `Open` needs of the files: they hold the last record, and every record can be read. The index knows
nothing beyond the last entry. -/
structure Tracked (l : SegmentLog E) (gs : List (Segment E)) (d : ℕ) (w : List E) : Prop where
  kept : Kept l gs d w
  files : d < w.length ∨ w = []
  beyond : ∀ j, w.length < j → l.locations j = none
  storable : ∀ e ∈ w.drop d, Storable e

def openOn (gs : List (Segment E)) (fsync : Bool) : SegmentLog E :=
  { SegmentLog.openDir (dirOf gs) with fsyncPerAppend := fsync }

def lost (d : ℕ) : List E := (List.range d).map (fun i => withIndex blank (i + 1))

@[simp] lemma length_lost (d : ℕ) : (lost d : List E).length = d := by simp [lost]

lemma WholeDir.numbered_lost {d : ℕ} (h : WholeDir gs d) :
    ∀ i x, (lost d ++ recordsOf gs)[i]? = some x → index x = i + 1 := by
  intro i x hx
  rcases Nat.lt_or_ge i d with hi | hi
  · rw [getElem?_append_left (by simpa using hi), lost, getElem?_map, getElem?_range hi] at hx
    rw [← Option.some.inj hx, index_withIndex]
  · rw [getElem?_append_right (by simpa using hi), length_lost] at hx
    rw [h.numbered _ x hx]
    omega

theorem Tracked.ofOpen {d : ℕ} (h : WholeDir gs d) (fsync : Bool) :
    ∃ d' w, Tracked (openOn gs fsync) gs d' w := by
  have hopen := openDir_onDisk h.ordered h.synced h.readable
  have hloc := h.openDir_locations
  have hdisk : OnDisk ({ SegmentLog.openDir (dirOf gs) with
      fsyncPerAppend := fsync, entries := recordsOf gs } : SegmentLog E) gs :=
    ⟨hopen.disk.persistent, hopen.disk.dir, h.ordered, h.synced, rfl, hopen.disk.writer⟩
  by_cases hr : recordsOf gs = []
  · rw [hr] at hloc hdisk
    have hlast := hopen.last
    have hentries := hopen.disk.entries
    have hbase := openDir_base h.ordered h.readable
    rw [hr] at hlast hentries hbase
    have hnone : ∀ j, (SegmentLog.openDir (dirOf gs) : SegmentLog E).locations j = none := by
      intro j
      rw [hloc, if_neg (by simp only [length_nil]; omega)]
    have hempty : (openOn gs fsync).entries = [].drop (openOn gs fsync).baseIndex := by
      rw [drop_nil]; exact hentries
    exact ⟨0, [], ⟨by rw [hr]; exact hdisk, hr, Nat.zero_le _, hbase.le, hempty, hlast, by simp, by simp,
      fun j _ => hnone j⟩, Or.inr rfl, fun j _ => hnone j, by simp⟩
  · obtain ⟨hb, hlast⟩ := h.opened hr
    have hdrop : (lost d ++ recordsOf gs).drop d = recordsOf gs := drop_left' (length_lost d)
    have hlen : (lost d ++ recordsOf gs).length = d + (recordsOf gs).length := by simp
    have hpos : 0 < (recordsOf gs).length := length_pos_iff.2 hr
    refine ⟨d, lost d ++ recordsOf gs, ⟨hdisk, hdrop.symm, hb.ge, ?_, ?_, ?_, h.numbered_lost, ?_, ?_⟩,
      Or.inl (by omega), ?_, by rw [hdrop]; exact h.storable⟩
    · show (SegmentLog.openDir (dirOf gs) : SegmentLog E).baseIndex ≤ _
      rw [hlen]; omega
    · show (SegmentLog.openDir (dirOf gs) : SegmentLog E).entries = _
      rw [hopen.disk.entries, show (openOn gs fsync).baseIndex = d from hb, hdrop]
    · rw [hlen]; exact hlast
    · intro i hi hlt
      have hi' : d ≤ i := by rw [← hb]; exact hi
      show (SegmentLog.openDir (dirOf gs) : SegmentLog E).locations (i + 1) = _
      rw [hloc, if_pos (by omega)]
      congr 1; omega
    · intro j hj
      have hj' : j ≤ d := by rw [← hb]; exact hj
      show (SegmentLog.openDir (dirOf gs) : SegmentLog E).locations j = none
      rw [hloc, if_neg (by omega)]
    · intro j hj
      show (SegmentLog.openDir (dirOf gs) : SegmentLog E).locations j = none
      rw [hloc, if_neg (by omega)]

/-! ## What the operations do to the index -/

namespace SegmentLog

lemma truncateFrom_locations (l : SegmentLog E) {n : ℕ} (hn : l.baseIndex < n) :
    (l.truncateFrom n).locations = fun i => if i ≤ n then l.locations i else none := by
  have hfiles : ∀ (x : SegmentLog E) (loc : EntryLocation) (keep : E),
      (x.truncateFiles loc keep).locations = x.locations := by
    intro x loc keep
    have hclose : (x.cutFiles loc keep).closeWriter.locations = x.locations := by
      unfold closeWriter
      split <;> rfl
    unfold truncateFiles ensureWriter
    split <;> exact hclose
  unfold truncateFrom
  rw [if_neg (by omega)]
  dsimp only
  split
  · exact hfiles _ _ _
  · rfl

lemma compactLogs_locations (l : SegmentLog E) (i t j : ℕ) (h : l.locations j = none) :
    (l.compactLogs i t).locations j = none := by
  have hseg : ((l.setSnapshotAnchor i t).compactSegments i).locations j = none := by
    unfold compactSegments
    split_ifs
    · exact h
    · split <;> exact h
  unfold compactLogs compactUpTo
  split_ifs
  · exact hseg
  · rfl
  · show (if i < j then _ else none) = none
    split_ifs
    · exact hseg
    · rfl

lemma get_of {l : SegmentLog E} {w : List E} (he : l.entries = w.drop l.baseIndex) (hl : l.lastIndex = w.length)
    (hn : ∀ i e, w[i]? = some e → index e = i + 1) {i : ℕ} (hi : l.baseIndex < i) : l.get i = w[i - 1]? := by
  unfold get
  rcases Nat.lt_or_ge w.length i with hgt | hle
  · rw [if_pos (Or.inr (by omega)), getElem?_eq_none (by omega)]
  · have hat : l.entries[i - l.baseIndex - 1]? = some w[i - 1] := by
      rw [he, getElem?_drop, show l.baseIndex + (i - l.baseIndex - 1) = i - 1 by omega,
        getElem?_eq_getElem (by omega)]
    have hidx := hn (i - 1) _ (getElem?_eq_getElem (by omega))
    rw [if_neg (by omega), if_neg (by omega), hat, getElem?_eq_getElem (by omega)]
    dsimp only
    rw [if_pos (by omega)]

end SegmentLog

/-! ## Runs -/

/-- a use of the log; a segment that is full rolls over within `append` -/
inductive DiskOp (E : Type) where
  | append (e : E) (flush : Bool)
  | truncateFrom (newLast : ℕ)
  | compactLogs (index term : ℕ)

namespace DiskOp

def on (l : SegmentLog E) : DiskOp E → SegmentLog E
  | .append e flush => l.append e flush
  | .truncateFrom n => l.truncateFrom n
  | .compactLogs b t => l.compactLogs b t

/-- an entry fits its record; a cut leaves an entry above the compaction point and does not reach past the end; no
compaction does -/
def allowed (l : SegmentLog E) : DiskOp E → Bool
  | .append e _ => Storable (withIndex e (l.lastIndex + 1))
  | .truncateFrom n => l.baseIndex < n ∧ n ≤ l.lastIndex
  | .compactLogs b _ => b ≤ l.lastIndex

end DiskOp

namespace Tracked

variable {l : SegmentLog E} {gs : List (Segment E)} {d : ℕ} {w : List E}

section
variable (h : Tracked l gs d w)
include h

lemma append (e : E) (f : Bool) (hs : Storable (withIndex e (l.lastIndex + 1))) :
    ∃ gs', Tracked (l.append e f) gs' d (w ++ [withIndex e (w.length + 1)]) := by
  obtain ⟨gs', hk, -⟩ := h.kept.append e f
  have hp : l.persistent = true := h.kept.disk.persistent
  obtain ⟨wr, hwr⟩ := Option.isSome_iff_exists.1 (l.writer_before_append (h.kept.canAppend hp))
  have hlast := h.kept.last
  have hd : d ≤ w.length := h.kept.dropped.trans h.kept.base
  refine ⟨gs', hk, Or.inl ?_, fun j hj => ?_, fun x hx => ?_⟩
  · rw [length_append, length_singleton]; omega
  · rw [length_append, length_singleton] at hj
    rw [SegmentLog.append_locations l e f hp hwr]
    dsimp only
    rw [if_neg (by omega)]
    exact h.beyond j (by omega)
  · rw [drop_append_of_le_length hd] at hx
    rcases mem_append.1 hx with hx | hx
    · exact h.storable x hx
    · rw [mem_singleton.1 hx, ← hlast]; exact hs

lemma truncate {n : ℕ} (hn : l.baseIndex < n) (hw : n ≤ l.lastIndex) :
    ∃ gs', Tracked (l.truncateFrom n) gs' d (w.take n) := by
  rw [h.kept.last] at hw
  obtain ⟨gs', hk, -⟩ := h.kept.truncate hn hw
  have hd := h.kept.dropped
  refine ⟨gs', hk, Or.inl ?_, fun j hj => ?_, fun x hx => ?_⟩
  · rw [length_take]; omega
  · rw [length_take] at hj
    rw [SegmentLog.truncateFrom_locations l hn]
    exact if_neg (by omega)
  · rw [drop_take] at hx
    exact h.storable x (mem_of_mem_take hx)

lemma compact {b : ℕ} (t : ℕ) (hb : b ≤ l.lastIndex) : ∃ gs' d', Tracked (l.compactLogs b t) gs' d' w := by
  have hbeyond : ∀ j, w.length < j → (l.compactLogs b t).locations j = none :=
    fun j hj => l.compactLogs_locations b t j (h.beyond j hj)
  rw [h.kept.last] at hb
  rcases Nat.le_total b l.baseIndex with hle | hge
  · exact ⟨gs, d, (h.kept.compact_below t hle).1, h.files, hbeyond, h.storable⟩
  · obtain ⟨gs', d', hk, -, hdd, hd⟩ := h.kept.compact t hge hb
    have hstore : ∀ e ∈ w.drop d', Storable e := by
      intro e he
      rw [← Nat.add_sub_cancel' hdd, ← drop_drop] at he
      exact h.storable e (mem_of_mem_drop he)
    refine ⟨gs', d', hk, ?_, hbeyond, hstore⟩
    rcases hd with rfl | hd
    · exact h.files
    · -- segments have gone, but not the one with the record `b`
      exact Or.inl (by omega)

lemma reopened : (SegmentLog.openDir l.dir : SegmentLog E).lastIndex = l.lastIndex ∧
      ∀ i, l.baseIndex < i → (SegmentLog.openDir l.dir : SegmentLog E).get i = l.get i := by
  have hopen := h.kept.opened h.storable
  have hlast := h.kept.last
  have hlast' : (SegmentLog.openDir l.dir : SegmentLog E).lastIndex = w.length := by
    rw [hopen.last]
    rcases h.files with hlt | rfl
    · rw [if_neg (by omega)]
    · simp
  refine ⟨hlast'.trans hlast.symm, fun i hi => ?_⟩
  rw [SegmentLog.get_of h.kept.entries hlast h.kept.numbered hi]
  rcases h.files with hlt | rfl
  · have hb := hopen.base hlt
    have hd := h.kept.dropped
    exact SegmentLog.get_of (by rw [hb]; exact hopen.entries) hlast' h.kept.numbered (by omega)
  · unfold SegmentLog.get
    rw [if_pos (Or.inr (by rw [hlast']; simp only [length_nil]; omega))]
    rfl

lemma located {i : ℕ} {loc : EntryLocation} (hi : l.locations i = some loc) :
    ∃ e, l.get i = some e ∧ record e <+: (l.dir.file loc.segmentId).bytes.drop loc.offset := by
  have hb : l.baseIndex < i := by
    by_contra hle
    rw [h.kept.unlocated i (by omega)] at hi
    cases hi
  have hw : i ≤ w.length := by
    by_contra hgt
    rw [h.beyond i (by omega)] at hi
    cases hi
  obtain ⟨pre, g, post, k, e, hgs, hk, -, hloc, hat⟩ := h.kept.record_at hb hw
  obtain rfl : loc = _ := Option.some.inj (hi.symm.trans hloc)
  have hdir : l.dir = dirOf gs := h.kept.disk.dir
  have hfile : l.dir.file g.id = g.file := by
    rw [hdir]; exact file_dirOf h.kept.disk.ordered (by rw [hgs]; simp)
  refine ⟨e, ?_, ?_⟩
  · rw [SegmentLog.get_of h.kept.entries h.kept.last h.kept.numbered hb, ← hat, h.kept.entries, getElem?_drop]
    congr 1; omega
  · have hsplit : writeAll record g.records =
        writeAll record (g.records.take k) ++ writeAll record (g.records.drop k) := by
      rw [← writeAll_append, take_append_drop]
    obtain ⟨hlt, rfl⟩ := List.getElem?_eq_some_iff.1 hk
    rw [hfile, Segment.file, hsplit, drop_left, drop_eq_getElem_cons hlt]
    exact prefix_append _ _

end

end Tracked

def Consistent (l : SegmentLog E) : Prop := ∃ gs d w, Tracked l gs d w

lemma step_consistent (h : Consistent l) {op : DiskOp E} (hop : op.allowed l) :
    Consistent (op.on l) := by
  obtain ⟨gs, d, w, h⟩ := h
  cases op with
  | append e f =>
    obtain ⟨gs', h'⟩ := h.append e f (of_decide_eq_true hop)
    exact ⟨gs', d, _, h'⟩
  | truncateFrom =>
    obtain ⟨hn, hw⟩ := of_decide_eq_true hop
    obtain ⟨gs', h'⟩ := h.truncate hn hw
    exact ⟨gs', d, _, h'⟩
  | compactLogs _ t =>
    obtain ⟨gs', d', h'⟩ := h.compact t (of_decide_eq_true hop)
    exact ⟨gs', d', w, h'⟩

def used (gs : List (Segment E)) (fsync : Bool) (ops : List (DiskOp E)) : SegmentLog E :=
  Run.run DiskOp.on (openOn gs fsync) ops

def usable (gs : List (Segment E)) (fsync : Bool) (ops : List (DiskOp E)) : Bool :=
  Run.along DiskOp.on DiskOp.allowed (openOn gs fsync) ops

lemma used_consistent {d : ℕ} (hg : WholeDir gs d) {fsync : Bool} {ops : List (DiskOp E)}
    (h : usable gs fsync ops) : Consistent (used gs fsync ops) := by
  obtain ⟨d', w, hopen⟩ := Tracked.ofOpen hg fsync
  have hstep : ∀ (l : SegmentLog E) (op : DiskOp E), Consistent l → op.allowed l → Consistent (op.on l) :=
    fun l op hl hop => step_consistent hl hop
  exact Run.along_run DiskOp.on hstep ⟨gs, d', w, hopen⟩ h

/-- **Memory and disk agree.** -/
theorem memory_disk_agree {gs : List (Segment E)} {d : ℕ} (hg : WholeDir gs d) (fsync : Bool) (ops : List (DiskOp E))
    (h : usable gs fsync ops) :
    let l := used gs fsync ops
    (SegmentLog.openDir l.dir : SegmentLog E).lastIndex = l.lastIndex ∧
    (∀ i, l.baseIndex < i → (SegmentLog.openDir l.dir : SegmentLog E).get i = l.get i) ∧
    ∀ i loc, l.locations i = some loc →
      ∃ e, l.get i = some e ∧ record e <+: (l.dir.file loc.segmentId).bytes.drop loc.offset := by
  intro l
  obtain ⟨gs', d', w, ht⟩ := used_consistent hg h
  exact ⟨ht.reopened.1, ht.reopened.2, fun i loc hi => ht.located hi⟩

/-- three entries in an empty directory, the first compacted away, the third cut off and written anew -/
theorem memory_disk_agree_rewritten :
    let l := used ([] : List (Segment RawEntry)) true [.append ⟨1, 0, [65]⟩ true, .append ⟨1, 0, [66]⟩ false,
      .append ⟨1, 0, [67]⟩ true, .compactLogs 1 1, .truncateFrom 2, .append ⟨2, 0, [68]⟩ true]
    (SegmentLog.openDir l.dir : SegmentLog RawEntry).lastIndex = 3 := by
  refine (memory_disk_agree (d := 0) ⟨List.Pairwise.nil, by simp, by simp, by simp⟩ true _ ?_).1.trans ?_
  · decide +kernel
  · decide +kernel

/-- **A cut past the end leaves memory ahead of the files.** -/
theorem truncate_past_end :
    let l := used ([] : List (Segment RawEntry)) true [.append ⟨1, 0, [65]⟩ true, .truncateFrom 2]
    l.lastIndex = 2 ∧ (SegmentLog.openDir l.dir : SegmentLog RawEntry).lastIndex = 1 := by
  decide +kernel

end MaxRedis.Storage

/-
The segment files of a log that has been compacted and cut.

`Kept l gs d w`: of all entries `w` that were appended and not cut off again, the segments `gs` hold those after the
first `d` and the log `l` has those after its base in memory.
-/
import MaxRedis.Storage.WalDisk

namespace MaxRedis.Storage

open Bytes WalEntry List

variable {E : Type} [WalEntry E] {g : Segment E} {gs pre post : List (Segment E)} {j k : ℕ}

/-! ## Where a record lies -/

def locate : List (Segment E) → ℕ → Option EntryLocation
  | [], _ => none
  | g :: gs, j =>
    if j < g.records.length then some ⟨g.id, (writeAll record (g.records.take j)).length⟩
    else locate gs (j - g.records.length)

lemma locate_cons (g : Segment E) (gs : List (Segment E)) (j : ℕ) :
    locate (g :: gs) j =
      if j < g.records.length then some ⟨g.id, (writeAll record (g.records.take j)).length⟩
      else locate gs (j - g.records.length) := rfl

lemma locate_append (gs hs : List (Segment E)) (j : ℕ) : locate (gs ++ hs) j =
      if j < (recordsOf gs).length then locate gs j else locate hs (j - (recordsOf gs).length) := by
  induction gs generalizing j with
  | nil => simp
  | cons g gs ih =>
    rw [cons_append, locate_cons, locate_cons, recordsOf_cons, length_append]
    by_cases hj : j < g.records.length
    · rw [if_pos hj, if_pos hj, if_pos (by omega)]
    · rw [if_neg hj, if_neg hj, ih]
      by_cases hk : j - g.records.length < (recordsOf gs).length
      · rw [if_pos hk, if_pos (by omega)]
      · rw [if_neg hk, if_neg (by omega), Nat.sub_sub]

lemma locate_split (hj : j < (recordsOf gs).length) :
    ∃ pre g post k, gs = pre ++ g :: post ∧ k < g.records.length ∧ j = (recordsOf pre).length + k ∧
      locate gs j = some ⟨g.id, (writeAll record (g.records.take k)).length⟩ := by
  induction gs generalizing j with
  | nil => simp at hj
  | cons a gs ih =>
    by_cases ha : j < a.records.length
    · exact ⟨[], a, gs, j, rfl, ha, by simp, by rw [locate_cons, if_pos ha]⟩
    · rw [recordsOf_cons, length_append] at hj
      obtain ⟨pre, g, post, k, rfl, hk, hjk, hloc⟩ := ih (j := j - a.records.length) (by omega)
      refine ⟨a :: pre, g, post, k, rfl, hk, ?_, by rw [locate_cons, if_neg ha, hloc]⟩
      rw [recordsOf_cons, length_append]
      omega

lemma locate_add (e : E) (sync : Bool) (tail : List (Segment E))
    (hj : j < (recordsOf (pre ++ [g])).length) : locate (pre ++ [g.add e sync] ++ tail) j = locate (pre ++ [g]) j := by
  rw [append_assoc, locate_append pre, locate_append pre [g]]
  rw [recordsOf_append, length_append] at hj
  by_cases hpre : j < (recordsOf pre).length
  · rw [if_pos hpre, if_pos hpre]
  · have hg : j - (recordsOf pre).length < g.records.length := by
      simp only [recordsOf_cons, recordsOf_nil, append_nil] at hj
      omega
    have hadd : j - (recordsOf pre).length < (g.add e sync).records.length := by
      simp only [Segment.add, length_append]
      omega
    rw [if_neg hpre, if_neg hpre, singleton_append, locate_cons, locate_cons, if_pos hadd, if_pos hg]
    simp only [Segment.add, take_append_of_le_length hg.le]

lemma locate_added (pre : List (Segment E)) (g : Segment E) (e : E) (sync : Bool) (tail : List (Segment E)) :
    locate (pre ++ [g.add e sync] ++ tail) (recordsOf (pre ++ [g])).length =
      some ⟨g.id, (writeAll record g.records).length⟩ := by
  have hadd : g.records.length < (g.add e sync).records.length := by simp [Segment.add]
  have hlen : (recordsOf (pre ++ [g])).length = (recordsOf pre).length + g.records.length := by simp
  rw [hlen, append_assoc, locate_append, if_neg (by omega), Nat.add_sub_cancel_left, singleton_append,
    locate_cons, if_pos hadd]
  simp [Segment.add]

def Segment.cut (g : Segment E) (k : ℕ) : Segment E := { g with records := g.records.take k, synced := min g.synced k }

lemma locate_cut (post : List (Segment E)) (hk : k < g.records.length) (hj : j ≤ (recordsOf pre).length + k) :
    locate (pre ++ [g.cut (k + 1)]) j = locate (pre ++ g :: post) j := by
  rw [locate_append pre, locate_append pre]
  by_cases hpre : j < (recordsOf pre).length
  · rw [if_pos hpre, if_pos hpre]
  · have hcut : j - (recordsOf pre).length < (g.cut (k + 1)).records.length := by
      simp only [Segment.cut, length_take]
      omega
    rw [if_neg hpre, if_neg hpre, locate_cons, locate_cons, if_pos hcut, if_pos (by omega)]
    simp only [Segment.cut, take_take]
    rw [min_eq_left (by omega)]

lemma Segment.cut_file (g : Segment E) {e : E} (he : g.records[k]? = some e) :
    g.file.truncate ((writeAll record (g.records.take k)).length + headerSize + (command e).length) =
    (g.cut (k + 1)).file := by
  have hk : g.records.take (k + 1) = g.records.take k ++ [e] := by rw [take_add_one, he]; rfl
  have hsize : (writeAll record (g.records.take k)).length + headerSize + (command e).length =
      (writeAll record (g.records.take (k + 1))).length := by
    rw [hk]
    simp [Nat.add_assoc]
  have hbytes : (writeAll record g.records).take (writeAll record (g.records.take (k + 1))).length =
      writeAll record (g.records.take (k + 1)) := by
    conv_lhs => rw [← take_append_drop (k + 1) g.records, writeAll_append, take_append_drop]
    exact take_left' rfl
  -- the synced part is cut at the same record
  have hmono : ∀ a b : ℕ, a ≤ b →
      (writeAll record (g.records.take a)).length ≤ (writeAll record (g.records.take b)).length := by
    intro a b hab
    obtain ⟨t, ht⟩ : g.records.take a <+: g.records.take b := take_prefix_take_left hab
    rw [← ht, writeAll_append, length_append]
    omega
  have hsync : min (writeAll record (g.records.take g.synced)).length
    (writeAll record (g.records.take (k + 1))).length =
      (writeAll record (g.records.take (min g.synced (k + 1)))).length := by
    rcases Nat.le_total g.synced (k + 1) with h | h
    · rw [min_eq_left h, min_eq_left (hmono _ _ h)]
    · rw [min_eq_right h, min_eq_right (hmono _ _ h)]
  rw [hsize]
  simp only [SegFile.truncate, file, cut, hbytes, hsync, take_take, Nat.min_assoc, Nat.min_self]

/-! ## The directory -/

namespace WalDir

lemma set_file_self {d : WalDir} (ho : d.Pairwise (fun a b => a.1 < b.1)) (id : ℕ) : d.set id (d.file id) = d := by
  conv_rhs => rw [← map_id d]
  refine map_congr_left (fun p hp => ?_)
  split_ifs with h
  · rw [← h, file_of_mem ho hp]; rfl
  · rfl

lemma create_of_mem {d : WalDir} {p : ℕ × SegFile} (hp : p ∈ d) : d.create p.1 = d := by
  unfold WalDir.create
  rw [if_pos (by simpa using ⟨p.2, hp⟩)]

end WalDir

lemma cut_dirOf {g g' : Segment E} (ho : Ordered (pre ++ g :: post)) (hid : g'.id = g.id) :
    ((dirOf (pre ++ g :: post)).set g.id g'.file).unlink (fun id => g.id < id) = dirOf (pre ++ [g']) := by
  obtain ⟨-, hgp, hcross⟩ := pairwise_append.1 ho
  have hpre : ∀ a ∈ pre, a.id < g.id := fun a ha => hcross a ha g mem_cons_self
  have hpost : ∀ a ∈ post, g.id < a.id := (pairwise_cons.1 hgp).1
  have h1 : (dirOf pre).set g.id g'.file = dirOf pre := by
    simp only [dirOf, WalDir.set, map_map]
    refine map_congr_left (fun a ha => ?_)
    simp [(hpre a ha).ne]
  have h2 : (dirOf pre).unlink (fun id => g.id < id) = dirOf pre := by
    refine filter_eq_self.2 (fun p hp => ?_)
    obtain ⟨a, ha, rfl⟩ := mem_map.1 hp
    have := hpre a ha
    simp; omega
  have h3 : ((dirOf post).set g.id g'.file).unlink (fun id => g.id < id) = [] := by
    refine filter_eq_nil_iff.2 (fun p hp => ?_)
    obtain ⟨q, hq, rfl⟩ := mem_map.1 hp
    obtain ⟨a, ha, rfl⟩ := mem_map.1 hq
    have := hpost a ha
    simp [this.ne', this]
  have hsplit : dirOf (pre ++ g :: post) = dirOf pre ++ (g.id, g.file) :: dirOf post := by simp [dirOf]
  have hset : (dirOf pre ++ (g.id, g.file) :: dirOf post).set g.id g'.file =
      (dirOf pre).set g.id g'.file ++ (g.id, g'.file) :: (dirOf post).set g.id g'.file := by simp [WalDir.set]
  have hunlink : ∀ (a b : WalDir) (p : ℕ → Bool), (a ++ b).unlink p = a.unlink p ++ b.unlink p := by
    intro a b p; simp [WalDir.unlink]
  rw [hsplit, hset, hunlink, h1, h2]
  have hcons : WalDir.unlink ((g.id, g'.file) :: (dirOf post).set g.id g'.file) (fun id => g.id < id) =
      (g.id, g'.file) :: ((dirOf post).set g.id g'.file).unlink (fun id => g.id < id) := by
    simp [WalDir.unlink]
  rw [hcons, h3]
  simp [dirOf, hid]

lemma unlink_dirOf (ho : Ordered (pre ++ g :: post)) :
    (dirOf (pre ++ g :: post)).unlink (fun id => id < g.id) = dirOf (g :: post) := by
  obtain ⟨-, hgp, hcross⟩ := pairwise_append.1 ho
  have h1 : (dirOf pre).unlink (fun id => id < g.id) = [] := by
    refine filter_eq_nil_iff.2 (fun p hp => ?_)
    obtain ⟨a, ha, rfl⟩ := mem_map.1 hp
    have := hcross a ha g mem_cons_self
    simp [this]
  have h2 : (dirOf (g :: post)).unlink (fun id => id < g.id) = dirOf (g :: post) := by
    refine filter_eq_self.2 (fun p hp => ?_)
    obtain ⟨a, ha, rfl⟩ := mem_map.1 hp
    rcases mem_cons.1 ha with rfl | ha
    · simp
    · have := (pairwise_cons.1 hgp).1 a ha
      simp; omega
  have hsplit : dirOf (pre ++ g :: post) = dirOf pre ++ dirOf (g :: post) := by simp [dirOf]
  have happ : (dirOf pre ++ dirOf (g :: post)).unlink (fun id => id < g.id) =
      (dirOf pre).unlink (fun id => id < g.id) ++ (dirOf (g :: post)).unlink (fun id => id < g.id) := by
    simp [WalDir.unlink]
  rw [hsplit, happ, h1, h2, nil_append]

/-! ## Appending, whatever is in memory -/

namespace SegmentLog

lemma append_withEntries (l : SegmentLog E) (xs : List E) (e : E) (f : Bool)
    (hw : l.persistent = true → l.lastIndex = 0 ∨ l.writer.isSome) :
    ({ l with entries := xs } : SegmentLog E).append e f =
      { l.append e f with entries := xs ++ [withIndex e (l.lastIndex + 1)] } := by
  have hroll : ∀ (x : SegmentLog E) (ys : List E),
      (if maxSegmentBytes ≤ (x.writer.map WalWriter.fileSize).getD 0
        then ({ x with entries := ys } : SegmentLog E).rollSegment
        else { x with entries := ys }) =
      { (if maxSegmentBytes ≤ (x.writer.map WalWriter.fileSize).getD 0 then x.rollSegment else x) with
        entries := ys } := by
    intro x ys
    split_ifs
    · obtain ⟨_, _, _, writer, _, _, _, _, _, _, _⟩ := x
      cases writer <;> rfl
    · rfl
  unfold append
  by_cases hp : l.persistent = true
  · have hn : ¬ (!l.persistent) = true := by simp [hp]
    rw [if_neg hn, if_neg hn]
    have hopen : (if l.lastIndex =
      0 then ({ l with entries := xs } : SegmentLog E).ensureWriter else { l with entries := xs }) =
        { (if l.lastIndex = 0 then l.ensureWriter else l) with entries := xs } := by
      split_ifs
      · obtain ⟨_, _, _, writer, _, _, _, _, _, _, _⟩ := l
        cases writer <;> rfl
      · rfl
    have hsome := writer_before_append l (hw hp)
    rw [hopen]
    generalize (if l.lastIndex = 0 then l.ensureWriter else l) = l1 at hsome ⊢
    obtain ⟨w, hwr⟩ := Option.isSome_iff_exists.1 hsome
    dsimp only
    rw [hwr]
    exact hroll (((l1.push (withIndex e (l.lastIndex + 1))).writeRecord w (withIndex e (l.lastIndex + 1))
      (f && l1.fsyncPerAppend)).addLocation (index (withIndex e (l.lastIndex + 1)))
      ⟨l1.currentSegmentId, w.nextWriteOffset⟩) (xs ++ [withIndex e (l.lastIndex + 1)])
  · have hn : (!l.persistent) = true := by simpa using hp
    rw [if_pos hn, if_pos hn]
    rfl

lemma getRange_of {l : SegmentLog E} {w : List E} (he : l.entries = w.drop l.baseIndex) (hl : l.lastIndex = w.length)
    {i k : ℕ} (hi : l.baseIndex ≤ i) (hk : 0 < k) : l.getRange (i + 1) k = (w.drop i).take k := by
  have hdrop : l.entries.drop (i - l.baseIndex) = w.drop i := by
    rw [he, drop_drop]
    congr 1; omega
  unfold getRange firstIndex
  rw [hl]
  rcases Nat.lt_or_ge i w.length with hlt | hge
  · have hne : l.entries ≠ [] := by
      rw [he]
      intro hnil
      have := drop_eq_nil_iff.1 hnil
      omega
    have hfirst : l.baseIndex + 1 ≤ w.length := by omega
    rw [if_neg hne, if_pos hfirst,
      if_neg (by omega), if_neg (by omega), show i + 1 - l.baseIndex - 1 = i - l.baseIndex by omega,
      hdrop]
  · rw [if_pos (by omega), drop_eq_nil_of_le hge]
    simp

lemma append_locations (l : SegmentLog E) (e : E) (f : Bool) (hp : l.persistent = true) {w : WalWriter}
    (hw : (if l.lastIndex = 0 then l.ensureWriter else l).writer = some w) : (l.append e f).locations = fun j =>
      if j = l.lastIndex + 1 then some ⟨l.currentSegmentId, w.nextWriteOffset⟩ else l.locations j := by
  have hroll : ∀ x : SegmentLog E, x.rollSegment.locations = x.locations := by
    intro x
    have hclose : x.closeWriter.locations = x.locations := by unfold closeWriter; split <;> rfl
    unfold rollSegment ensureWriter
    split
    · exact hclose
    · exact hclose
  have hsame : (if l.lastIndex = 0 then l.ensureWriter else l).locations = l.locations ∧
      (if l.lastIndex = 0 then l.ensureWriter else l).currentSegmentId = l.currentSegmentId := by
    unfold ensureWriter
    split_ifs
    · split <;> exact ⟨rfl, rfl⟩
    · exact ⟨rfl, rfl⟩
  have hn : ¬ (!l.persistent) = true := by simp [hp]
  unfold append
  dsimp only
  rw [hw]
  generalize (if l.lastIndex = 0 then l.ensureWriter else l) = l1 at hsame hw
  dsimp only
  split_ifs
  · rw [hroll]
    funext j
    simp only [addLocation, writeRecord, push, index_withIndex, hsame]
  · funext j
    simp only [addLocation, writeRecord, push, index_withIndex, hsame]

end SegmentLog

/-! ## The log against all that was appended -/

structure Kept (l : SegmentLog E) (gs : List (Segment E)) (d : ℕ) (w : List E) : Prop where
  disk : OnDisk { l with entries := recordsOf gs } gs
  records : recordsOf gs = w.drop d
  dropped : d ≤ l.baseIndex
  base : l.baseIndex ≤ w.length
  entries : l.entries = w.drop l.baseIndex
  last : l.lastIndex = w.length
  numbered : ∀ i e, w[i]? = some e → index e = i + 1
  located : ∀ i, l.baseIndex ≤ i → i < w.length → l.locations (i + 1) = locate gs (i - d)
  unlocated : ∀ j, j ≤ l.baseIndex → l.locations j = none

lemma openDir_base (ho : Ordered gs) (h : Readable 0 (recordsOf gs)) :
    (SegmentLog.openDir (dirOf gs) : SegmentLog E).baseIndex = ((recordsOf gs).head?.map index).getD 1 - 1 := by
  have hload := scanSegments_loaded (l := ({ dir := dirOf gs } : SegmentLog E)) (fun g hg => file_dirOf ho hg) h
  set x := (gs.map Segment.id).foldl SegmentLog.scanSegment ({ dir := dirOf gs } : SegmentLog E) with hx
  have hentries : x.entries = recordsOf gs := hload.entries
  have hzero : x.baseIndex = 0 := hload.base
  have hadj : x.adjustBase.baseIndex = ((recordsOf gs).head?.map index).getD 1 - 1 := by
    unfold SegmentLog.adjustBase
    rw [hentries]
    cases hr : recordsOf gs with
    | nil => exact hzero
    | cons e =>
      have hpos := h.above e (by rw [hr]; exact mem_cons_self)
      simp only [head?_cons, Option.map_some, Option.getD_some]
      split_ifs with hone
      · rfl
      · rw [hzero] at hone ⊢
        omega
  unfold SegmentLog.openDir
  rw [discoverSegments_dirOf ho]
  split
  · exact hadj
  · exact hadj

namespace Kept

variable {l : SegmentLog E} {gs : List (Segment E)} {d : ℕ} {w : List E}
  {i k n : ℕ} {pre post : List (Segment E)} {g : Segment E}

lemma fresh (fsync : Bool) : Kept ({ fsyncPerAppend := fsync } : SegmentLog E) [] 0 [] :=
  ⟨⟨rfl, rfl, List.Pairwise.nil, by simp, rfl, Or.inl ⟨rfl, rfl, rfl⟩⟩, rfl, le_rfl, le_rfl, rfl, rfl, by simp, by simp,
    fun _ _ => rfl⟩

section
variable (h : Kept l gs d w)
include h

lemma length_records : (recordsOf gs).length = w.length - d := by rw [h.records, length_drop]

lemma canAppend : l.persistent = true → l.lastIndex = 0 ∨ l.writer.isSome := by
  intro _
  rcases h.disk.writer with ⟨-, -, h0⟩ | ⟨_, _, -, -, hw⟩
  · exact Or.inl h0
  · exact Or.inr (by rw [show l.writer = _ from hw]; rfl)

lemma flush_eq : l.flush = l := by
  have hkeep : l.flush = { ({ l with entries := recordsOf gs } : SegmentLog E).flush with entries := l.entries } := by
    obtain ⟨_, _, _, writer, _, _, _, _, _, _, _⟩ := l
    cases writer <;> rfl
  rw [hkeep, h.disk.flush_eq]

lemma persist_eq : l.persist = l := by
  unfold SegmentLog.persist
  split_ifs
  · exact h.flush_eq
  · rfl

lemma getRange (hi : l.baseIndex ≤ i) (hk : 0 < k) : l.getRange (i + 1) k = (w.drop i).take k :=
  SegmentLog.getRange_of h.entries h.last hi hk

lemma writer_at_end {pre : List (Segment E)} {g : Segment E}
    (hopen : OnDisk.opened { l with entries := recordsOf gs } gs = pre ++ [g]) :
    (if l.lastIndex = 0 then l.ensureWriter else l).writer = some ⟨(writeAll record g.records).length, []⟩ ∧
      l.currentSegmentId = g.id := by
  rcases h.disk.writer with ⟨rfl, hnone, h0⟩ | ⟨pre', g', rfl, hid, hw⟩
  · have hg : g = ⟨l.currentSegmentId, [], 0⟩ := by
      have := append_inj'
        (show ([] : List (Segment E)) ++ [⟨l.currentSegmentId, [], 0⟩] = pre ++ [g] from hopen) rfl
      exact (singleton_inj.1 this.2).symm
    have hdir : l.dir = [] := h.disk.dir
    have hnone' : l.writer = none := hnone
    rw [if_pos h0, hg]
    refine ⟨?_, rfl⟩
    unfold SegmentLog.ensureWriter
    rw [hnone', hdir]
    rfl
  · rw [OnDisk.opened_of_ne (by simp)] at hopen
    obtain rfl := singleton_inj.1 (append_inj' hopen rfl).2
    have hw' : l.writer = some ⟨g'.file.bytes.length, []⟩ := hw
    refine ⟨?_, hid⟩
    split_ifs
    · unfold SegmentLog.ensureWriter; rw [hw']; exact hw'
    · exact hw'

lemma numbered_push (e : E) : ∀ i x, (w ++ [withIndex e (w.length + 1)])[i]? = some x → index x = i + 1 := by
  intro i x hx
  rcases Nat.lt_or_ge i w.length with hi | hi
  · rw [getElem?_append_left hi] at hx
    exact h.numbered i x hx
  · rw [getElem?_append_right hi] at hx
    obtain ⟨h0, rfl⟩ := List.getElem?_eq_some_iff.1 hx
    simp only [length_singleton] at h0
    simp only [getElem_singleton, index_withIndex]
    omega

theorem append (e : E) (f : Bool) :
    ∃ gs', Kept (l.append e f) gs' d (w ++ [withIndex e (w.length + 1)]) ∧ (l.append e f).baseIndex = l.baseIndex := by
  obtain ⟨pre, g, tail, hopen, htail, hdisk⟩ := h.disk.append e f
  have hpush := SegmentLog.append_pushed l e f h.canAppend
  have hdw : d ≤ w.length := h.dropped.trans h.base
  have hlast : l.lastIndex = w.length := h.last
  have hwriter := h.writer_at_end hopen
  have hloc := SegmentLog.append_locations l e f h.disk.persistent hwriter.1
  rw [hlast] at hloc hpush
  set e' := withIndex e (w.length + 1) with he'
  have hold : recordsOf (pre ++ [g]) = recordsOf gs := by rw [← hopen, OnDisk.recordsOf_opened]
  have hempty : recordsOf tail = [] := by rcases htail with rfl | rfl <;> rfl
  refine ⟨pre ++ [g.add (withIndex e (l.lastIndex + 1)) (f && l.fsyncPerAppend)] ++ tail,
    ⟨?_, ?_, ?_, ?_, ?_, ?_, ?_, ?_, ?_⟩,
    hpush.base⟩
  · rw [SegmentLog.append_withEntries l _ e f h.canAppend] at hdisk
    have hrec : recordsOf (pre ++ [g.add (withIndex e (l.lastIndex + 1)) (f && l.fsyncPerAppend)] ++ tail) =
        recordsOf gs ++ [withIndex e (l.lastIndex + 1)] := by
      rw [← hold]; simp [hempty, Segment.add]
    rw [hrec]
    exact hdisk
  · rw [drop_append_of_le_length hdw, ← h.records, ← hold]
    simp [hempty, Segment.add, hlast, he']
  · rw [hpush.base]; exact h.dropped
  · rw [hpush.base, length_append]; exact h.base.trans (Nat.le_add_right _ _)
  · rw [hpush.entries, hpush.base, drop_append_of_le_length h.base, h.entries]
  · rw [hpush.last, index_withIndex]; simp
  · exact h.numbered_push e
  · intro i hbi hi
    rw [hpush.base] at hbi
    rw [hloc]
    dsimp only
    have hlen := h.length_records
    have hdb := h.dropped
    rcases Nat.lt_or_ge i w.length with hlt | hge
    · rw [if_neg (by omega), h.located i hbi hlt]
      have hne : gs ≠ [] := by
        rintro rfl
        simp only [recordsOf_nil, length_nil] at hlen
        omega
      rw [OnDisk.opened_of_ne hne] at hopen
      rw [locate_add _ _ _ (by rw [hold]; omega), hopen]
    · have hi' : i = w.length := by simp only [length_append, length_singleton] at hi; omega
      have hat : i - d = (recordsOf (pre ++ [g])).length := by rw [hold, hlen, hi']
      rw [if_pos (by omega), hat, locate_added, hwriter.2]
      rfl
  · intro j hj
    rw [hpush.base] at hj
    have hb := h.base
    rw [hloc]
    dsimp only
    rw [if_neg (by omega)]
    exact h.unlocated j hj

lemma record_at (hn : l.baseIndex < n) (hw : n ≤ w.length) :
    ∃ pre g post k e, gs = pre ++ g :: post ∧ g.records[k]? = some e ∧ n = d + (recordsOf pre).length + k + 1 ∧
      l.locations n = some ⟨g.id, (writeAll record (g.records.take k)).length⟩ ∧
      l.entries[n - l.baseIndex - 1]? = some e := by
  have hlen := h.length_records
  have hd := h.dropped
  have hin : n - 1 - d < (recordsOf gs).length := by omega
  obtain ⟨pre, g, post, k, hgs, hk, hj, hloc⟩ := locate_split hin
  have hplace := h.located (n - 1) (by omega) (by omega)
  rw [Nat.sub_add_cancel (by omega), hloc] at hplace
  have hget : g.records[k]? = w[n - 1]? := by
    have hrec : (recordsOf gs)[n - 1 - d]? = w[n - 1]? := by
      rw [h.records, getElem?_drop]
      congr 1; omega
    rw [← hrec, hgs, recordsOf_append, recordsOf_cons, getElem?_append_right (by omega),
      getElem?_append_left (by omega)]
    congr 1; omega
  refine ⟨pre, g, post, k, g.records[k], hgs, getElem?_eq_getElem hk, by omega, hplace, ?_⟩
  rw [h.entries, getElem?_drop, ← getElem?_eq_getElem hk, hget]
  congr 1; omega

lemma writer_some (hne : gs ≠ []) : ∃ k, l.writer = some ⟨k, []⟩ := by
  rcases h.disk.writer with ⟨hnil, -, -⟩ | ⟨_, g, -, -, hw⟩
  · exact absurd hnil hne
  · exact ⟨_, hw⟩

end

lemma ordered_cut (ho : Ordered (pre ++ g :: post)) (k : ℕ) :
    Ordered (pre ++ g.cut k :: post) := by
  obtain ⟨hp, hgp, hcross⟩ := pairwise_append.1 ho
  obtain ⟨hg, hpost⟩ := pairwise_cons.1 hgp
  refine pairwise_append.2 ⟨hp, pairwise_cons.2 ⟨hg, hpost⟩, fun a ha b hb => ?_⟩
  rcases mem_cons.1 hb with rfl | hb
  · exact hcross a ha g mem_cons_self
  · exact hcross a ha b (mem_cons_of_mem _ hb)

section
variable (h : Kept l gs d w)
include h

lemma truncate_eq (hn : l.baseIndex < n) {e : E} (hgs : gs = pre ++ g :: post) (hk : g.records[k]? = some e)
    (hloc : l.locations n = some ⟨g.id, (writeAll record (g.records.take k)).length⟩)
    (hkeep : l.entries[n - l.baseIndex - 1]? = some e) : l.truncateFrom n = { l with
      locations := fun i => if i ≤ n then l.locations i else none
      lastIndex := n
      lastTerm := term e
      entries := l.entries.take (n - l.baseIndex)
      dir := dirOf (pre ++ [g.cut (k + 1)])
      writer := some ⟨(g.cut (k + 1)).file.bytes.length, []⟩
      currentSegmentId := g.id } := by
  obtain ⟨size, hwriter⟩ := h.writer_some (by rw [hgs]; simp)
  have ho : Ordered (pre ++ g :: post) := by rw [← hgs]; exact h.disk.ordered
  have hdir : l.dir = dirOf (pre ++ g :: post) := by rw [← hgs]; exact h.disk.dir
  have ho' : Ordered (pre ++ [g.cut (k + 1)]) := List.Pairwise.sublist (by simp) (ordered_cut ho (k + 1))
  have hfile : l.dir.file g.id = g.file := by rw [hdir]; exact file_dirOf ho (by simp)
  have hfile' : (dirOf (pre ++ [g.cut (k + 1)])).file g.id = (g.cut (k + 1)).file :=
    file_dirOf ho' (g := g.cut (k + 1)) (by simp)
  have hcut : (l.dir.set g.id (g.cut (k + 1)).file).unlink (fun id => g.id < id) = dirOf (pre ++ [g.cut (k + 1)]) := by
    rw [hdir]; exact cut_dirOf ho rfl
  have hcreate : (dirOf (pre ++ [g.cut (k + 1)])).create g.id = dirOf (pre ++ [g.cut (k + 1)]) := by
    have hmem : (g.id, (g.cut (k + 1)).file) ∈ dirOf (pre ++ [g.cut (k + 1)]) := by simp [dirOf, Segment.cut]
    exact WalDir.create_of_mem hmem
  unfold SegmentLog.truncateFrom
  rw [if_neg (by omega)]
  dsimp only
  rw [if_pos le_rfl, hloc, hkeep, hwriter]
  simp only [SegmentLog.truncateFiles, SegmentLog.cutFiles, SegmentLog.closeWriter, WalWriter.flush, if_true, hfile,
    Segment.cut_file g hk, hcut, WalDir.set_file_self ho'.dir, SegmentLog.ensureWriter, hcreate, hfile',
    WalWriter.openAppend, Option.map_some, Option.getD_some]

theorem truncate (hn : l.baseIndex < n) (hw : n ≤ w.length) :
    ∃ gs', Kept (l.truncateFrom n) gs' d (w.take n) ∧ (l.truncateFrom n).baseIndex = l.baseIndex := by
  obtain ⟨pre, g, post, k, e, hgs, hk, hnk, hloc, hkeep⟩ := h.record_at hn hw
  have hklt : k < g.records.length := (List.getElem?_eq_some_iff.1 hk).1
  have ho : Ordered (pre ++ g :: post) := by rw [← hgs]; exact h.disk.ordered
  have ho' : Ordered (pre ++ [g.cut (k + 1)]) := List.Pairwise.sublist (by simp) (ordered_cut ho (k + 1))
  have hrec : recordsOf (pre ++ [g.cut (k + 1)]) = (w.take n).drop d := by
    have hall := h.records
    rw [hgs, recordsOf_append, recordsOf_cons] at hall
    have htake : (recordsOf pre ++ (g.records ++ recordsOf post)).take (n - d) =
      recordsOf pre ++ g.records.take (k + 1) := by
      rw [take_append, take_of_length_le (by omega), take_append_of_le_length (by omega)]
      congr 2; omega
    rw [drop_take, ← hall, htake]
    simp [Segment.cut]
  rw [h.truncate_eq hn hgs hk hloc hkeep]
  refine ⟨pre ++ [g.cut (k + 1)],
    ⟨⟨h.disk.persistent, rfl, ho', ?_, rfl, Or.inr ⟨pre, _, rfl, rfl, rfl⟩⟩, hrec, h.dropped, ?_,
    ?_, ?_, ?_, ?_, ?_⟩, rfl⟩
  · intro a ha
    rcases mem_append.1 ha with ha | ha
    · exact h.disk.synced a (by rw [hgs]; simp [ha])
    · have := h.disk.synced g (by rw [hgs]; simp)
      rw [mem_singleton.1 ha]
      simp only [Segment.cut, length_take]
      omega
  · show l.baseIndex ≤ (w.take n).length
    rw [length_take]; omega
  · rw [drop_take, h.entries]
  · show n = (w.take n).length
    rw [length_take]; omega
  · intro i x hx
    rw [getElem?_take] at hx
    split_ifs at hx
    exact h.numbered i x hx
  · intro i hb hi
    have hb' : l.baseIndex ≤ i := hb
    have hd := h.dropped
    rw [length_take] at hi
    show (if i + 1 ≤ n then l.locations (i + 1) else none) = _
    rw [if_pos (by omega), h.located i hb' (by omega), hgs, locate_cut post hklt (by omega)]
  · intro j hj
    have hj' : j ≤ l.baseIndex := hj
    show (if j ≤ n then l.locations j else none) = none
    rw [if_pos (by omega)]
    exact h.unlocated j hj'

lemma clear : Kept l.clear [] 0 [] ∧ l.clear.baseIndex = 0 := by
  have hp : l.persistent = true := h.disk.persistent
  have heq : ∃ i, l.clear = { l with
      baseIndex := 0, locations := fun _ => none, lastIndex := 0, lastTerm := 0, entries := [], anchor := {}, dir := []
      writer := none, currentSegmentId := i } := by
    obtain ⟨_, _, _, writer, i, _, _, _, _, _, _⟩ := l
    subst hp
    cases writer <;> exact ⟨i, rfl⟩
  obtain ⟨i, heq⟩ := heq
  rw [heq]
  exact ⟨⟨⟨hp, rfl, List.Pairwise.nil, by simp, rfl, Or.inl ⟨rfl, rfl, rfl⟩⟩, rfl, le_rfl, le_rfl, rfl, rfl,
    by simp, by simp,
    fun _ _ => rfl⟩, rfl⟩

lemma drop_entries (hb : l.baseIndex ≤ i) : l.entries.drop (i - l.baseIndex) = w.drop i := by
  rw [h.entries, drop_drop]
  congr 1; omega

lemma compact_below (t : ℕ) (hi : i ≤ l.baseIndex) :
    Kept (l.compactLogs i t) gs d w ∧ (l.compactLogs i t).baseIndex = l.baseIndex := by
  have hp : ¬ (!l.persistent) = true := by simp [show l.persistent = true from h.disk.persistent]
  have heq : l.compactLogs i t = { l with anchor := ⟨i, t⟩ } := by
    unfold SegmentLog.compactLogs SegmentLog.compactSegments SegmentLog.compactUpTo SegmentLog.setSnapshotAnchor
    rw [if_neg hp, h.unlocated i hi]
    rw [if_pos hi]
  rw [heq]
  exact ⟨⟨⟨h.disk.persistent, h.disk.dir, h.disk.ordered, h.disk.synced, rfl, h.disk.writer⟩, h.records,
    h.dropped, h.base, h.entries, h.last, h.numbered, h.located, h.unlocated⟩, rfl⟩

/-- **A compaction.** -/
theorem compact (t : ℕ) (hb : l.baseIndex ≤ i) (hi : i ≤ w.length) :
    ∃ gs' d', Kept (l.compactLogs i t) gs' d' w ∧ (l.compactLogs i t).baseIndex = i ∧ d ≤ d' ∧
      (d' = d ∨ d' < i) := by
  have hp : ¬ (!l.persistent) = true := by simp [show l.persistent = true from h.disk.persistent]
  have hlast := h.last
  rcases hb.eq_or_lt with hbi | hlt
  · obtain ⟨hk, hbase⟩ := h.compact_below t hbi.ge
    exact ⟨gs, d, hk, hbase.trans hbi, le_rfl, Or.inl rfl⟩
  · obtain ⟨pre, g, post, k, e, hgs, -, hik, hloc, -⟩ := h.record_at hlt hi
    have ho : Ordered (pre ++ g :: post) := by rw [← hgs]; exact h.disk.ordered
    have hdir : l.dir = dirOf (pre ++ g :: post) := by rw [← hgs]; exact h.disk.dir
    have heq : ∃ locs lt, l.compactLogs i t = { l with
        anchor := ⟨i, t⟩, dir := dirOf (g :: post), baseIndex := i, entries := w.drop i, lastIndex := w.length
        locations := locs, lastTerm := lt } ∧
        (∀ j, j ≤ i → locs j = none) ∧ (i < w.length → ∀ j, i < j → locs j = l.locations j) := by
      unfold SegmentLog.compactLogs SegmentLog.compactSegments SegmentLog.compactUpTo SegmentLog.setSnapshotAnchor
      rw [if_neg hp, hloc]
      dsimp only
      rw [if_neg (by omega), hdir, unlink_dirOf ho]
      split_ifs with hle
      · have hiw : i = w.length := by omega
        refine ⟨fun _ => none, 0, ?_, fun j _ => rfl, fun hlt' => absurd hlt' (by omega)⟩
        rw [drop_eq_nil_of_le hiw.ge, ← hiw]
      · refine ⟨fun j => if i < j then l.locations j else none, l.lastTerm, ?_, fun j hj => if_neg (by omega),
          fun _ j hj => if_pos hj⟩
        rw [h.drop_entries hb, hlast]
    obtain ⟨locs, lt, heq, hnone, hlocs⟩ := heq
    rw [heq]
    refine ⟨g :: post, d + (recordsOf pre).length,
      ⟨⟨h.disk.persistent, rfl, (pairwise_append.1 ho).2.1, ?_, rfl, ?_⟩, ?_, ?_,
      hi, rfl, rfl, h.numbered, ?_, hnone⟩, rfl, Nat.le_add_right _ _, Or.inr (by omega)⟩
    · exact fun a ha => h.disk.synced a (by rw [hgs]; exact mem_append_right _ ha)
    · -- the last segment is still the last one
      right
      obtain ⟨pre', g', hlast'⟩ := eq_nil_or_concat (g :: post) |>.resolve_left (by simp)
      rw [concat_eq_append] at hlast'
      refine ⟨pre', g', hlast', ?_⟩
      rcases h.disk.writer with ⟨hnil, -, -⟩ | ⟨pre'', g'', hsplit, hid, hwr⟩
      · rw [hgs] at hnil; simp at hnil
      · rw [hgs, hlast', ← append_assoc] at hsplit
        obtain rfl := singleton_inj.1 (append_inj' hsplit rfl).2
        exact ⟨hid, hwr⟩
    · have hall := h.records
      rw [hgs, recordsOf_append] at hall
      rw [← drop_drop, ← hall, drop_left]
    · show d + (recordsOf pre).length ≤ i
      omega
    · intro j hbj hj
      have hbj' : i ≤ j := hbj
      show locs (j + 1) = _
      rw [hlocs (by omega) (j + 1) (by omega), h.located j (by omega) hj, hgs, locate_append,
        if_neg (by omega), Nat.sub_sub]

end

/-! ## Open -/

structure Reopened (l : SegmentLog E) (d : ℕ) (w : List E) : Prop where
  entries : l.entries = w.drop d
  last : l.lastIndex = if w.length ≤ d then 0 else w.length
  base : d < w.length → l.baseIndex = d
  anchor : l.anchor = {}

lemma readable (h : Kept l gs d w) (hs : ∀ e ∈ w.drop d, Storable e) : Readable 0 (recordsOf gs) := by
  rw [h.records]
  have hidx : ∀ i (hi : i < w.length), index w[i] = i + 1 := fun i hi => h.numbered i _ (getElem?_eq_getElem hi)
  refine ⟨hs, fun e he => ?_, ?_⟩
  · obtain ⟨i, hi, rfl⟩ := getElem_of_mem (mem_of_mem_drop he)
    rw [hidx i hi]; omega
  · refine List.Pairwise.sublist (drop_sublist d w) (pairwise_iff_getElem.2 (fun i j hi hj hij => ?_))
    rw [hidx i hi, hidx j hj]; omega

theorem opened (h : Kept l gs d w) (hs : ∀ e ∈ w.drop d, Storable e) : Reopened (SegmentLog.openDir l.dir) d w := by
  have hdir : l.dir = dirOf gs := h.disk.dir
  have hopen := openDir_onDisk h.disk.ordered h.disk.synced (h.readable hs)
  have hbase := openDir_base h.disk.ordered (h.readable hs)
  rw [hdir]
  have hd : d ≤ w.length := h.dropped.trans h.base
  refine ⟨hopen.disk.entries.trans h.records, ?_, fun hlt => ?_, hopen.anchor⟩
  · rw [hopen.last, h.records]
    split_ifs with hle
    · rw [drop_eq_nil_of_le hle]; rfl
    · rw [getLast?_drop, if_neg hle, getLast?_eq_getElem?, getElem?_eq_getElem (by omega)]
      simp only [Option.map_some, Option.getD_some]
      rw [h.numbered (w.length - 1) _ (getElem?_eq_getElem (by omega))]
      omega
  · rw [hbase, h.records, head?_drop, getElem?_eq_getElem hlt]
    simp only [Option.map_some]
    rw [h.numbered d _ (getElem?_eq_getElem hlt)]
    rfl

end Kept

end MaxRedis.Storage

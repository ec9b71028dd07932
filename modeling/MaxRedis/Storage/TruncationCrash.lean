/-
A crash in the middle of `TruncateFrom`.
-/
import MaxRedis.Storage.Agreement

namespace MaxRedis.Storage

open Bytes WalEntry List

variable {E : Type} [WalEntry E] {pre post : List (Segment E)} {g : Segment E}

/-! ## The file operations -/

inductive FileOp where
  | ftruncate (id size : ℕ)
  | unlink (id : ℕ)
  deriving DecidableEq

def FileOp.on (d : WalDir) : FileOp → WalDir
  | .ftruncate id size => d.set id ((d.file id).truncate size)
  | .unlink id => d.unlink (fun x => x = id)

namespace SegmentLog

def truncateOps (l : SegmentLog E) (newLast : ℕ) : List FileOp :=
  match l.locations newLast, l.entries[newLast - l.baseIndex - 1]?, l.writer with
  | some loc, some keep, some _ =>
    .ftruncate loc.segmentId (loc.offset + headerSize + (command keep).length) ::
      (l.dir.discoverSegments.filter (fun id => loc.segmentId < id)).map .unlink
  | _, _, _ => []

def crashed (l : SegmentLog E) (newLast k : ℕ) : WalDir := ((l.truncateOps newLast).take k).foldl FileOp.on l.dir

def cutsCleanly (l : SegmentLog E) (newLast : ℕ) : Bool :=
  match l.locations newLast, l.entries[newLast - l.baseIndex - 1]? with
  | some loc, some keep =>
    let later := l.dir.filter (fun p => loc.segmentId < p.1 ∧ p.2.bytes ≠ [])
    later.length = 0 ∨ later.length = 1 ∧
      (l.dir.file loc.segmentId).bytes.length = loc.offset + headerSize + (command keep).length
  | _, _ => false

end SegmentLog

lemma unlink_next (ho : Ordered (pre ++ g :: post)) :
    (dirOf (pre ++ g :: post)).unlink (fun x => x = g.id) = dirOf (pre ++ post) := by
  obtain ⟨-, hgp, hcross⟩ := pairwise_append.1 ho
  have hpre : (dirOf pre).unlink (fun x => x = g.id) = dirOf pre := by
    refine filter_eq_self.2 (fun p hp => ?_)
    obtain ⟨a, ha, rfl⟩ := mem_map.1 hp
    have := hcross a ha g mem_cons_self
    simp; omega
  have hpost : (dirOf post).unlink (fun x => x = g.id) = dirOf post := by
    refine filter_eq_self.2 (fun p hp => ?_)
    obtain ⟨a, ha, rfl⟩ := mem_map.1 hp
    have := (pairwise_cons.1 hgp).1 a ha
    simp; omega
  have hsplit : (dirOf (pre ++ g :: post)).unlink (fun x => x = g.id) =
      (dirOf pre).unlink (fun x => x = g.id) ++ (dirOf post).unlink (fun x => x = g.id) := by
    simp [dirOf, WalDir.unlink]
  rw [hsplit, hpre, hpost]
  simp [dirOf]

lemma foldl_unlink (ho : Ordered (pre ++ post)) (m : ℕ) :
    ((post.map (fun g => FileOp.unlink g.id)).take m).foldl FileOp.on (dirOf (pre ++ post)) =
      dirOf (pre ++ post.drop m) := by
  induction m generalizing post with
  | zero => rfl
  | succ _ ih =>
    cases post with
    | nil => rfl
    | cons _ post =>
      have hsub : Ordered (pre ++ post) := List.Pairwise.sublist (by simp) ho
      rw [map_cons, take_succ_cons, foldl_cons, drop_succ_cons, ← ih hsub]
      congr 1
      exact unlink_next ho

lemma set_cut (ho : Ordered (pre ++ g :: post)) (k : ℕ) :
    (dirOf (pre ++ g :: post)).set g.id (g.cut k).file = dirOf (pre ++ g.cut k :: post) := by
  obtain ⟨-, hgp, hcross⟩ := pairwise_append.1 ho
  have hkeep : ∀ gs : List (Segment E), (∀ a ∈ gs, a.id ≠ g.id) → (dirOf gs).set g.id (g.cut k).file = dirOf gs := by
    intro gs hgs
    simp only [dirOf, WalDir.set, map_map]
    refine map_congr_left (fun a ha => ?_)
    simp [hgs a ha]
  have hpre := hkeep pre (fun a ha => (hcross a ha g mem_cons_self).ne)
  have hpost := hkeep post (fun a ha => ((pairwise_cons.1 hgp).1 a ha).ne')
  have hsplit : (dirOf (pre ++ g :: post)).set g.id (g.cut k).file =
      (dirOf pre).set g.id (g.cut k).file ++ (g.id, (g.cut k).file) :: (dirOf post).set g.id (g.cut k).file := by
    simp [dirOf, WalDir.set]
  rw [hsplit, hpre, hpost]
  simp [dirOf, Segment.cut]

/-! ## What a crash leaves -/

namespace Tracked

variable {l : SegmentLog E} {gs : List (Segment E)} {d : ℕ} {w : List E}
  {n k : ℕ} {pre post : List (Segment E)} {g : Segment E}

lemma truncateOps_eq (h : Tracked l gs d w) {e : E}
    (hgs : gs = pre ++ g :: post) (hloc : l.locations n = some ⟨g.id, (writeAll record (g.records.take k)).length⟩)
    (hat : l.entries[n - l.baseIndex - 1]? = some e) : l.truncateOps n =
      .ftruncate g.id ((writeAll record (g.records.take k)).length + headerSize + (command e).length) ::
        post.map (fun g => .unlink g.id) := by
  obtain ⟨size, hwriter⟩ := h.kept.writer_some (by rw [hgs]; simp)
  have hdir : l.dir = dirOf gs := h.kept.disk.dir
  have ho : Ordered (pre ++ g :: post) := by rw [← hgs]; exact h.kept.disk.ordered
  obtain ⟨-, hgp, hcross⟩ := pairwise_append.1 ho
  have hlater : ((pre ++ g :: post).map Segment.id).filter (fun id => g.id < id) = post.map Segment.id := by
    have hpre : (pre.map Segment.id).filter (fun id => g.id < id) = [] := by
      refine filter_eq_nil_iff.2 (fun x hx => ?_)
      obtain ⟨a, ha, rfl⟩ := mem_map.1 hx
      have := hcross a ha g mem_cons_self
      simp; omega
    have hpost : (post.map Segment.id).filter (fun id => g.id < id) = post.map Segment.id := by
      refine filter_eq_self.2 (fun x hx => ?_)
      obtain ⟨a, ha, rfl⟩ := mem_map.1 hx
      have := (pairwise_cons.1 hgp).1 a ha
      simpa using this
    rw [map_append, map_cons, filter_append, hpre, filter_cons_of_neg (by simp), hpost,
      nil_append]
  unfold SegmentLog.truncateOps
  rw [hloc, hat, hwriter]
  dsimp only
  rw [hdir, hgs, discoverSegments_dirOf ho, hlater, map_map]
  rfl

lemma crashed_eq (h : Tracked l gs d w) {e : E} (hgs : gs = pre ++ g :: post) (hk : g.records[k]? = some e)
    (hloc : l.locations n = some ⟨g.id, (writeAll record (g.records.take k)).length⟩)
    (hat : l.entries[n - l.baseIndex - 1]? = some e) (m : ℕ) :
    l.crashed n (m + 1) = dirOf (pre ++ g.cut (k + 1) :: post.drop m) := by
  have hdir : l.dir = dirOf gs := h.kept.disk.dir
  have ho : Ordered (pre ++ g :: post) := by rw [← hgs]; exact h.kept.disk.ordered
  have hfile : (dirOf (pre ++ g :: post)).file g.id = g.file := file_dirOf ho (by simp)
  unfold SegmentLog.crashed
  rw [h.truncateOps_eq hgs hloc hat, take_succ_cons, foldl_cons, hdir, hgs, FileOp.on, hfile,
    Segment.cut_file g hk, set_cut ho]
  have ho' : Ordered ((pre ++ [g.cut (k + 1)]) ++ post) := by
    rw [append_assoc]; exact Kept.ordered_cut ho (k + 1)
  have hrest := foldl_unlink ho' m
  rw [append_assoc, append_assoc] at hrest
  exact hrest

lemma wholeDir (h : Tracked l gs d w) : WholeDir gs d := by
  refine ⟨h.kept.disk.ordered, h.kept.disk.synced, by rw [h.kept.records]; exact h.storable, fun i e he => ?_⟩
  rw [h.kept.records, getElem?_drop] at he
  exact h.kept.numbered _ e he

end Tracked

/-! ## Clean cuts -/

lemma writeAll_record_eq_nil {es : List E} : writeAll record es = [] ↔ es = [] := by
  constructor
  · intro hnil
    have hlen := length_le_writeAll (α := E) record_pos es
    rw [hnil, length_nil] at hlen
    exact eq_nil_of_length_eq_zero (by omega)
  · rintro rfl; rfl

def filled (gs : List (Segment E)) : List (Segment E) := gs.filter (fun g => g.file.bytes ≠ [])

lemma recordsOf_of_filled {gs : List (Segment E)} (h : (filled gs).length = 0) : recordsOf gs = [] := by
  refine flatMap_eq_nil_iff.2 (fun g hg => ?_)
  have hnot := filter_eq_nil_iff.1 (eq_nil_of_length_eq_zero h) g hg
  simp only [ne_eq, decide_not, Bool.not_eq_true', decide_eq_false_iff_not, Decidable.not_not] at hnot
  exact writeAll_record_eq_nil.1 hnot

lemma filled_split {gs : List (Segment E)} (h : (filled gs).length = 1) (m : ℕ) :
    recordsOf (gs.take m) = [] ∨ recordsOf (gs.drop m) = [] := by
  have hsplit : (filled gs).length = (filled (gs.take m)).length + (filled (gs.drop m)).length := by
    rw [filled, filled, filled, ← length_append, ← filter_append, take_append_drop]
  rcases Nat.eq_zero_or_pos (filled (gs.take m)).length with h0 | h0
  · exact Or.inl (recordsOf_of_filled h0)
  · exact Or.inr (recordsOf_of_filled (by omega))

namespace Tracked

variable {l : SegmentLog E} {gs : List (Segment E)} {d : ℕ} {w : List E}

lemma cutsCleanly_iff (h : Tracked l gs d w) {n : ℕ} {pre post : List (Segment E)} {g : Segment E} {k : ℕ} {e : E}
    (hgs : gs = pre ++ g :: post) (hk : g.records[k]? = some e)
    (hloc : l.locations n = some ⟨g.id, (writeAll record (g.records.take k)).length⟩)
    (hat : l.entries[n - l.baseIndex - 1]? = some e) :
    l.cutsCleanly n ↔ (filled post).length = 0 ∨ (filled post).length = 1 ∧ g.records.length = k + 1 := by
  have hdir : l.dir = dirOf (pre ++ g :: post) := by rw [← hgs]; exact h.kept.disk.dir
  have ho : Ordered (pre ++ g :: post) := by rw [← hgs]; exact h.kept.disk.ordered
  obtain ⟨-, hgp, hcross⟩ := pairwise_append.1 ho
  have hfile : (dirOf (pre ++ g :: post)).file g.id = g.file := file_dirOf ho (by simp)
  have hlater : ((dirOf (pre ++ g :: post)).filter (fun p => g.id < p.1 ∧ p.2.bytes ≠ [])).length =
      (filled post).length := by
    have hpre : (dirOf pre).filter (fun p => g.id < p.1 ∧ p.2.bytes ≠ []) = [] := by
      refine filter_eq_nil_iff.2 (fun x hx => ?_)
      obtain ⟨a, ha, rfl⟩ := mem_map.1 hx
      have := hcross a ha g mem_cons_self
      simp; omega
    have hpost : (dirOf post).filter (fun p => g.id < p.1 ∧ p.2.bytes ≠ []) = dirOf (filled post) := by
      rw [dirOf, filter_map, filled, dirOf]
      congr 1
      refine filter_congr (fun a ha => ?_)
      have := (pairwise_cons.1 hgp).1 a ha
      simp [this]
    have hsplit : (dirOf (pre ++ g :: post)).filter (fun p => g.id < p.1 ∧ p.2.bytes ≠ []) =
        (dirOf pre).filter (fun p => g.id < p.1 ∧ p.2.bytes ≠ []) ++
          (dirOf post).filter (fun p => g.id < p.1 ∧ p.2.bytes ≠ []) := by
      simp [dirOf]
    rw [hsplit, hpre, hpost, nil_append, dirOf, length_map]
  -- the file ends behind the record if the record is the last one
  have hend : g.file.bytes.length = (writeAll record (g.records.take k)).length + headerSize + (command e).length ↔
      g.records.length = k + 1 := by
    obtain ⟨hlt, rfl⟩ := List.getElem?_eq_some_iff.1 hk
    have hsplit : writeAll record g.records = writeAll record (g.records.take k) ++
        (record g.records[k] ++ writeAll record (g.records.drop (k + 1))) := by
      rw [← writeAll_cons, ← drop_eq_getElem_cons hlt, ← writeAll_append, take_append_drop]
    have hlen : g.file.bytes.length = (writeAll record (g.records.take k)).length + headerSize +
        (command g.records[k]).length + (writeAll record (g.records.drop (k + 1))).length := by
      rw [Segment.file, hsplit, length_append, length_append, length_record]
      omega
    rw [hlen]
    constructor
    · intro heq
      have hnil : writeAll record (g.records.drop (k + 1)) = [] := eq_nil_of_length_eq_zero (by omega)
      have := drop_eq_nil_iff.1 (writeAll_record_eq_nil.1 hnil)
      omega
    · intro heq
      rw [drop_eq_nil_of_le (by omega)]
      simp
  unfold SegmentLog.cutsCleanly
  rw [hloc, hat]
  dsimp only
  rw [hdir, hlater, hfile, decide_eq_true_iff, hend]

lemma crashed_prefix (h : Tracked l gs d w) {n : ℕ} (hn : l.baseIndex < n) (hw : n ≤ w.length)
    (hc : l.cutsCleanly n) (k : ℕ) :
    ∃ gs' m, l.crashed n k = dirOf gs' ∧ WholeDir gs' d ∧ recordsOf gs' = (recordsOf gs).take m ∧ n ≤ d + m ∧
      d + m ≤ w.length := by
  have hwhole := h.wholeDir
  have hdw : d ≤ w.length := h.kept.dropped.trans h.kept.base
  have hlen := h.kept.length_records
  cases k with
  | zero =>
    refine ⟨gs, (recordsOf gs).length, ?_, hwhole, by rw [take_length], by omega, by omega⟩
    exact h.kept.disk.dir
  | succ m =>
    obtain ⟨pre, g, post, k, e, hgs, hk, hnk, hloc, hat⟩ := h.kept.record_at hn hw
    have hklt : k < g.records.length := (List.getElem?_eq_some_iff.1 hk).1
    have ho : Ordered (pre ++ g :: post) := by rw [← hgs]; exact h.kept.disk.ordered
    rw [h.cutsCleanly_iff hgs hk hloc hat] at hc
    -- either everything is still there, or nothing behind the cut
    have hrec : ∃ j, recordsOf (pre ++ g.cut (k + 1) :: post.drop m) = (recordsOf gs).take j ∧ n ≤ d + j ∧
        d + j ≤ w.length := by
      have hcut : recordsOf (post.drop m) = [] →
          recordsOf (pre ++ g.cut (k + 1) :: post.drop m) = (recordsOf gs).take (n - d) := by
        intro hnil
        rw [hgs, recordsOf_append, recordsOf_cons, recordsOf_append, recordsOf_cons, hnil, append_nil,
          take_append, take_of_length_le (by omega), show n - d - (recordsOf pre).length = k + 1 by omega,
          take_append_of_le_length hklt]
        rfl
      rcases hc with h0 | ⟨h1, hlast⟩
      · have hnil : recordsOf (post.drop m) = [] := by
          have hall := recordsOf_of_filled h0
          rw [← take_append_drop m post, recordsOf_append] at hall
          exact (append_eq_nil_iff.1 hall).2
        exact ⟨n - d, hcut hnil, by omega, by omega⟩
      · rcases filled_split h1 m with htake | hdrop
        · refine ⟨(recordsOf gs).length, ?_, by omega, by omega⟩
          have hsame : (g.cut (k + 1)).records = g.records := by
            rw [Segment.cut, ← hlast, take_length]
          have hpost : recordsOf (post.drop m) = recordsOf post := by
            conv_rhs => rw [← take_append_drop m post, recordsOf_append, htake, nil_append]
          rw [take_length, hgs, recordsOf_append, recordsOf_cons, recordsOf_append, recordsOf_cons, hsame, hpost]
        · exact ⟨n - d, hcut hdrop, by omega, by omega⟩
    obtain ⟨j, hj, hnj, hjw⟩ := hrec
    refine ⟨pre ++ g.cut (k + 1) :: post.drop m, j, h.crashed_eq hgs hk hloc hat m, ⟨?_, ?_, ?_, ?_⟩, hj, hnj, hjw⟩
    · refine List.Pairwise.sublist ?_ (Kept.ordered_cut ho (k + 1))
      exact (List.Sublist.refl pre).append ((drop_sublist m post).cons_cons _)
    · intro a ha
      rcases mem_append.1 ha with ha | ha
      · exact hwhole.synced a (by rw [hgs]; exact mem_append_left _ ha)
      · rcases mem_cons.1 ha with rfl | ha
        · have := hwhole.synced g (by rw [hgs]; simp)
          simp only [Segment.cut, length_take]
          omega
        · exact hwhole.synced a (by rw [hgs]; exact mem_append_right _ (mem_cons_of_mem _ (mem_of_mem_drop ha)))
    · intro x hx
      rw [hj] at hx
      exact hwhole.storable x (mem_of_mem_take hx)
    · intro i x hx
      rw [hj, getElem?_take] at hx
      split_ifs at hx
      exact hwhole.numbered i x hx

end Tracked

lemma WholeDir.consecutive {gs : List (Segment E)} {d : ℕ} (h : WholeDir gs d) :
    (recordsOf gs).IsChain (fun a b => index b = index a + 1) := by
  refine isChain_iff_getElem.2 (fun i hi => ?_)
  rw [h.numbered i _ (getElem?_eq_getElem (by omega)), h.numbered (i + 1) _ (getElem?_eq_getElem hi)]
  omega

/-- **A clean cut is crash-consistent.** -/
theorem truncation_crash {gs : List (Segment E)} {d : ℕ} (hg : WholeDir gs d) (fsync : Bool) (ops : List (DiskOp E))
    (h : usable gs fsync ops) (n k : ℕ) (hn : (used gs fsync ops).baseIndex < n)
    (hw : n ≤ (used gs fsync ops).lastIndex) (hc : (used gs fsync ops).cutsCleanly n) :
    let l := used gs fsync ops
    let before : SegmentLog E := SegmentLog.openDir l.dir
    let after : SegmentLog E := SegmentLog.openDir (l.crashed n k)
    after.entries.IsChain (fun a b => index b = index a + 1) ∧ after.entries <+: before.entries ∧
      (∀ e ∈ before.entries, index e ≤ n → e ∈ after.entries) ∧
      ∀ i, l.baseIndex < i → i ≤ n → after.get i = l.get i := by
  intro l before after
  obtain ⟨gs', d', w, ht⟩ := used_consistent hg h
  have hlast : l.lastIndex = w.length := ht.kept.last
  obtain ⟨gs'', m, hdir, hwhole, hrec, hnm, hmw⟩ := ht.crashed_prefix hn (by rw [← hlast]; exact hw) hc k
  have hbefore : before.entries = recordsOf gs' := by
    have hdir : l.dir = dirOf gs' := ht.kept.disk.dir
    show (SegmentLog.openDir l.dir : SegmentLog E).entries = _
    rw [hdir]
    exact (openDir_onDisk ht.wholeDir.ordered ht.wholeDir.synced ht.wholeDir.readable).disk.entries
  have hopen := openDir_onDisk hwhole.ordered hwhole.synced hwhole.readable
  have hafter : after = SegmentLog.openDir (dirOf gs'') := congrArg SegmentLog.openDir hdir
  have hentries : after.entries = (recordsOf gs').take m := by rw [hafter, hopen.disk.entries, hrec]
  refine ⟨?_, ?_, ?_, ?_⟩
  · rw [hentries, ← hrec]
    exact hwhole.consecutive
  · rw [hentries, hbefore]
    exact take_prefix _ _
  · intro e he hle
    rw [hbefore] at he
    rw [hentries]
    obtain ⟨i, hi⟩ := mem_iff_getElem?.1 he
    have hidx := ht.wholeDir.numbered i e hi
    refine mem_iff_getElem?.2 ⟨i, ?_⟩
    rw [getElem?_take, if_pos (by omega)]
    exact hi
  · intro i hi hle
    have hd : d' ≤ l.baseIndex := ht.kept.dropped
    have hlen := ht.kept.length_records
    have hcount : (recordsOf gs'').length = m := by rw [hrec, length_take]; omega
    obtain ⟨hb, hl⟩ := hwhole.opened (by
      intro hnil
      rw [hnil, length_nil] at hcount
      omega)
    rw [← hafter] at hb hl
    have hdrop : (w.take (d' + m)).drop d' = recordsOf gs'' := by
      rw [hrec, ht.kept.records, drop_take, Nat.add_sub_cancel_left]
    have hnum : ∀ i e, (w.take (d' + m))[i]? = some e → index e = i + 1 := by
      intro i e he
      rw [getElem?_take] at he
      split_ifs at he
      exact ht.kept.numbered i e he
    have hget := SegmentLog.get_of (l := after) (w := w.take (d' + m)) (by rw [hb, hdrop, hentries, hrec])
      (by rw [hl, length_take, hcount]; omega) hnum (i := i) (by omega)
    rw [hget, SegmentLog.get_of ht.kept.entries ht.kept.last ht.kept.numbered hi, getElem?_take,
      if_pos (by omega)]

/-- two segments; the cut keeps the first one whole, and the crash comes before the second is deleted -/
theorem truncation_crash_two :
    let gs : List (Segment RawEntry) := [⟨1, [⟨1, 1, [65]⟩], 1⟩, ⟨2, [⟨1, 2, [66]⟩, ⟨1, 3, [67]⟩], 2⟩]
    (SegmentLog.openDir ((used gs true []).crashed 1 1) : SegmentLog RawEntry).get 1 = some ⟨1, 1, [65]⟩ := by
  intro gs
  have hg : WholeDir gs 0 := by
    refine ⟨by simp [gs, Ordered], by simp [gs], by decide, fun i e he => ?_⟩
    match i, he with
    | 0, he => cases he; rfl
    | 1, he => cases he; rfl
    | 2, he => cases he; rfl
    | i + 3, he => simp [gs] at he
  refine ((truncation_crash hg true [] rfl 1 1 ?_ ?_ ?_).2.2.2 1 ?_ le_rfl).trans ?_
  all_goals decide +kernel

/-- **A crash between two deletions leaves a hole.** -/
theorem crash_leaves_hole :
    let gs : List (Segment RawEntry) := [⟨1, [⟨1, 1, [65]⟩], 1⟩, ⟨2, [⟨1, 2, [66]⟩], 1⟩, ⟨3, [⟨1, 3, [67]⟩], 1⟩]
    (used gs true []).truncateOps 1 = [.ftruncate 1 25, .unlink 2, .unlink 3] ∧
      (SegmentLog.openDir ((used gs true []).crashed 1 2) : SegmentLog RawEntry).entries =
        [⟨1, 1, [65]⟩, ⟨1, 3, [67]⟩] := by
  decide +kernel

end MaxRedis.Storage

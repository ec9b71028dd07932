/-
Two generations of the write-ahead log: append, crash, `Open`, append, `Open`.

The crash leaves any number of bytes of the last segment file.
-/
import MaxRedis.Storage.WalDisk

namespace MaxRedis.Storage

open Bytes WalEntry List

variable {E : Type} [WalEntry E] {last n m : ℕ} {gs : List (Segment E)}

namespace WalDir

def bytes (d : WalDir) : List UInt8 := d.discoverSegments.flatMap (fun id => (d.file id).bytes)

def cutLast (d : WalDir) (n : ℕ) : WalDir :=
  match d.discoverSegments.getLast? with
  | none => d
  | some id => d.set id ⟨(d.file id).bytes.take n, ((d.file id).bytes.take n).length⟩

end WalDir

def SegmentLog.appendAll (l : SegmentLog E) (es : List (E × Bool)) : SegmentLog E :=
  es.foldl (fun l x => l.append x.1 x.2) l

def numbered : ℕ → List E → List E
  | _, [] => []
  | last, e :: es => withIndex e (last + 1) :: numbered (last + 1) es

def written (es : List (E × Bool)) : SegmentLog E := (SegmentLog.openDir ([] : WalDir)).appendAll es

def reopened (es : List (E × Bool)) (n : ℕ) : SegmentLog E := SegmentLog.openDir ((written es).dir.cutLast n)

/-- a command that `Append` can store: the scan takes an empty one for the end of the log, and the header has 32 bits
for its length and 64 for the term -/
def Fits (e : E) : Prop := command e ≠ [] ∧ (command e).length < 2 ^ 32 ∧ term e < 2 ^ 64

instance (e : E) : Decidable (Fits e) := inferInstanceAs (Decidable (_ ∧ _ ∧ _))

lemma SegmentLog.scanSegment_dir (l : SegmentLog E) (id : ℕ) : (l.scanSegment id).dir = l.dir := by
  have hstep : ∀ (t t' : SegmentLog E × ℕ) (bs rest : List UInt8), scanStep id t bs = some (t', rest) →
    t'.1.dir = t.1.dir := by
    intro t t' bs rest h
    unfold scanStep at h
    split at h
    · simp at h
    · cases h; rfl
  have hkeep : ∀ (t t' : SegmentLog E × ℕ) (bs rest : List UInt8), scanStep id t bs = some (t', rest) →
      t.1.dir = l.dir → t'.1.dir = l.dir := fun t t' bs rest h ht => (hstep t t' bs rest h).trans ht
  exact scan_invariant (P := fun t => t.1.dir = l.dir) hkeep (t := (l, 0)) rfl _ _

lemma SegmentLog.openDir_dir (d : WalDir) : (openDir d : SegmentLog E).dir = d := by
  have hscan : ∀ (ids : List ℕ) (l : SegmentLog E), (ids.foldl scanSegment l).dir = l.dir := by
    intro ids
    induction ids with
    | nil => intro l; rfl
    | cons _ _ ih => intro l; rw [foldl_cons, ih, scanSegment_dir]
  have hadj : ∀ l : SegmentLog E, l.adjustBase.dir = l.dir := by
    intro l
    obtain ⟨b, hb⟩ := adjustBase_eq l
    rw [hb]
  unfold openDir
  split
  · rw [hadj, hscan]
  · rw [hadj, hscan]

/-! ## Appending -/

lemma index_numbered {es : List E} :
    ∀ e ∈ numbered last es, last < index e ∧ index e ≤ last + es.length := by
  induction es generalizing last with
  | nil => intro e he; simp [numbered] at he
  | cons _ _ ih =>
    intro e he
    rcases mem_cons.1 he with rfl | he
    · simp
    · have := ih e he
      simp only [length_cons]
      omega

lemma readable_numbered {es : List E} (hfit : ∀ e ∈ es, Fits e) (hcount : last + es.length < 2 ^ 64) :
    Readable last (numbered last es) := by
  induction es generalizing last with
  | nil => exact ⟨by simp [numbered], by simp [numbered], List.Pairwise.nil⟩
  | cons a es ih =>
    have hrest : Readable (last + 1) (numbered (last + 1) es) := ih (fun e he => hfit e (mem_cons_of_mem _ he))
      (by simp only [length_cons] at hcount; omega)
    obtain ⟨hne, hlen, hterm⟩ := hfit a (mem_cons_self ..)
    have ha : Storable (withIndex a (last + 1)) := by
      refine ⟨?_, by simpa using hterm, by simpa using hne, by simpa using hlen⟩
      simp only [length_cons] at hcount
      rw [index_withIndex]
      omega
    refine ⟨?_, fun e he => (index_numbered e he).1, pairwise_cons.2 ⟨fun e he => ?_, hrest.increasing⟩⟩
    · intro e he
      rcases mem_cons.1 he with rfl | he
      · exact ha
      · exact hrest.storable e he
    · rw [index_withIndex]; exact hrest.above e he

lemma Readable.concat {es fs : List E} (h : Readable last es)
    (k : Readable ((es.getLast?.map index).getD last) fs) : Readable last (es ++ fs) := by
  -- every entry of `es` is at most its last one
  have hle : ∀ a ∈ es, index a ≤ (es.getLast?.map index).getD last := by
    intro a ha
    obtain ⟨pre, b, rfl⟩ := (eq_nil_or_concat es).resolve_left (ne_nil_of_mem ha)
    rw [concat_eq_append] at *
    rw [getLast?_concat]
    rcases mem_append.1 ha with hp | hb
    · exact ((pairwise_append.1 h.increasing).2.2 a hp b (by simp)).le
    · rw [mem_singleton.1 hb]; exact le_rfl
  refine ⟨fun e he => ?_, fun e he => ?_, ?_⟩
  · exact (mem_append.1 he).elim (h.storable e) (k.storable e)
  · rcases mem_append.1 he with he | he
    · exact h.above e he
    · refine lt_of_le_of_lt ?_ (k.above e he)
      cases hl : es.getLast? with
      | none => exact le_rfl
      | some a => exact (h.above a (mem_of_getLast? hl)).le
  · exact pairwise_append.2 ⟨h.increasing, k.increasing, fun a ha b hb => lt_of_le_of_lt (hle a ha) (k.above b hb)⟩

lemma OnDisk.appendAll {l : SegmentLog E} (h : OnDisk l gs) (es : List (E × Bool)) :
    ∃ gs', OnDisk (l.appendAll es) gs' ∧ recordsOf gs' = recordsOf gs ++ numbered l.lastIndex (es.map Prod.fst) := by
  induction es generalizing l gs with
  | nil => exact ⟨gs, h, by simp [numbered]⟩
  | cons x _ ih =>
    obtain ⟨pre, g, tail, hopen, htail, hdisk⟩ := h.append x.1 x.2
    have hw : l.persistent = true → l.lastIndex = 0 ∨ l.writer.isSome := by
      intro _
      rcases h.writer with ⟨-, -, h0⟩ | ⟨_, _, _, _, hw⟩
      · exact Or.inl h0
      · exact Or.inr (by rw [hw]; rfl)
    have hlast : (l.append x.1 x.2).lastIndex = l.lastIndex + 1 := by
      rw [(SegmentLog.append_pushed l x.1 x.2 hw).last, index_withIndex]
    have hrec : recordsOf (pre ++ [g.add (withIndex x.1 (l.lastIndex + 1)) (x.2 && l.fsyncPerAppend)] ++ tail) =
        recordsOf gs ++ [withIndex x.1 (l.lastIndex + 1)] := by
      have hempty : recordsOf tail = [] := by rcases htail with rfl | rfl <;> rfl
      have hold : recordsOf (pre ++ [g]) = recordsOf gs := by rw [← hopen, OnDisk.recordsOf_opened]
      rw [← hold]
      simp [hempty, Segment.add]
    obtain ⟨gs', hdisk', hrec'⟩ := ih hdisk
    refine ⟨gs', hdisk', ?_⟩
    rw [hrec', hrec, hlast]
    simp [numbered]

/-! ## The crash -/

lemma WalDir.bytes_eq {d : WalDir} (ho : d.Pairwise (fun a b => a.1 < b.1)) :
    d.bytes = d.flatMap (fun p => p.2.bytes) := by
  rw [WalDir.bytes, WalDir.discoverSegments_eq ho, flatMap_map]
  exact flatMap_congr (fun p hp => by rw [WalDir.file_of_mem ho hp])

lemma take_records {pre rs : List E}
    (h : writeAll record pre ++ (writeAll record rs).take n = writeAll record ((pre ++ rs).take m)) :
    (writeAll record rs).take n = writeAll record (rs.take (m - pre.length)) := by
  rcases Nat.lt_or_ge m pre.length with hm | hm
  · -- an earlier segment would have lost a record
    have hsplit : writeAll record pre = writeAll record (pre.take m) ++ writeAll record (pre.drop m) := by
      rw [← writeAll_append, take_append_drop]
    rw [take_append_of_le_length hm.le, hsplit, append_assoc, append_right_eq_self] at h
    have hnil : (writeAll record (pre.drop m)).length = 0 := by rw [(append_eq_nil_iff.1 h).1]; rfl
    have hlen := length_le_writeAll (α := E) record_pos (pre.drop m)
    rw [length_drop] at hlen
    omega
  · rw [take_append, take_of_length_le hm, writeAll_append] at h
    exact append_cancel_left h

lemma cutLast_dirOf (ho : Ordered gs) (hs : ∀ g ∈ gs, g.synced ≤ g.records.length)
    (h : ((dirOf gs).cutLast n).bytes = writeAll record ((recordsOf gs).take m)) :
    ∃ gs', (dirOf gs).cutLast n = dirOf gs' ∧ Ordered gs' ∧ (∀ g ∈ gs', g.synced ≤ g.records.length) ∧
      recordsOf gs' <+: recordsOf gs := by
  rcases eq_nil_or_concat gs with rfl | ⟨pre, g, rfl⟩
  · exact ⟨[], rfl, ho, hs, prefix_refl _⟩
  · rw [concat_eq_append] at *
    have hfile : (dirOf (pre ++ [g])).file g.id = g.file := file_dirOf ho (by simp)
    have hlast : ((pre ++ [g]).map Segment.id).getLast? = some g.id := by simp
    have hcut : (dirOf (pre ++ [g])).cutLast n =
        dirOf pre ++ [(g.id, ⟨g.file.bytes.take n, (g.file.bytes.take n).length⟩)] := by
      unfold WalDir.cutLast
      rw [discoverSegments_dirOf ho, hlast]
      dsimp only
      rw [hfile, set_last ho]
    -- the ids are those of before, so the directory's bytes are those of the files in order
    have hids : (dirOf pre ++ [(g.id, (⟨g.file.bytes.take n, (g.file.bytes.take n).length⟩ : SegFile))]).Pairwise
        (fun a b => a.1 < b.1) := by
      have hpair : (dirOf (pre ++ [g])).Pairwise (fun a b => a.1 < b.1) := pairwise_map.2 ho
      rw [dirOf, map_append, pairwise_append] at hpair
      refine pairwise_append.2 ⟨hpair.1, pairwise_singleton _ _, fun a ha b hb => ?_⟩
      rw [mem_singleton.1 hb]
      exact hpair.2.2 a ha (g.id, g.file) (by simp)
    rw [hcut, WalDir.bytes_eq hids, flatMap_append, recordsOf_append] at h
    have hpre : (dirOf pre).flatMap (fun p => p.2.bytes) = writeAll record (recordsOf pre) := by
      simp [dirOf, recordsOf, writeAll, flatMap_map, flatMap_assoc, Segment.file]
    have hrec : recordsOf [g] = g.records := by simp
    rw [hpre, hrec] at h
    have htake := take_records (by simpa [Segment.file] using h)
    set k := m - (recordsOf pre).length
    refine ⟨pre ++ [⟨g.id, g.records.take k, (g.records.take k).length⟩], ?_, ?_, ?_, ?_⟩
    · rw [hcut]
      simp only [dirOf, map_append, map_cons, map_nil, Segment.file, htake, take_length]
    · exact pairwise_append.2 ⟨(pairwise_append.1 ho).1, pairwise_singleton _ _, fun a ha b hb => by
        rw [mem_singleton.1 hb]; exact ids_lt ho a ha⟩
    · intro a ha
      rcases mem_append.1 ha with ha | ha
      · exact hs a (by simp [ha])
      · rw [mem_singleton.1 ha]
    · rw [recordsOf_append, recordsOf_append]
      refine (prefix_append_right_inj _).2 ?_
      simpa using take_prefix k g.records

/-! ## Recovery -/

/-- **Recover, append, recover.** -/
theorem recover_append_recover (es es' : List (E × Bool)) (n : ℕ) (hfit : ∀ x ∈ es ++ es', Fits x.1)
    (hcount : es.length + es'.length < 2 ^ 64)
    (hcut : es' = [] ∨ ∃ m, ((written es).dir.cutLast n).bytes = writeAll record ((written es).entries.take m)) :
    (SegmentLog.openDir ((reopened es n).appendAll es').dir : SegmentLog E).entries =
      (reopened es n).entries ++ numbered (reopened es n).lastIndex (es'.map Prod.fst) := by
  rcases hcut with rfl | ⟨m, hcut⟩
  · have hdir : ((reopened es n).appendAll []).dir = (written es).dir.cutLast n := SegmentLog.openDir_dir _
    rw [hdir]
    simp [numbered, reopened]
  obtain ⟨gs, hdisk, hrec⟩ := (OnDisk.fresh (E := E)).appendAll es
  have hdisk : OnDisk (written es) gs := hdisk
  have hrec : recordsOf gs = numbered 0 (es.map Prod.fst) := hrec
  have hfits : ∀ xs : List (E × Bool), xs ⊆ es ++ es' → ∀ e ∈ xs.map Prod.fst, Fits e := by
    intro xs hxs e he
    obtain ⟨x, hx, rfl⟩ := mem_map.1 he
    exact hfit x (hxs hx)
  have hread : Readable 0 (recordsOf gs) := by
    rw [hrec]
    exact readable_numbered (hfits es (subset_append_left ..)) (by rw [length_map]; omega)
  -- the first recovery
  rw [hdisk.dir, hdisk.entries] at hcut
  obtain ⟨gs', hdir, ho', hs', rest, hpre⟩ := cutLast_dirOf hdisk.ordered hdisk.synced hcut
  rw [← hpre] at hread
  have hopen : Opened (reopened es n) gs' := by
    rw [reopened, hdisk.dir, hdir]
    exact openDir_onDisk ho' hs' hread.left
  -- its last index is one of the first log's
  have hlast : (reopened es n).lastIndex ≤ es.length := by
    rw [hopen.last]
    cases hl : (recordsOf gs').getLast? with
    | none => exact Nat.zero_le _
    | some a =>
      have ha : a ∈ numbered 0 (es.map Prod.fst) := by
        rw [← hrec, ← hpre]; exact mem_append_left _ (mem_of_getLast? hl)
      have hle := (index_numbered a ha).2
      rw [length_map] at hle
      simpa using hle
  -- the second one
  obtain ⟨gs'', hdisk'', hrec''⟩ := hopen.disk.appendAll es'
  have hread'' : Readable 0 (recordsOf gs'') := by
    rw [hrec'']
    refine hread.left.concat ?_
    rw [← hopen.last]
    exact readable_numbered (hfits es' (subset_append_right ..)) (by rw [length_map]; omega)
  have hagain := openDir_onDisk hdisk''.ordered hdisk''.synced hread''
  rw [hdisk''.dir, hagain.disk.entries, hrec'', hopen.disk.entries]

/-- two records, of which the crash leaves the first -/
theorem recover_append_recover_two :
    let es : List (RawEntry × Bool) := [(⟨1, 0, [65]⟩, false), (⟨1, 0, [66]⟩, false)]
    (reopened es 25).entries = [⟨1, 1, [65]⟩] ∧
      (SegmentLog.openDir ((reopened es 25).appendAll [(⟨1, 0, [67]⟩, false)]).dir : SegmentLog RawEntry).entries =
        (reopened es 25).entries ++ numbered (reopened es 25).lastIndex ([(⟨1, 0, [67]⟩, false)].map Prod.fst) :=
  ⟨by decide +kernel, recover_append_recover [((⟨1, 0, [65]⟩ : RawEntry), false), (⟨1, 0, [66]⟩, false)]
    [(⟨1, 0, [67]⟩, false)] 25 (by decide) (by simp) (Or.inr ⟨1, by decide +kernel⟩)⟩

/-- a torn header can happen to be completed by the next record: the bytes of the command [1] are those that follow -/
example : let es : List (RawEntry × Bool) := [(⟨1, 0, [1]⟩, false)]
    (SegmentLog.openDir ((reopened es 24).appendAll es).dir : SegmentLog RawEntry).entries =
      (reopened es 24).entries ++ numbered (reopened es 24).lastIndex (es.map Prod.fst) := by
  decide +kernel

/-- **A torn record hides everything appended after it.** -/
theorem torn_tail_loses :
    (SegmentLog.openDir ((reopened [((⟨1, 0, [65]⟩ : RawEntry), true)] 10).appendAll [(⟨1, 0, [66]⟩, true)]).dir :
        SegmentLog RawEntry).entries ≠ (reopened [(⟨1, 0, [65]⟩, true)] 10).entries ++
        numbered (reopened [((⟨1, 0, [65]⟩ : RawEntry), true)] 10).lastIndex [⟨1, 0, [66]⟩] := by
  decide +kernel

end MaxRedis.Storage

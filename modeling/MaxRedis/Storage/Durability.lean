/-
What of a node's log a crash leaves, along a run of the cluster.

`SubmitEntry` appends without a sync and leaves it to `Persist`, which finds the writer's buffer empty and does nothing
(`OnDisk.persist_eq`).
-/
import MaxRedis.Raft.NodeSteps
import MaxRedis.Storage.WalDisk

namespace MaxRedis.Storage

open Bytes Raft WalEntry List

/-! ## Segments that only grow -/

section Disk
variable {E : Type} [WalEntry E] {l : SegmentLog E} {gs gs' : List (Segment E)} {e : E}

def Durable (l : SegmentLog E) (e : E) : Prop :=
  ∃ id pre suf, (l.dir.file id).bytes = pre ++ record e ++ suf ∧ (pre ++ record e).length ≤ (l.dir.file id).synced

lemma not_durable (h : ∀ p ∈ l.dir, p.2.synced = 0) (e : E) : ¬ Durable l e := by
  rintro ⟨id, pre, suf, -, hle⟩
  have hzero : (l.dir.file id).synced = 0 := by
    unfold WalDir.file
    cases hf : l.dir.lookup id with
    | none => rfl
    | some f =>
      obtain ⟨a, b, hd, -⟩ := lookup_eq_some_iff.1 hf
      exact h (id, f) (by rw [hd]; simp)
  have hpos := record_pos e
  rw [hzero, length_append] at hle
  omega

def Grows (gs gs' : List (Segment E)) : Prop :=
  ∀ g ∈ gs, ∃ g' ∈ gs', g'.id = g.id ∧ g.records <+: g'.records ∧ g.synced ≤ g'.synced

lemma Grows.refl (gs : List (Segment E)) : Grows gs gs := fun g hg => ⟨g, hg, rfl, prefix_refl _, le_rfl⟩

lemma Grows.trans {a b c : List (Segment E)} (h : Grows a b) (k : Grows b c) : Grows a c := by
  intro g hg
  obtain ⟨g1, hg1, hid1, hr1, hs1⟩ := h g hg
  obtain ⟨g2, hg2, hid2, hr2, hs2⟩ := k g1 hg1
  exact ⟨g2, hg2, hid2.trans hid1, hr1.trans hr2, hs1.trans hs2⟩

def Holds (gs : List (Segment E)) (id : ℕ) (e : E) : Prop := ∃ g ∈ gs, g.id = id ∧ e ∈ g.records

def HoldsSynced (gs : List (Segment E)) (e : E) : Prop := ∃ g ∈ gs, e ∈ g.records.take g.synced

lemma Holds.grows {id : ℕ} (h : Holds gs id e) (k : Grows gs gs') : Holds gs' id e := by
  obtain ⟨g, hg, hid, he⟩ := h
  obtain ⟨g', hg', hid', hr, -⟩ := k g hg
  exact ⟨g', hg', hid'.trans hid, hr.subset he⟩

lemma HoldsSynced.grows (h : HoldsSynced gs e) (k : Grows gs gs') : HoldsSynced gs' e := by
  obtain ⟨g, hg, he⟩ := h
  obtain ⟨g', hg', -, ⟨t, ht⟩, hs⟩ := k g hg
  refine ⟨g', hg', ?_⟩
  have hsub : g.records.take g.synced <+: g'.records.take g'.synced := by
    rw [← ht]
    have h1 : g.records.take g.synced <+: g.records.take g'.synced := take_prefix_take_left hs
    exact h1.trans (by rw [take_append]; exact prefix_append _ _)
  exact hsub.subset he

def FullySynced (gs : List (Segment E)) : Prop := ∀ g ∈ gs, g.synced = g.records.length

lemma FullySynced.holds (h : FullySynced gs) (he : e ∈ recordsOf gs) : HoldsSynced gs e := by
  obtain ⟨g, hg, heg⟩ := mem_flatMap.1 he
  exact ⟨g, hg, by rw [h g hg, take_length]; exact heg⟩

namespace OnDisk

section
variable (h : OnDisk l gs)
include h

lemma durable {e : E} (he : HoldsSynced gs e) : Durable l e := by
  obtain ⟨g, hg, hmem⟩ := he
  obtain ⟨a, b, hab⟩ := append_of_mem hmem
  have hfile : l.dir.file g.id = g.file := by rw [h.dir]; exact file_dirOf h.ordered hg
  have hall : writeAll record g.records =
      writeAll record (g.records.take g.synced) ++ writeAll record (g.records.drop g.synced) := by
    rw [← writeAll_append, take_append_drop]
  refine ⟨g.id, writeAll record a, writeAll record b ++ writeAll record (g.records.drop g.synced), ?_, ?_⟩
  · rw [hfile]
    show writeAll record g.records = _
    rw [hall, hab]
    simp
  · rw [hfile]
    show _ ≤ (writeAll record (g.records.take g.synced)).length
    rw [hab]
    simp only [writeAll_append, writeAll_cons, length_append]
    omega

lemma fullySynced (hd : ∀ p ∈ l.dir, p.2.synced = p.2.bytes.length) : FullySynced gs := by
  intro g hg
  have hfile := hd (g.id, g.file)
    (by rw [h.dir]; exact mem_map_of_mem (f := fun g : Segment E => (g.id, g.file)) hg)
  have hsplit : (writeAll record (g.records.take g.synced)).length +
    (writeAll record (g.records.drop g.synced)).length =
      (writeAll record g.records).length := by
    rw [← length_append, ← writeAll_append, take_append_drop]
  have hrest := length_le_writeAll (α := E) record_pos (g.records.drop g.synced)
  have hle := h.synced g hg
  simp only [Segment.file] at hfile
  rw [length_drop] at hrest
  omega

lemma unique {g g' : Segment E} (hg : g ∈ gs) (hg' : g' ∈ gs) (hid : g.id = g'.id) : g = g' := by
  have hnodup : (gs.map Segment.id).Nodup := pairwise_map.2 (h.ordered.imp (fun hlt => hlt.ne))
  exact inj_on_of_nodup_map hnodup hg hg' hid

lemma canAppend : l.persistent = true → l.lastIndex = 0 ∨ l.writer.isSome := by
  intro _
  rcases h.writer with ⟨-, -, h0⟩ | ⟨_, _, -, -, hw⟩
  · exact Or.inl h0
  · exact Or.inr (by rw [hw]; rfl)

theorem append_grows (e : E) (f : Bool) : ∃ gs', OnDisk (l.append e f) gs' ∧ Grows gs gs' ∧
      ∃ g ∈ gs', g.id = l.currentSegmentId ∧ withIndex e (l.lastIndex + 1) ∈ g.records ∧
        ((f && l.fsyncPerAppend) = true → g.synced = g.records.length ∧ (FullySynced gs → FullySynced gs')) := by
  obtain ⟨pre, g, tail, hg, htail, hdisk⟩ := h.append e f
  set e' := withIndex e (l.lastIndex + 1)
  set sync := f && l.fsyncPerAppend
  -- the segment written is the current one, and the ones before it are those of the log
  have hcur : g.id = l.currentSegmentId := by
    rcases h.writer with ⟨rfl, -, -⟩ | ⟨pre', g', rfl, hid, -⟩
    · have := append_inj' (show ([] : List (Segment E)) ++ [⟨l.currentSegmentId, [], 0⟩] = pre ++ [g] from hg) rfl
      rw [← singleton_inj.1 this.2]
    · rw [opened_of_ne (by simp)] at hg
      rw [← singleton_inj.1 (append_inj' hg rfl).2, hid]
  have hsub : ∀ a ∈ gs, a ∈ pre ∨ a = g := by
    intro a ha
    have hne : gs ≠ [] := ne_nil_of_mem ha
    rw [opened_of_ne hne] at hg
    rw [hg] at ha
    simpa using ha
  have hpre : ∀ a ∈ pre, a ∈ gs := by
    intro a ha
    by_cases hne : gs = []
    · have hlen := congrArg length hg
      rw [opened, if_pos hne] at hlen
      simp only [length_singleton, length_append] at hlen
      have : pre = [] := length_eq_zero_iff.1 (by omega)
      rw [this] at ha; simp at ha
    · rw [opened_of_ne hne] at hg; rw [hg]; simp [ha]
  have hmem : g.add e' sync ∈ pre ++ [g.add e' sync] ++ tail := by simp
  refine ⟨_, hdisk, fun a ha => ?_, g.add e' sync, hmem,
    hcur, by simp [Segment.add], fun hsync => ⟨?_, fun hfull => ?_⟩⟩
  · rcases hsub a ha with hp | rfl
    · exact ⟨a, by simp [hp], rfl, prefix_refl _, le_rfl⟩
    · have hs := h.synced a ha
      refine ⟨_, hmem, rfl, prefix_append _ _, ?_⟩
      simp only [Segment.add]
      split_ifs
      · omega
      · exact le_rfl
  · simp [Segment.add, hsync]
  · intro a ha
    rcases mem_append.1 ha with ha | ha
    · rcases mem_append.1 ha with ha | ha
      · exact hfull a (hpre a ha)
      · rw [mem_singleton.1 ha]; simp [Segment.add, hsync]
    · rcases htail with rfl | rfl
      · simp at ha
      · rw [mem_singleton.1 ha]; rfl

end

end OnDisk

/-! ## What a crash leaves -/

lemma OnDisk.recovered (h : OnDisk l gs) (hr : Readable 0 l.entries) (he : HoldsSynced gs e) :
    index e ≤ (SegmentLog.openDir (E := E) l.dir.crash).lastIndex := by
  have hsub : List.Sublist (recordsOf (gs.map Segment.crash)) (recordsOf gs) := by
    have hone : ∀ gs : List (Segment E), List.Sublist (recordsOf (gs.map Segment.crash)) (recordsOf gs) := by
      intro gs
      induction gs with
      | nil => exact List.Sublist.refl _
      | cons _ _ ih => exact (take_sublist _ _).append ih
    exact hone gs
  rw [h.entries] at hr
  have hr' : Readable 0 (recordsOf (gs.map Segment.crash)) :=
    ⟨fun x hx => hr.storable x (hsub.subset hx), fun x hx => hr.above x (hsub.subset hx), hr.increasing.sublist hsub⟩
  have ho : Ordered (gs.map Segment.crash) := pairwise_map.2 h.ordered
  have hs : ∀ g ∈ gs.map Segment.crash, g.synced ≤ g.records.length := by
    intro g hg
    obtain ⟨g0, hg0, rfl⟩ := mem_map.1 hg
    have := h.synced g0 hg0
    simp only [Segment.crash, length_take]
    omega
  have hlast := (openDir_onDisk ho hs hr').last
  rw [← crash_dirOf, ← h.dir] at hlast
  rw [hlast]
  -- the last record read has the largest index
  have hmem : e ∈ recordsOf (gs.map Segment.crash) := by
    obtain ⟨g, hg, heg⟩ := he
    exact mem_flatMap.2 ⟨g.crash, mem_map_of_mem (f := Segment.crash) hg, heg⟩
  obtain ⟨es, x, hes⟩ :=
    eq_nil_or_concat (recordsOf (gs.map Segment.crash)) |>.resolve_left (ne_nil_of_mem hmem)
  rw [concat_eq_append] at hes
  have hinc := hr'.increasing
  rw [hes] at hmem hinc ⊢
  simp only [getLast?_append, getLast?_singleton, Option.some_or, Option.map_some, Option.getD_some]
  rcases mem_append.1 hmem with hm | hm
  · exact ((pairwise_append.1 hinc).2.2 e hm x (by simp)).le
  · rw [mem_singleton.1 hm]

end Disk

/-! ## What a node does to its files -/

section Node
variable {N C : Type} [DecidableEq N] [CommandText N C]
variable {nd nd' : RaftNode N C (SegmentLog (LogEntry N C))} {gs : List (Segment (LogEntry N C))}

open RaftNode LawfulLog

lemma foldl_applyEntry_applied {es : List (LogEntry N C)} (hne : es ≠ [])
    (nd : RaftNode N C (SegmentLog (LogEntry N C))) : ∃ e ∈ es, (es.foldl applyEntry nd).lastApplied = e.index := by
  have hone : ∀ (nd : RaftNode N C (SegmentLog (LogEntry N C))) e, (nd.applyEntry e).lastApplied = e.index := by
    intro nd e
    unfold applyEntry
    split
    · split <;> rfl
    · rfl
  obtain ⟨pre, e, rfl⟩ := eq_nil_or_concat es |>.resolve_left hne
  refine ⟨e, by simp, ?_⟩
  rw [concat_eq_append, foldl_append]
  exact hone _ e

lemma flushApplyProgress_disk (h : OnDisk nd.log gs) : nd.flushApplyProgress.log = nd.log ∧
    nd.flushApplyProgress.applyProgress.file ≤ max nd.applyProgress.file nd.lastApplied := by
  have hflush : LogStorage.flush nd.log = nd.log := h.flush_eq
  unfold flushApplyProgress
  dsimp only
  split_ifs
  · exact ⟨hflush, le_max_right _ _⟩
  · exact ⟨rfl, le_max_right _ _⟩
  · exact ⟨rfl, le_max_left _ _⟩

lemma applyLoop_disk (fuel : ℕ) (h : OnDisk nd.log gs) (hw : nd.log.Whole) : (applyLoop fuel nd).log = nd.log ∧
    (applyLoop fuel nd).applyProgress.file ≤ max nd.applyProgress.file nd.log.lastIndex := by
  induction fuel generalizing nd with
  | zero => exact ⟨rfl, le_max_left _ _⟩
  | succ _ ih =>
    simp only [applyLoop]
    split_ifs with h1 h2
    · exact ⟨rfl, le_max_left _ _⟩
    · set es := LogStorage.getRange nd.log (nd.lastApplied + 1)
        (min applyBatchSize (nd.commitIndex - nd.lastApplied)) with hes
      obtain ⟨hlog, hprog, -⟩ := foldl_applyEntry_kept es nd
      obtain ⟨e, he, happlied⟩ := foldl_applyEntry_applied h2 nd
      -- the batch is a part of the log
      have hin : e.index ≤ nd.log.lastIndex := by
        obtain ⟨i, hi⟩ := mem_iff_getElem?.1 (SegmentLog.mem_getRange nd.log _ _ e he)
        have hidx : e.index = i + 1 := hw.index i e hi
        have hlen := (List.getElem?_eq_some_iff.1 hi).1
        rw [hidx, hw.last]
        omega
      have hdisk2 : OnDisk (es.foldl applyEntry nd).log gs := by rw [hlog]; exact h
      obtain ⟨hlog2, hfile2⟩ := flushApplyProgress_disk hdisk2
      have hlog3 : (es.foldl applyEntry nd).flushApplyProgress.log = nd.log := hlog2.trans hlog
      have hdisk3 : OnDisk (es.foldl applyEntry nd).flushApplyProgress.log gs := by rw [hlog3]; exact h
      obtain ⟨hlog4, hfile4⟩ := ih hdisk3 (by rw [hlog3]; exact hw)
      refine ⟨hlog4.trans hlog3, ?_⟩
      rw [hprog, happlied] at hfile2
      rw [hlog3] at hfile4
      omega
    · exact ⟨rfl, le_max_left _ _⟩

lemma settles_disk (hm : Settles nd nd') (h : OnDisk nd.log gs) (hw : nd.log.Whole) :
    nd'.log = nd.log ∧ nd'.applyProgress.file ≤ max nd.applyProgress.file nd.log.lastIndex := by
  induction hm with
  | refl => exact ⟨rfl, le_max_left _ _⟩
  | tail _ hlast ih =>
    obtain ⟨hlog, hfile⟩ := ih
    cases hlast with
    | keep hs => exact ⟨hs.log.trans hlog, by rw [hs.progress]; exact hfile⟩
    | commit => exact ⟨hlog, hfile⟩
    | persist =>
      refine ⟨?_, hfile⟩
      rw [hlog]; exact h.persist_eq
    | apply =>
      rename_i mid _
      have hdisk : OnDisk mid.log gs := by rw [hlog]; exact h
      obtain ⟨hlog2, hfile2⟩ := applyLoop_disk (mid.commitIndex + 1) hdisk (by rw [hlog]; exact hw)
      rw [hlog] at hlog2 hfile2
      exact ⟨hlog2, hfile2.trans (by omega)⟩

lemma fresh_whole (fsync : Bool) : SegmentLog.Whole ({ fsyncPerAppend := fsync } : SegmentLog (LogEntry N C)) :=
  ⟨rfl, rfl, rfl, nofun, fun _ => Or.inl rfl⟩

structure Later (l l' : SegmentLog (LogEntry N C)) (gs gs' : List (Segment (LogEntry N C))) : Prop where
  disk : OnDisk l' gs'
  grows : Grows gs gs'
  whole : l'.Whole
  fsync : l'.fsyncPerAppend = l.fsyncPerAppend

lemma Later.trans {a b c : SegmentLog (LogEntry N C)} {gs gs' gs'' : List (Segment (LogEntry N C))}
    (h : Later a b gs gs') (k : Later b c gs' gs'') : Later a c gs gs'' :=
  ⟨k.disk, h.grows.trans k.grows, k.whole, k.fsync.trans h.fsync⟩

lemma append_later {l : SegmentLog (LogEntry N C)} (h : OnDisk l gs) (hw : l.Whole) (e : LogEntry N C) (f : Bool) :
    ∃ gs', Later l (l.append e f) gs gs' ∧
      ∃ g ∈ gs', g.id = l.currentSegmentId ∧ withIndex e (l.lastIndex + 1) ∈ g.records ∧
        ((f && l.fsyncPerAppend) = true → g.synced = g.records.length ∧ (FullySynced gs → FullySynced gs')) := by
  obtain ⟨gs', hdisk, hgrows, hnew⟩ := h.append_grows e f
  exact ⟨gs', ⟨hdisk, hgrows, hw.append e f, (SegmentLog.append_pushed l e f h.canAppend).fsync⟩, hnew⟩

lemma turn_later (ht : Turn nd nd') (h : OnDisk nd.log gs) (hw : nd.log.Whole) :
    ∃ gs', Later nd.log nd'.log gs gs' := by
  cases ht with
  | settle hm =>
    have hlog := (settles_disk hm h hw).1
    exact ⟨gs, by rw [hlog]; exact h, Grows.refl gs, by rw [hlog]; exact hw, by rw [hlog]⟩
  | write e f hs =>
    obtain ⟨gs', hl, -⟩ := append_later h hw e f
    have hlog : nd'.log = nd.log.append e f := hs.log
    exact ⟨gs', by rw [hlog]; exact hl⟩
  | finalize _ mid before e after =>
    have hmid := (settles_disk before h hw).1
    obtain ⟨gs', hl, -⟩ := append_later (l := mid.log) (by rw [hmid]; exact h) (by rw [hmid]; exact hw) e true
    have hlog := (settles_disk after hl.disk hl.whole).1
    refine ⟨gs', ?_⟩
    rw [hlog, ← hmid]
    exact hl

end Node

/-! ## The runs of a node that writes its log alone -/

section Run
variable {N C : Type} [DecidableEq N] [CommandText N C]
variable {s : Cluster N C (SegmentLog (LogEntry N C))} {a : Action N C (SegmentLog (LogEntry N C))} {n : N}

open RaftNode Cluster

def ownWrites (n : N) (s : Cluster N C (SegmentLog (LogEntry N C))) (a : Action N C (SegmentLog (LogEntry N C))) :
    Bool :=
  match s.delivered a with
  | some (dst, .appendEntries req) => dst ≠ n || req.term < (s.nodes n).term
  | some (dst, .installSnapshot req) => dst ≠ n || req.term < (s.nodes n).term
  | _ =>
    match a with
    | .call m .createSnapshotIfNeeded => m ≠ n
    | .restart m _ => m ≠ n
    | _ => true

lemma step_turn (hok : ownWrites n s a = true) : Turn (s.nodes n) ((s.step a).nodes n) := by
  generalize hnd : (s.step a).nodes n = nd'
  have hstep := step_nodeStep s a n
  rw [hnd] at hstep
  cases hstep with
  | turn ht => exact ht
  | adopt _ hd heq =>
    simp only [ownWrites, hd, ne_eq, not_true_eq_false, decide_false, Bool.false_or, decide_eq_true_eq] at hok
    rw [heq]
    unfold onAppendEntries
    rw [if_pos hok]
    exact .settle .refl
  | install _ hd heq =>
    simp only [ownWrites, hd, ne_eq, not_true_eq_false, decide_false, Bool.false_or, decide_eq_true_eq] at hok
    rw [heq]
    unfold onInstallSnapshot
    rw [if_pos hok]
    exact .settle .refl
  | snapshot ha | restart _ ha => subst ha; simp [ownWrites, delivered] at hok

variable {gs : List (Segment (LogEntry N C))} (as : List (Action N C (SegmentLog (LogEntry N C))))

lemma run_later
    (hok : along (ownWrites n) s as = true) (h : OnDisk (s.nodes n).log gs) (hw : (s.nodes n).log.Whole) :
    ∃ gs', Later (s.nodes n).log ((run s as).nodes n).log gs gs' := by
  induction as generalizing s gs with
  | nil => exact ⟨gs, h, Grows.refl gs, hw, rfl⟩
  | cons _ _ ih =>
    simp only [along, Bool.and_eq_true] at hok
    obtain ⟨gs1, h1⟩ := turn_later (step_turn hok.1) h hw
    obtain ⟨gs2, h2⟩ := ih hok.2 h1.disk h1.whole
    exact ⟨gs2, h1.trans h2⟩

/-! ## Acknowledged writes -/

/-- **A membership change makes what was written before it durable.** -/
theorem submitEntry_durable (s : Cluster N C (SegmentLog (LogEntry N C))) (n : N) (gs : List (Segment (LogEntry N C)))
    (hdisk : OnDisk (s.nodes n).log gs) (hwhole : (s.nodes n).log.Whole)
    (hfsync : (s.nodes n).log.fsyncPerAppend = true) (hlead : (s.nodes n).role = .leader) (command : Command N C)
    (target : ClusterConfig N) (mid post : List (Action N C (SegmentLog (LogEntry N C))))
    (hok : along (ownWrites n) s (.call n (.submitEntry command) :: mid ++
      .call n (.beginConfigChange target) :: post) = true)
    (hlead' : ((run s (.call n (.submitEntry command) :: mid)).nodes n).role = .leader)
    (hstable : ((run s (.call n (.submitEntry command) :: mid)).nodes n).configState = .stable)
    (hseg : ((run s (.call n (.submitEntry command) :: mid)).nodes n).log.currentSegmentId =
      (s.nodes n).log.currentSegmentId) :
    Durable ((run s (.call n (.submitEntry command) :: mid ++ .call n (.beginConfigChange target) :: post)).nodes n).log
      ⟨(s.nodes n).term, (s.nodes n).log.lastIndex + 1, command⟩ := by
  set e : LogEntry N C := ⟨(s.nodes n).term, (s.nodes n).log.lastIndex + 1, command⟩ with he
  set s1 := s.step (.call n (.submitEntry command)) with hs1
  set s2 := run s1 mid with hs2
  have hrun2 : run s (.call n (.submitEntry command) :: mid) = s2 := rfl
  rw [hrun2] at hlead' hstable hseg
  set s3 := s2.step (.call n (.beginConfigChange target)) with hs3
  have hrun : run s (.call n (.submitEntry command) :: mid ++ .call n (.beginConfigChange target) :: post) =
    run s3 post := by
    rw [run_append, hrun2]; rfl
  rw [along_append, Bool.and_eq_true, hrun2] at hok
  simp only [along, Bool.and_eq_true] at hok
  obtain ⟨⟨-, hmid⟩, -, hpost⟩ := hok
  -- the call writes the record to the current segment
  have hlog1 : (s1.nodes n).log = (s.nodes n).log.append ⟨(s.nodes n).term, 0, command⟩ false := by
    have happ : (s.nodes n).submitAppend command =
        ({ s.nodes n with log := LogStorage.append (s.nodes n).log ⟨(s.nodes n).term, 0, command⟩ false },
          some (LogStorage.lastIndex (LogStorage.append (s.nodes n).log ⟨(s.nodes n).term, 0, command⟩ false))) := by
      unfold submitAppend
      rw [if_neg (by simp [hlead])]
    simp only [hs1, step, call, happ, spawn_nodes, setNode_self]
    rfl
  obtain ⟨gs1, h1, g1, hg1, hid1, hmem1, -⟩ := append_later hdisk hwhole ⟨(s.nodes n).term, 0, command⟩ false
  rw [← hlog1] at h1
  have hhold1 : Holds gs1 (s.nodes n).log.currentSegmentId e := ⟨g1, hg1, hid1, hmem1⟩
  obtain ⟨gs2, h2⟩ := run_later mid hmid h1.disk h1.whole
  have hhold2 := hhold1.grows h2.grows
  -- the membership change syncs this segment to its end
  have hlog3 : (s3.nodes n).log = (s2.nodes n).log.append ⟨(s2.nodes n).term, 0, .configChange target⟩ true := by
    simp only [hs3, step, call, setNode_self, beginConfigChange, hlead', hstable, ne_eq, not_true_eq_false, if_false]
    rfl
  have hsync : (true && (s2.nodes n).log.fsyncPerAppend) = true := by
    rw [Bool.true_and, h2.fsync, h1.fsync, hfsync]
  obtain ⟨gs3, h3, g3, hg3, hid3, -, hsynced⟩ :=
    append_later h2.disk h2.whole ⟨(s2.nodes n).term, 0, .configChange target⟩ true
  rw [← hlog3] at h3
  have hhold3 : HoldsSynced gs3 e := by
    obtain ⟨g, hg, hid, hmem⟩ := hhold2.grows h3.grows
    have hsame : g = g3 := h3.disk.unique hg hg3 (by rw [hid, hid3, hseg])
    exact ⟨g, hg, by rw [hsame, (hsynced hsync).1, take_length, ← hsame]; exact hmem⟩
  obtain ⟨gs4, h4⟩ := run_later post hpost h3.disk h3.whole
  rw [hrun]
  exact h4.disk.durable (hhold3.grows h4.grows)

def aloneLeads : Cluster Unit Unit (SegmentLog (LogEntry Unit Unit)) :=
  run (init (fun _ => {})) [.call () .bootstrapSingleNode]

def submitSections : List (Action Unit Unit (SegmentLog (LogEntry Unit Unit))) :=
  [.advance 0, .advance 0, .advance 0, .advance 0, .advance 0, .advance 0, .advance 0, .advance 0]

theorem submitEntry_durable_alone :
    Durable ((run aloneLeads (.call () (.submitEntry (.client ())) :: [] ++
      .call () (.beginConfigChange { version := 1 }) :: submitSections)).nodes ()).log ⟨1, 1, .client ()⟩ :=
  submitEntry_durable aloneLeads () [] OnDisk.fresh (fresh_whole true) rfl
  (by decide +kernel) (.client ()) { version := 1 } []
    submitSections (by decide +kernel) (by decide +kernel) (by decide +kernel) (by decide +kernel)

/-- **`SubmitEntry` returns OK and nothing is synced.** -/
theorem acknowledged_not_durable :
    let s := run aloneLeads (.call () (.submitEntry (.client ())) :: submitSections)
    (s.fibers[0]?).map Fiber.pc = some (.returned (.submitted ⟨.ok, 1⟩)) ∧
    (s.nodes ()).log.fsyncPerAppend = true ∧ (s.nodes ()).log.entries = [⟨1, 1, .client ()⟩] ∧
    ¬ Durable (s.nodes ()).log ⟨1, 1, .client ()⟩ :=
  ⟨by decide +kernel, by decide +kernel, by decide +kernel, not_durable (by decide +kernel) _⟩

/-! ## `apply.meta` -/

def isWrite : Action N C (SegmentLog (LogEntry N C)) → Bool
  | .call _ (.submitEntry _) => true
  | .call _ (.beginConfigChange _) => true
  | .tick _ _ => true
  | _ => false

/-- node `n` writes its log alone, and whenever it runs anything but a write, its segment files are synced to their
ends. Without a sync per append, no membership change is under way. -/
def walSynced (n : N) (s : Cluster N C (SegmentLog (LogEntry N C))) (a : Action N C (SegmentLog (LogEntry N C))) :
    Bool :=
  let nd := s.nodes n
  ownWrites n s a && (!s.actsOn n a || isWrite a ||
    (nd.log.dir.all (fun p => p.2.synced = p.2.bytes.length) && (nd.log.fsyncPerAppend || nd.configState = .stable)))

lemma isWrite_node (h : isWrite a = true) (n : N) :
    SameState (s.nodes n) ((s.step a).nodes n) ∨
    ∃ e f, SameState { s.nodes n with log := LogStorage.append (s.nodes n).log e f } ((s.step a).nodes n) := by
  have hrefl : ∀ nd : RaftNode N C (SegmentLog (LogEntry N C)), SameState nd nd := SameState.refl
  cases a with
  | tick m =>
    left
    by_cases hm : n = m
    · subst hm; simp only [step, setNode_self]; exact ⟨rfl, rfl, rfl, rfl, rfl, rfl, rfl, rfl⟩
    · simp only [step]; rw [setNode_ne s _ hm]; exact hrefl _
  | call m c =>
    by_cases hm : n = m
    · subst hm
      cases c with
      | submitEntry command =>
        rcases submitAppend_spec (s.nodes n) command with heq | ⟨-, heq⟩
        · left; simp only [step, call, heq, spawn_nodes, setNode_self]; exact hrefl _
        · right; simp only [step, call, heq, spawn_nodes, setNode_self]; exact ⟨_, _, hrefl _⟩
      | beginConfigChange =>
        simp only [step, call, setNode_self]
        unfold beginConfigChange
        split_ifs
        · exact Or.inl (hrefl _)
        · split
          · dsimp only
            split_ifs
            · exact Or.inl (hrefl _)
            · exact Or.inr ⟨_, _, ⟨rfl, rfl, rfl, rfl, rfl, rfl, rfl, rfl⟩⟩
          · exact Or.inr ⟨_, _, ⟨rfl, rfl, rfl, rfl, rfl, rfl, rfl, rfl⟩⟩
      | _ => simp [isWrite] at h
    · left; rw [step_elsewhere (by simp [actsOn, Ne.symm hm])]; exact hrefl _
  | _ => simp [isWrite] at h

def Covered (file : ℕ) (gs : List (Segment (LogEntry N C))) : Prop := file = 0 ∨ ∃ e, HoldsSynced gs e ∧ file ≤ e.index

lemma Covered.grows {file : ℕ} {gs gs' : List (Segment (LogEntry N C))} (h : Covered file gs) (k : Grows gs gs') :
    Covered file gs' := by
  rcases h with h | ⟨e, he, hle⟩
  · exact Or.inl h
  · exact Or.inr ⟨e, he.grows k, hle⟩

lemma Covered.advance {l : SegmentLog (LogEntry N C)} {file file' : ℕ}
    (h : Covered file gs) (hdisk : OnDisk l gs) (hw : l.Whole) (hfull : FullySynced gs)
    (hle : file' ≤ max file l.lastIndex) : Covered file' gs := by
  rcases Nat.lt_or_ge file file' with hlt | hge
  · have hlast : file' ≤ l.lastIndex := by omega
    have hpos : l.entries.length - 1 < l.entries.length := by rw [← hw.last]; omega
    have hget := getElem?_eq_getElem hpos
    have hidx : (l.entries[l.entries.length - 1]).index = l.entries.length - 1 + 1 := hw.index _ _ hget
    refine Or.inr ⟨l.entries[l.entries.length - 1], hfull.holds ?_, ?_⟩
    · rw [← hdisk.entries]; exact getElem_mem hpos
    · rw [hidx]; rw [hw.last] at hlast; omega
  · rcases h with h | ⟨e, he, hfile⟩
    · exact Or.inl (by omega)
    · exact Or.inr ⟨e, he, by omega⟩

structure Behind (nd : RaftNode N C (SegmentLog (LogEntry N C))) (gs : List (Segment (LogEntry N C))) : Prop where
  disk : OnDisk nd.log gs
  whole : nd.log.Whole
  covered : Covered nd.applyProgress.file gs

lemma Behind.settles {nd nd' : RaftNode N C (SegmentLog (LogEntry N C))}
    (h : Behind nd gs) (hfull : FullySynced gs) (hm : Settles nd nd') : Behind nd' gs := by
  obtain ⟨hlog, hfile⟩ := settles_disk hm h.disk h.whole
  exact ⟨by rw [hlog]; exact h.disk, by rw [hlog]; exact h.whole, h.covered.advance h.disk h.whole hfull hfile⟩

lemma Behind.write {nd nd' : RaftNode N C (SegmentLog (LogEntry N C))} (h : Behind nd gs) (e : LogEntry N C) (f : Bool)
    (hs : SameState { nd with log := LogStorage.append nd.log e f } nd') :
    ∃ gs', Behind nd' gs' ∧ ((f && nd.log.fsyncPerAppend) = true → FullySynced gs → FullySynced gs') := by
  obtain ⟨gs', hl, g, -, -, -, hsync⟩ := append_later h.disk h.whole e f
  have hlog : nd'.log = nd.log.append e f := hs.log
  refine ⟨gs', ⟨by rw [hlog]; exact hl.disk, by rw [hlog]; exact hl.whole, ?_⟩, fun hf => (hsync hf).2⟩
  rw [hs.progress]
  exact h.covered.grows hl.grows

lemma step_behind (hok : walSynced n s a = true)
    (h : Behind (s.nodes n) gs) : ∃ gs', Behind ((s.step a).nodes n) gs' := by
  simp only [walSynced, Bool.and_eq_true, Bool.or_eq_true, Bool.not_eq_true', all_eq_true,
    decide_eq_true_eq] at hok
  obtain ⟨hown, (helse | hwrite) | ⟨hsynced, hmode⟩⟩ := hok
  · rw [step_elsewhere helse]; exact ⟨gs, h⟩
  · rcases isWrite_node (s := s) hwrite n with hs | ⟨e, f, hs⟩
    · exact ⟨gs, by rw [hs.log]; exact h.disk, by rw [hs.log]; exact h.whole, by rw [hs.progress]; exact h.covered⟩
    · obtain ⟨gs', hb, -⟩ := h.write e f hs
      exact ⟨gs', hb⟩
  · have hfull := h.disk.fullySynced hsynced
    cases step_turn hown with
    | settle hm => exact ⟨gs, h.settles hfull hm⟩
    | write e f hs =>
      obtain ⟨gs', hb, -⟩ := h.write e f hs
      exact ⟨gs', hb⟩
    | finalize hj mid before e after =>
      -- the entry that ends the membership change is synced before the sweep counts it
      have hmid := h.settles hfull before
      have hlog := (settles_disk before h.disk h.whole).1
      have hfsync : mid.log.fsyncPerAppend = true := by
        rw [hlog]
        rcases hmode with hf | hst
        · exact hf
        · rw [hj] at hst; cases hst
      have hrefl : SameState { mid with log := LogStorage.append mid.log e true }
          { mid with log := LogStorage.append mid.log e true } := SameState.refl _
      obtain ⟨gs', hb, hfull'⟩ := hmid.write e true hrefl
      exact ⟨gs', hb.settles (hfull' (by rw [hfsync]; rfl) hfull) after⟩

lemma run_behind
    (hok : along (walSynced n) s as = true) (h : Behind (s.nodes n) gs) : ∃ gs', Behind ((run s as).nodes n) gs' := by
  induction as generalizing s gs with
  | nil => exact ⟨gs, h⟩
  | cons _ _ ih =>
    simp only [along, Bool.and_eq_true] at hok
    obtain ⟨gs1, h1⟩ := step_behind hok.1 h
    exact ih hok.2 h1

lemma SegmentLog.Whole.readable {l : SegmentLog (LogEntry N C)} (hw : l.Whole) (hs : ∀ e ∈ l.entries, Storable e) :
    Readable 0 l.entries := by
  refine ⟨hs, fun e he => ?_, pairwise_iff_getElem.2 (fun i j hi hj hij => ?_)⟩
  · obtain ⟨i, hi⟩ := mem_iff_getElem?.1 he
    rw [hw.index i e hi]
    omega
  · rw [hw.index i _ (getElem?_eq_getElem hi), hw.index j _ (getElem?_eq_getElem hj)]
    omega

/-- a cluster that starts with empty directories; `fsync n` is the durability mode of node `n`'s log and `interval n`
its flush interval of `apply.meta` -/
def initDisk (config : N → ClusterConfig N) (fsync : N → Bool) (interval : N → ℕ) :
    Cluster N C (SegmentLog (LogEntry N C)) :=
  { nodes := fun n =>
      { nodeId := n, log := { fsyncPerAppend := fsync n }, clusterConfig := config n,
        applyMetaFlushIntervalMs := interval n }
    groups := fun _ => {}, fibers := [], net := [] }

/-- **`apply.meta` stays behind the log.** -/
theorem applyMeta_behind (config : N → ClusterConfig N) (fsync : N → Bool) (interval : N → ℕ) (n : N)
    (as : List (Action N C (SegmentLog (LogEntry N C))))
    (hok : along (walSynced n) (initDisk config fsync interval) as = true)
    (hfit : ∀ e ∈ ((run (initDisk config fsync interval) as).nodes n).log.entries, Storable e) :
    ((run (initDisk config fsync interval) as).nodes n).applyProgress.file ≤
      (SegmentLog.openDir (E := LogEntry N C)
        ((run (initDisk config fsync interval) as).nodes n).log.dir.crash).lastIndex := by
  have hdisk : OnDisk ({ fsyncPerAppend := fsync n } : SegmentLog (LogEntry N C)) [] :=
    ⟨rfl, rfl, List.Pairwise.nil, by simp, rfl, Or.inl ⟨rfl, rfl, rfl⟩⟩
  have hstart : Behind ((initDisk config fsync interval : Cluster N C (SegmentLog (LogEntry N C))).nodes n) [] :=
    ⟨hdisk, fresh_whole (fsync n), Or.inl rfl⟩
  obtain ⟨gs, hb⟩ := run_behind as hok hstart
  rcases hb.covered with h0 | ⟨e, he, hle⟩
  · rw [h0]; exact Nat.zero_le _
  · exact hle.trans (hb.disk.recovered (hb.whole.readable hfit) he)

theorem applyMeta_behind_alone :
    ((run (initDisk (fun _ => {}) (fun _ => true) (fun _ => 0)) ([.call () .bootstrapSingleNode,
        .call () (.submitEntry (.client ())), .call () (.beginConfigChange { version := 1 })] ++ submitSections)).nodes
          ()).applyProgress.file ≤
      (SegmentLog.openDir (E := LogEntry Unit Unit)
        ((run (initDisk (fun _ => {}) (fun _ => true) (fun _ => 0)) ([.call () .bootstrapSingleNode,
          .call () (.submitEntry (.client ())),
          .call () (.beginConfigChange { version := 1 })] ++ submitSections)).nodes
            ()).log.dir.crash).lastIndex :=
  applyMeta_behind (fun _ => {}) (fun _ => true) (fun _ => 0) () _ (by decide +kernel) (by decide +kernel)

/-- **`apply.meta` outruns the log.** -/
theorem applyMeta_ahead :
    let nd := (run (initDisk (fun _ => {}) (fun _ => true) (fun _ => 0)) ([.call () .bootstrapSingleNode,
      .call () (.submitEntry (.client ()))] ++ submitSections)).nodes ()
    nd.applyProgress.file = 1 ∧ (SegmentLog.openDir (E := LogEntry Unit Unit) nd.log.dir.crash).lastIndex = 0 := by
  decide +kernel

end Run

end MaxRedis.Storage

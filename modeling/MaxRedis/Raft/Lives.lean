/-
The membership of a server that crashes and starts again.

A server runs (`up`) or does not (`down`), and then only its files count.
-/
import MaxRedis.Raft.ConfigChanges
import MaxRedis.Raft.Restart

namespace MaxRedis.Raft

open LogStorage LawfulLog RaftNode List

/-! ## Servers -/

structure Flags (N : Type) where
  noId : N
  nodeId : N
  peers : List N
  fsyncIntervalMs : ℕ := 0

def Flags.config {N : Type} [DecidableEq N] (F : Flags N) : ClusterConfig N :=
  if F.peers = [] ∨ F.nodeId = F.noId ∨ F.nodeId ∉ F.peers then {}
  else { voters := (F.peers.filter (· ≠ F.nodeId)).foldl IdSet.insert .empty }

inductive Moment (N C L : Type) where
  | tick (ms : ℕ)
  | setRole (role : RaftRole)
  | setState (term : ℕ) (vote : Option N)
  | setLog (log : L)
  | commit (index : ℕ)
  | beginConfigChange (target : ClusterConfig N)
  | crash (index batches applied : ℕ)
  | failedStart (log : L) (batches applied : ℕ)
  | start (log : L)

inductive Server (N C L : Type) where
  | up (nd : RaftNode N C L)
  | down (f : RaftFiles N C)

namespace RaftNode

variable {N C L : Type} [DecidableEq N] [LogStorage N C L]

def nextBatch (nd : RaftNode N C L) : List (LogEntry N C) :=
  if nd.lastApplied < nd.commitIndex ∧ nd.lastApplied < lastIndex nd.log then
    getRange nd.log (nd.lastApplied + 1) (min applyBatchSize (nd.commitIndex - nd.lastApplied))
  else []

def midSweep (nd : RaftNode N C L) (batches applied : ℕ) : RaftNode N C L :=
  let nd := applyLoop batches nd
  ((nd.nextBatch).take applied).foldl applyEntry nd

def beforeReplay (F : Flags N) (log : L) (f : RaftFiles N C) : RaftNode N C L :=
  let nd := ({ nodeId := F.noId, log := log, transport := false } : RaftNode N C L).setStoragePath f
  let nd := if nd.lastSnapshotIndex = 0 then nd.resetApplyProgress 0 else nd
  { nd with applyMetaFlushIntervalMs := F.fsyncIntervalMs }

lemma serviceInit_eq (F : Flags N) (log : L) (f : RaftFiles N C) :
    serviceInit F.noId F.nodeId F.peers F.fsyncIntervalMs log f =
      ((beforeReplay F log f).replayUnappliedLogs.initRaftCluster F.noId F.nodeId F.peers).bootstrapSingleNode := rfl

def midReplay (nd : RaftNode N C L) (batches applied : ℕ) : RaftNode N C L :=
  if lastIndex nd.log ≤ nd.lastApplied then nd
  else if nd.role ≠ .leader ∧ nd.getPeerIdsLocked ≠ [] then nd
  else midSweep { nd with commitIndex := lastIndex nd.log } batches applied

end RaftNode

namespace Server

variable {N C L : Type} [DecidableEq N] [LogStorage N C L]

def step (F : Flags N) : Server N C L → Moment N C L → Server N C L
  | .up nd, .tick ms => .up { nd with nowMs := nd.nowMs + ms }
  | .up nd, .setRole role => .up { nd with role := role }
  | .up nd, .setState term vote => .up { nd with storage := nd.storage.setState term vote }
  | .up nd, .setLog log => .up { nd with log := log }
  | .up nd, .commit index => .up ({ nd with commitIndex := index }).applyCommittedLogsLocked
  | .up nd, .beginConfigChange target => .up (nd.beginConfigChange target).1
  | .up nd, .crash index batches applied => .down (midSweep { nd with commitIndex := index } batches applied).files
  | .down f, .failedStart log batches applied => .down ((beforeReplay F log f).midReplay batches applied).files
  | .down f, .start log => .up (serviceInit F.noId F.nodeId F.peers F.fsyncIntervalMs log f)
  | s, _ => s

def new : Server N C L := .down {}

def run (F : Flags N) (s : Server N C L) (ms : List (Moment N C L)) : Server N C L := ms.foldl (step F) s

variable [LawfulLog N C L]

/-- The log that a step leaves is not compacted and has what is applied. A start finds the Stable state in `meta.json`,
and has no peers, or no change in its log. -/
def Sound (F : Flags N) : Server N C L → Moment N C L → Prop
  | .up nd, .setLog log => Whole log ∧ nd.lastApplied ≤ (entries log).length ∧
      (entries log).take nd.lastApplied = (entries nd.log).take nd.lastApplied
  | .down _, .failedStart log _ _ => Whole log
  | .down f, .start log => Whole log ∧ f.metaJson.configState = .stable ∧ (F.peers = [] ∨ ∀ e ∈ entries log, isClient e)
  | _, _ => True

def SoundRun (F : Flags N) : Server N C L → List (Moment N C L) → Prop
  | _, [] => True
  | s, m :: ms => s.Sound F m ∧ (s.step F m).SoundRun F ms

end Server

/-! ## Files -/

namespace RaftNode

variable {N C L : Type} [DecidableEq N] [LogStorage N C L]

/-- `meta.json` is what `storage_` holds, and that is the node's configuration state; no snapshot has been written -/
structure Stored (nd : RaftNode N C L) : Prop where
  flushed : nd.storage.file = nd.storage.serialize
  state : nd.storage.configState = nd.configState
  joint : nd.configState = .stable → nd.storage.jointConfig = {}
  snap : nd.snapshotMeta.index = 0

structure Left (f : RaftFiles N C) : Prop where
  joint : f.metaJson.configState = .stable → (RaftStorage.load f.metaJson).jointConfig = {}
  snap : f.snapshotMeta.index = 0

variable {nd : RaftNode N C L} {f : RaftFiles N C} (F : Flags N)

lemma Stored.left (h : Stored nd) : Left nd.files := by
  refine ⟨fun hs => ?_, h.snap⟩
  have hfile : nd.files.metaJson = nd.storage.serialize := h.flushed
  rw [hfile] at hs ⊢
  have hj := h.joint (h.state.symm.trans hs)
  unfold RaftStorage.serialize RaftStorage.load
  rw [hj]

lemma Stored.keep {nd nd' : RaftNode N C L} (h : Stored nd)
    (hst : nd'.storage = nd.storage ∨ ∃ t v, nd'.storage = nd.storage.setState t v)
    (hc : nd'.configState = nd.configState) (hm : nd'.snapshotMeta = nd.snapshotMeta) : Stored nd' := by
  rcases hst with hst | ⟨t, v, hst⟩
  · exact ⟨by rw [hst]; exact h.flushed, by rw [hst, hc]; exact h.state, by rw [hst, hc]; exact h.joint,
      by rw [hm]; exact h.snap⟩
  · refine ⟨by rw [hst]; rfl, by rw [hst, hc]; exact h.state, fun hs => ?_, by rw [hm]; exact h.snap⟩
    rw [hst]
    exact h.joint (hc ▸ hs)

section
variable (h : Stored nd)
include h

lemma Stored.applyEntry (e : LogEntry N C) : Stored (nd.applyEntry e) := by
  unfold RaftNode.applyEntry
  cases e.command with
  | configChange =>
    cases hs : nd.configState with
    | joint => exact ⟨rfl, rfl, fun _ => rfl, h.snap⟩
    | stable => exact ⟨rfl, rfl, nofun, h.snap⟩
  | client | empty => exact h.keep (Or.inl rfl) rfl rfl

lemma Stored.applyEntries (es : List (LogEntry N C)) : Stored (es.foldl RaftNode.applyEntry nd) := by
  induction es generalizing nd with
  | nil => exact h
  | cons e _ ih => exact ih (h.applyEntry e)

lemma Stored.flushApplyProgress : Stored nd.flushApplyProgress := by
  unfold RaftNode.flushApplyProgress
  dsimp only
  split_ifs
  · exact h.keep (Or.inl rfl) rfl rfl
  · exact h.keep (Or.inl rfl) rfl rfl
  · exact h.keep (Or.inl rfl) rfl rfl

lemma Stored.applyLoop (fuel : ℕ) : Stored (applyLoop fuel nd) := by
  induction fuel generalizing nd with
  | zero => exact h
  | succ _ ih =>
    simp only [RaftNode.applyLoop]
    split_ifs
    · exact h
    · exact ih (h.applyEntries _).flushApplyProgress
    · exact h

lemma Stored.midSweep (batches applied : ℕ) : Stored (nd.midSweep batches applied) :=
  (h.applyLoop batches).applyEntries _

lemma Stored.midReplay (batches applied : ℕ) : Stored (nd.midReplay batches applied) := by
  unfold RaftNode.midReplay
  split_ifs
  · exact h
  · exact h
  · have hc : Stored { nd with commitIndex := lastIndex nd.log } := h.keep (Or.inl rfl) rfl rfl
    exact hc.midSweep batches applied

end

/-! ## A start -/

lemma beforeReplay_spec (F : Flags N) (log : L) (h : f.snapshotMeta.index = 0) :
    let nd := beforeReplay F log f
    nd.log = log ∧ nd.lastApplied = 0 ∧ nd.role = .follower ∧ nd.nodeId = F.noId ∧ nd.storage = .load f.metaJson ∧
    nd.snapshotMeta = f.snapshotMeta ∧
    nd.membership = ⟨f.metaJson.configState, {}, (RaftStorage.load f.metaJson).jointConfig⟩ := by
  have hload : f.load = .noSnapshot := by
    unfold RaftFiles.load
    rw [if_pos h]
  unfold beforeReplay setStoragePath recoverFromSnapshot
  rw [hload]
  exact ⟨rfl, rfl, rfl, rfl, rfl, rfl, rfl⟩

lemma beforeReplay_stored (log : L) (h : Left f) :
    Stored (beforeReplay F log f) := by
  obtain ⟨-, -, -, -, hst, hsnap, hmem⟩ := beforeReplay_spec F log h.snap
  have hstate : (beforeReplay F log f).configState = f.metaJson.configState := congrArg Membership.state hmem
  refine ⟨by rw [hst]; rfl, by rw [hst, hstate]; rfl, fun hs => ?_, by rw [hsnap]; exact h.snap⟩
  rw [hst]
  exact h.joint (hstate ▸ hs)

variable [LawfulLog N C L]

lemma replay_all (nd : RaftNode N C L) (hw : Whole nd.log) (ha : nd.lastApplied = 0) (hp : nd.getPeerIdsLocked = []) :
    let nd' := nd.replayUnappliedLogs
    SameLog nd.log nd'.log ∧ nd'.lastApplied = (entries nd.log).length ∧
    nd'.membership = nd.membership.after (entries nd.log) := by
  have hlast := lastIndex_eq nd.log hw
  unfold replayUnappliedLogs
  dsimp only
  split_ifs with h1 h2
  · rw [hlast, ha] at h1
    have hnil : entries nd.log = [] := length_eq_zero_iff.1 (Nat.le_zero.1 h1)
    rw [hnil]
    exact ⟨SameLog.refl _, ha, rfl⟩
  · exact absurd hp h2.2
  · set mid : RaftNode N C L := { nd with commitIndex := lastIndex nd.log }
    have hall : mid.applyCommittedLogsLocked.lastApplied = (entries nd.log).length := by
      rw [(applyCommittedLogsLocked_eq mid hw).1]
      show max nd.lastApplied (min (lastIndex nd.log) (entries nd.log).length) = _
      rw [ha, hlast]
      simp
    refine ⟨(applyCommittedLogsLocked_applies mid).log, hall, ?_⟩
    rw [applyCommittedLogsLocked_membership mid hw, hall]
    show nd.membership.after (((entries nd.log).take (entries nd.log).length).drop nd.lastApplied) = _
    rw [ha, take_length, drop_zero]

lemma replay_stored (h : Stored nd) : Stored nd.replayUnappliedLogs := by
  unfold replayUnappliedLogs
  dsimp only
  split_ifs
  · exact h
  · exact h
  · have hc : Stored { nd with commitIndex := lastIndex nd.log } := h.keep (Or.inl rfl) rfl rfl
    exact hc.applyLoop _

/-- all but `cluster_config_` that counts for the membership and the files -/
structure SameRest (nd nd' : RaftNode N C L) : Prop where
  log : nd'.log = nd.log
  applied : nd'.lastApplied = nd.lastApplied
  state : nd'.configState = nd.configState
  joint : nd'.jointConfig = nd.jointConfig
  storage : nd'.storage = nd.storage ∨ ∃ t v, nd'.storage = nd.storage.setState t v
  snapMeta : nd'.snapshotMeta = nd.snapshotMeta

lemma SameData.rest {nd nd' : RaftNode N C L} (h : SameData nd nd')
    (hs : nd'.storage = nd.storage ∨ ∃ t v, nd'.storage = nd.storage.setState t v) : SameRest nd nd' :=
  ⟨h.log, h.applied, h.state, h.joint, hs, h.snapMeta⟩

lemma initRaftCluster_spec (nd : RaftNode N C L) :
    SameRest nd (nd.initRaftCluster F.noId F.nodeId F.peers) ∧
    (F.peers = [] → (nd.initRaftCluster F.noId F.nodeId F.peers).clusterConfig = nd.clusterConfig) ∧
    (nd.clusterConfig = {} → (nd.initRaftCluster F.noId F.nodeId F.peers).clusterConfig = F.config) := by
  have hkeep : SameRest nd nd := (SameData.refl nd).rest (Or.inl rfl)
  -- the peers, one after the other
  have hadd : ∀ (ids : List N) (x : RaftNode N C L), ids.foldl addPeer x =
      { x with clusterConfig := { x.clusterConfig with voters := ids.foldl IdSet.insert x.clusterConfig.voters } } := by
    intro ids
    induction ids with
    | nil => exact fun x => rfl
    | cons id _ ih => exact fun x => ih (x.addPeer id)
  unfold initRaftCluster Flags.config
  by_cases hp : F.peers = []
  · rw [if_pos hp, if_pos (Or.inl hp)]
    exact ⟨hkeep, fun _ => rfl, fun h => h⟩
  · rw [if_neg hp]
    by_cases hid : F.nodeId = F.noId
    · rw [if_pos hid, if_pos (Or.inr (Or.inl hid))]
      exact ⟨hkeep, fun _ => rfl, fun h => h⟩
    · rw [if_neg hid]
      by_cases hin : F.nodeId ∈ F.peers
      · rw [if_neg (not_not.2 hin), if_neg (by tauto)]
        rw [hadd]
        set nd1 : RaftNode N C L := { nd with
          clusterConfig := { nd.clusterConfig with
            voters := (F.peers.filter (· ≠ F.nodeId)).foldl IdSet.insert nd.clusterConfig.voters }
          nodeId := F.nodeId, transport := true } with hnd1
        have hdata := becomeFollowerLocked_data nd1 nd.term
        have hst : (nd1.becomeFollowerLocked nd.term).storage = nd.storage := by
          rw [becomeFollowerLocked_storage]
          exact if_neg (lt_irrefl _)
        refine ⟨⟨hdata.log, hdata.applied, hdata.state, hdata.joint, Or.inl hst, hdata.snapMeta⟩, fun h => absurd h hp,
          fun h => ?_⟩
        refine hdata.config.trans ?_
        rw [hnd1]
        rw [h]
      · rw [if_pos hin, if_pos (Or.inr (Or.inr hin))]
        exact ⟨hkeep, fun _ => rfl, fun h => h⟩

lemma bootstrapSingleNode_rest (nd : RaftNode N C L) :
    SameRest nd nd.bootstrapSingleNode ∧ nd.bootstrapSingleNode.clusterConfig = nd.clusterConfig := by
  have hdata : SameData nd nd.bootstrapSingleNode := by
    rcases bootstrapSingleNode_spec nd with h | ⟨-, -, -, mid, hm, hl⟩
    · rw [h]; exact SameData.refl nd
    · rcases hm with ⟨-, rfl⟩ | hm
      · exact hl.data
      · exact hm.data.trans hl.data
  refine ⟨hdata.rest ?_, hdata.config⟩
  unfold bootstrapSingleNode becomeCandidateLocked
  split_ifs
  · exact Or.inl rfl
  · exact Or.inl rfl
  · exact Or.inl (becomeLeaderLocked_leads nd).storage
  · refine Or.inr ⟨nd.term + 1, some nd.nodeId, ?_⟩
    rw [(becomeLeaderLocked_leads _).storage]
    exact setRoleLocked_storage _ _

structure Lived (F : Flags N) (nd : RaftNode N C L) : Prop where
  whole : Whole nd.log
  bound : nd.lastApplied ≤ (entries nd.log).length
  stored : Stored nd
  member : nd.membership.Agrees (Membership.after { cluster := F.config } ((entries nd.log).take nd.lastApplied))

section
variable {F : Flags N} {nd nd' : RaftNode N C L}

lemma Lived.rest (h : Lived F nd) (hr : SameRest nd nd') (hc : nd'.clusterConfig = nd.clusterConfig) :
    Lived F nd' := by
  have hm : nd'.membership = nd.membership := by
    unfold membership
    rw [hr.state, hc, hr.joint]
  refine ⟨by rw [hr.log]; exact h.whole, by rw [hr.log, hr.applied]; exact h.bound,
    h.stored.keep hr.storage hr.state hr.snapMeta, ?_⟩
  rw [hm, hr.log, hr.applied]
  exact h.member

lemma Lived.commit (h : Lived F nd) (index : ℕ) :
    Lived F ({ nd with commitIndex := index }).applyCommittedLogsLocked := by
  set mid : RaftNode N C L := { nd with commitIndex := index }
  have hmid : Lived F mid := h.rest ⟨rfl, rfl, rfl, rfl, Or.inl rfl, rfl⟩ rfl
  obtain ⟨hbound, hmember⟩ := applyCommittedLogsLocked_agrees mid hmid.whole hmid.bound hmid.member
  exact ⟨(applyCommittedLogsLocked_applies mid).log.whole hmid.whole, hbound, hmid.stored.applyLoop _, hmember⟩

lemma Lived.relog (h : Lived F nd) {log : L} (hw : Whole log) (hb : nd.lastApplied ≤ (entries log).length)
    (hk : (entries log).take nd.lastApplied = (entries nd.log).take nd.lastApplied) :
    Lived F { nd with log := log } := by
  refine ⟨hw, hb, h.stored.keep (Or.inl rfl) rfl rfl, ?_⟩
  have hm := h.member
  rw [← hk] at hm
  exact hm

lemma Lived.begin (h : Lived F nd) (target : ClusterConfig N) : Lived F (nd.beginConfigChange target).1 := by
  have happend : Lived F { nd with log := append nd.log ⟨nd.term, 0, .configChange target⟩ true } := by
    have hes := append_eq nd.log ⟨nd.term, 0, .configChange target⟩ true h.whole
    refine h.relog (append_whole _ _ _ h.whole) ?_ ?_
    · rw [hes, length_append]
      exact h.bound.trans (Nat.le_add_right _ _)
    · rw [hes, take_append_of_le_length h.bound]
  rcases beginConfigChange_spec nd target with hno | ⟨-, -, -, hacc⟩ | ⟨-, hst, hacc⟩
  · rw [hno]
    exact h
  · rw [hacc]
    exact happend.rest ⟨rfl, rfl, rfl, rfl, Or.inl rfl, rfl⟩ rfl
  · rw [hacc]
    refine ⟨happend.whole, happend.bound, happend.stored.keep (Or.inl rfl) rfl rfl, ?_⟩
    exact ⟨happend.member.state, happend.member.cluster, fun hj => absurd (hst.symm.trans hj) (by decide)⟩

end

/-- **A start.** -/
theorem start_lived {log : L} (hf : Left f) (hw : Whole log)
    (hs : f.metaJson.configState = .stable) (hc : F.peers = [] ∨ ∀ e ∈ entries log, isClient e) :
    let nd := serviceInit F.noId F.nodeId F.peers F.fsyncIntervalMs log f
    Lived F nd ∧ nd.membership.Settled := by
  intro nd
  obtain ⟨hlog, happ, -, -, -, -, hmem⟩ := beforeReplay_spec F log hf.snap
  have hst := replay_stored (beforeReplay_stored F log hf)
  have hnew : (beforeReplay F log f).membership = {} := by
    rw [hmem, hs, hf.joint hs]
  have hpeers : (beforeReplay F log f).getPeerIdsLocked = [] := by
    rw [← perm_nil]
    refine (getPeerIdsLocked_perm _).trans (.of_eq ?_)
    unfold peerSet
    rw [show (beforeReplay F log f).configState = .stable from congrArg Membership.state hnew,
      show (beforeReplay F log f).clusterConfig = {} from congrArg Membership.cluster hnew]
    rfl
  obtain ⟨hlog1, happ1, hmem1⟩ := replay_all (beforeReplay F log f) (by rw [hlog]; exact hw) happ hpeers
  rw [hlog] at hlog1 happ1 hmem1
  rw [hnew] at hmem1
  set nd1 := (beforeReplay F log f).replayUnappliedLogs
  obtain ⟨hr2, hc2, hn2⟩ := initRaftCluster_spec F nd1
  set nd2 := nd1.initRaftCluster F.noId F.nodeId F.peers
  obtain ⟨hr3, hc3⟩ := bootstrapSingleNode_rest nd2
  have hnd : nd = nd2.bootstrapSingleNode := serviceInit_eq F log f
  -- `cluster_config_` is right because there are no peers to add, or because nothing but the peers is in it
  have hfinal : nd.membership = Membership.after { cluster := F.config } (entries log) := by
    have hrest : nd.membership = ⟨nd1.configState, nd2.clusterConfig, nd1.jointConfig⟩ := by
      rw [hnd]
      unfold membership
      rw [hr3.state, hr2.state, hc3, hr3.joint, hr2.joint]
    rcases hc with hc | hc
    · have hconfig : F.config = {} := if_pos (Or.inl hc)
      rw [hrest, hc2 hc, hconfig]
      exact hmem1
    · rw [Membership.after_clients _ hc] at hmem1 ⊢
      rw [hrest, hn2 (congrArg Membership.cluster hmem1),
        show nd1.configState = .stable from congrArg Membership.state hmem1,
        show nd1.jointConfig = {} from congrArg Membership.joint hmem1]
  have hents : entries nd.log = entries log := by
    rw [hnd, hr3.log, hr2.log]
    exact hlog1.entries
  have hall : nd.lastApplied = (entries log).length := by
    rw [hnd, hr3.applied, hr2.applied]
    exact happ1
  refine ⟨⟨?_, by rw [hents, hall], ?_, ?_⟩, ?_⟩
  · rw [hnd, hr3.log, hr2.log]
    exact hlog1.whole hw
  · rw [hnd]
    exact (hst.keep hr2.storage hr2.state hr2.snapMeta).keep hr3.storage hr3.state hr3.snapMeta
  · rw [hents, hall, take_length, hfinal]
    exact .refl _
  · rw [hfinal]
    exact Membership.Settled.after (fun _ => rfl) _

end RaftNode

/-! ## Runs -/

namespace Server

variable {N C L : Type} [DecidableEq N] [LogStorage N C L] [LawfulLog N C L] {F : Flags N}
  {s : Server N C L} {m : Moment N C L} (ms : List (Moment N C L))

def Lived (F : Flags N) : Server N C L → Prop
  | .up nd => RaftNode.Lived F nd
  | .down f => Left f

theorem step_lived (h : s.Lived F) (hs : s.Sound F m) : (s.step F m).Lived F := by
  cases s with
  | up nd =>
    have hnd : RaftNode.Lived F nd := h
    cases m with
    | tick | setRole => exact hnd.rest ⟨rfl, rfl, rfl, rfl, Or.inl rfl, rfl⟩ rfl
    | setState term vote => exact hnd.rest ⟨rfl, rfl, rfl, rfl, Or.inr ⟨term, vote, rfl⟩, rfl⟩ rfl
    | setLog => exact hnd.relog hs.1 hs.2.1 hs.2.2
    | commit index => exact hnd.commit index
    | beginConfigChange target => exact hnd.begin target
    | crash index batches applied =>
      have hmid : Stored { nd with commitIndex := index } := hnd.stored.keep (Or.inl rfl) rfl rfl
      exact (hmid.midSweep batches applied).left
    | failedStart | start => exact h
  | down =>
    cases m with
    | failedStart log batches applied => exact ((beforeReplay_stored F log h).midReplay batches applied).left
    | start => exact (start_lived F h hs.1 hs.2.1 hs.2.2).1
    | _ => exact h

lemma run_lived (h : s.Lived F) (hs : s.SoundRun F ms) :
    (s.run F ms).Lived F := by
  induction ms generalizing s with
  | nil => exact h
  | cons _ _ ih => exact ih (step_lived h hs.1) hs.2

def Settled : Server N C L → Prop
  | .up nd => nd.membership.Settled
  | .down _ => True

lemma step_settled (h : s.Lived F) (hs : s.Sound F m) (hset : s.Settled)
    (hm : ∀ target, m ≠ .beginConfigChange target) : (s.step F m).Settled := by
  cases s with
  | up nd =>
    cases m with
    | commit index =>
      have hnd : RaftNode.Lived F nd := h
      have hmem := applyCommittedLogsLocked_membership { nd with commitIndex := index } hnd.whole
      show Membership.Settled _
      rw [hmem]
      exact Membership.Settled.after hset _
    | beginConfigChange target => exact absurd rfl (hm target)
    | crash => exact trivial
    | _ => exact hset
  | down =>
    cases m with
    | start => exact (start_lived F h hs.1 hs.2.1 hs.2.2).2
    | _ => exact trivial

lemma run_settled (h : s.Lived F) (hs : s.SoundRun F ms)
    (hset : s.Settled) (hm : ∀ target, Moment.beginConfigChange target ∉ ms) : (s.run F ms).Settled := by
  induction ms generalizing s with
  | nil => exact hset
  | cons _ _ ih =>
    refine ih (step_lived h hs.1) hs.2 (step_settled h hs.1 hset ?_)
      (fun target ht => hm target (mem_cons_of_mem _ ht))
    rintro target rfl
    exact hm target mem_cons_self

lemma new_lived : (new : Server N C L).Lived F := ⟨fun _ => rfl, rfl⟩

/-- **The membership is a function of what has been applied.** -/
theorem membership_of_applied (F F' : Flags N) (hc : F.config = F'.config) (ms ms' : List (Moment N C L))
    (hs : (new : Server N C L).SoundRun F ms) (hs' : (new : Server N C L).SoundRun F' ms') (nd nd' : RaftNode N C L)
    (hup : (new : Server N C L).run F ms = .up nd) (hup' : (new : Server N C L).run F' ms' = .up nd')
    (happ : (entries nd.log).take nd.lastApplied = (entries nd'.log).take nd'.lastApplied) :
    nd.configState = nd'.configState ∧ nd.clusterConfig = nd'.clusterConfig ∧
    (nd.configState = .joint ∨
        ((∀ target, Moment.beginConfigChange target ∉ ms) ∧ ∀ target, Moment.beginConfigChange target ∉ ms') →
      nd.jointConfig = nd'.jointConfig) := by
  have h := run_lived ms new_lived hs
  have h' := run_lived ms' new_lived hs'
  rw [hup] at h
  rw [hup'] at h'
  have hm := RaftNode.Lived.member h
  have hm' := RaftNode.Lived.member h'
  rw [hc, happ] at hm
  refine ⟨hm.state.trans hm'.state.symm, hm.cluster.trans hm'.cluster.symm, ?_⟩
  rintro (hj | ⟨hno, hno'⟩)
  · exact (hm.joint hj).trans (hm'.joint ((hm'.state.trans hm.state.symm).trans hj)).symm
  · have hset := run_settled ms new_lived hs trivial hno
    have hset' := run_settled ms' new_lived hs' trivial hno'
    rw [hup] at hset
    rw [hup'] at hset'
    have hafter : (Membership.after ({ cluster := F'.config } : Membership N)
        ((entries nd'.log).take nd'.lastApplied)).Settled :=
      Membership.Settled.after (fun _ => rfl) _
    exact congrArg Membership.joint ((hm.eq hset hafter).trans (hm'.eq hset' hafter).symm)

/-! ## A change, and a crash -/

def target : ClusterConfig (Fin 3) := { version := 1, voters := ⟨[1], nodup_one⟩ }

def begun : CommandLog (Fin 3) ℕ := append LogStorage.empty ⟨1, 0, .configChange target⟩ true

def ended : CommandLog (Fin 3) ℕ := append begun ⟨1, 0, .configChange target⟩ true

def single : Flags (Fin 3) := { noId := 0, nodeId := 1, peers := [] }

def paired : Flags (Fin 3) := { noId := 0, nodeId := 1, peers := [1, 2] }

def started (log : CommandLog (Fin 3) ℕ) : List (Moment (Fin 3) ℕ (CommandLog (Fin 3) ℕ)) :=
  [.start LogStorage.empty, .setLog log]

def uninterrupted : List (Moment (Fin 3) ℕ (CommandLog (Fin 3) ℕ)) := started ended ++ [.commit 2]

def crashedTwice : List (Moment (Fin 3) ℕ (CommandLog (Fin 3) ℕ)) :=
  started ended ++ [.crash 2 0 2, .failedStart ended 0 2, .start ended]

theorem membership_of_applied_crashedTwice : ∃ nd nd' : RaftNode (Fin 3) ℕ (CommandLog (Fin 3) ℕ),
      new.run single uninterrupted = .up nd ∧ new.run single crashedTwice = .up nd' ∧
      nd.lastApplied = 2 ∧ nd'.lastApplied = 2 ∧
      nd.configState = nd'.configState ∧ nd.clusterConfig = nd'.clusterConfig ∧ nd.jointConfig = nd'.jointConfig := by
  have hw : Whole (LogStorage.empty : CommandLog (Fin 3) ℕ) := whole_empty
  have hw2 : Whole ended := append_whole _ _ _ (append_whole _ _ _ hw)
  refine ⟨_, _, rfl, rfl, by decide +kernel, by decide +kernel, ?_⟩
  have hstart : new.Sound single (.start (LogStorage.empty : CommandLog (Fin 3) ℕ)) := And.intro hw ⟨rfl, Or.inl rfl⟩
  have hlog : ((new : Server (Fin 3) ℕ _).step single (.start LogStorage.empty)).Sound single (.setLog ended) :=
    And.intro hw2 ⟨by decide +kernel, by decide +kernel⟩
  have hagain : (new.run single (crashedTwice.take 4)).Sound single (.start ended) :=
    And.intro hw2 ⟨by decide +kernel, Or.inl rfl⟩
  have hs : new.SoundRun single uninterrupted := And.intro hstart (And.intro hlog (And.intro trivial trivial))
  have hs' : new.SoundRun single crashedTwice :=
    And.intro hstart (And.intro hlog (And.intro trivial (And.intro hw2 (And.intro hagain trivial))))
  obtain ⟨h1, h2, h3⟩ :=
    membership_of_applied single single rfl uninterrupted crashedTwice hs hs' _ _ rfl rfl (by decide +kernel)
  exact ⟨h1, h2, h3 (Or.inr ⟨by simp [uninterrupted, started], by simp [crashedTwice, started]⟩)⟩

def membership : Server (Fin 3) ℕ (CommandLog (Fin 3) ℕ) → Option (ℕ × Membership (Fin 3))
  | .up nd => some (nd.lastApplied, nd.membership)
  | .down _ => none

/-- **The membership is lost.** -/
theorem membership_lost :
    (new.run paired (started begun ++ [.commit 1])).membership =
      some (1, ⟨.joint, paired.config, ⟨paired.config, target⟩⟩) ∧
    (new.run paired (started begun ++ [.crash 1 0 1, .start begun, .commit 1])).membership =
    some (1, ⟨.stable, target, {}⟩) ∧
    (new.run paired (started ended ++ [.commit 2])).membership = some (2, ⟨.stable, target, {}⟩) ∧
    (new.run paired (started ended ++ [.commit 2, .crash 2 0 0, .start ended])).membership =
      some (2, ⟨.stable, { target with voters := ⟨[1, 2], by decide⟩ }, {}⟩) := by
  decide +kernel

end Server

end MaxRedis.Raft

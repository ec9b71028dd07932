/-
A node starts again: `RaftNode::SetStoragePath`, `ReplayUnappliedLogs` and `ResetApplyProgress`, `SnapshotLoader`, and
how `RaftGroup::InitStorage` and `Service::Init` call them.
-/
import MaxRedis.Raft.GroupCommit
import MaxRedis.Raft.Snapshots

namespace MaxRedis.Raft

open LogStorage LawfulLog RaftNode List

/-! ## Files -/

structure RaftFiles (N C : Type) where
  metaJson : MetaFile N := {}
  applyMeta : ℕ := 0
  snapshotMeta : SnapshotMeta := {}
  snapshotBin : Option (List (LogEntry N C)) := none

inductive SnapshotLoad (N C : Type) where
  | ok (found : SnapshotMeta) (data : List (LogEntry N C))
  | noSnapshot
  | corrupted

def RaftFiles.load {N C : Type} (f : RaftFiles N C) : SnapshotLoad N C :=
  if f.snapshotMeta.index = 0 then .noSnapshot
  else if f.snapshotMeta.term = 0 then .corrupted
  else
    match f.snapshotBin with
    | none => .corrupted
    | some data => .ok f.snapshotMeta data

def RaftFiles.snapshotIndex {N C : Type} (f : RaftFiles N C) : ℕ :=
  match f.load with
  | .ok found _ => found.index
  | _ => 0

def RaftFiles.jointWithVoter {N C : Type} (f : RaftFiles N C) (noId : N) : Prop :=
  f.metaJson.configState = .joint ∧
    ∃ v, v ≠ noId ∧ (v ∈ f.metaJson.jointOldVoters.ids ∨ v ∈ f.metaJson.jointNewVoters.ids)

lemma RaftFiles.load_ok {N C : Type} {f : RaftFiles N C} {data : List (LogEntry N C)} (hi : f.snapshotMeta.index ≠ 0)
    (ht : f.snapshotMeta.term ≠ 0) (hb : f.snapshotBin = some data) : f.load = .ok f.snapshotMeta data := by
  unfold RaftFiles.load
  rw [if_neg hi, if_neg ht, hb]

lemma RaftFiles.load_eq {N C : Type} {f : RaftFiles N C} {found : SnapshotMeta} {data : List (LogEntry N C)}
    (h : f.load = .ok found data) : 0 < found.index ∧ found = f.snapshotMeta ∧ f.snapshotBin = some data := by
  unfold RaftFiles.load at h
  split_ifs at h with h1 h2
  split at h
  · cases h
  · rename_i hb
    cases h
    exact ⟨Nat.pos_of_ne_zero h1, rfl, hb⟩

namespace RaftNode

variable {N C L : Type} [DecidableEq N] [LogStorage N C L] (nd : RaftNode N C L)

def files (nd : RaftNode N C L) : RaftFiles N C :=
  ⟨nd.storage.file, nd.applyProgress.file, nd.snapshotMeta, nd.snapshotBin⟩

def recoverFromSnapshot (nd : RaftNode N C L) (f : RaftFiles N C) : RaftNode N C L :=
  match f.load with
  | .ok found data =>
    let lastApplied := max nd.lastApplied found.index
    { nd with
      stateMachine := data
      lastApplied := lastApplied
      lastSnapshotIndex := found.index
      lastSnapshotTerm := found.term
      applyProgress := nd.applyProgress.update lastApplied
      log := pruneCompacted (setSnapshotAnchor nd.log found.index found.term) }
  | _ => nd

def setStoragePath (nd : RaftNode N C L) (f : RaftFiles N C) : RaftNode N C L :=
  let storage := RaftStorage.load f.metaJson
  let nd := { nd with
    storage := storage
    configState := storage.configState
    jointConfig := storage.jointConfig
    applyProgress := .load f.applyMeta
    lastApplied := f.applyMeta
    snapshotMeta := f.snapshotMeta
    snapshotBin := f.snapshotBin }
  let nd := nd.recoverFromSnapshot f
  { nd with commitIndex := nd.lastApplied }

def replayUnappliedLogs (nd : RaftNode N C L) : RaftNode N C L :=
  let last := lastIndex nd.log
  if last ≤ nd.lastApplied then nd
  else if nd.role ≠ .leader ∧ nd.getPeerIdsLocked ≠ [] then nd
  else ({ nd with commitIndex := last }).applyCommittedLogsLocked

def resetApplyProgress (nd : RaftNode N C L) (index : ℕ) : RaftNode N C L :=
  { nd with lastApplied := index, applyProgress := nd.applyProgress.reset index }

def restarted (id : N) (config : ClusterConfig N) (log : L) (f : RaftFiles N C) : RaftNode N C L :=
  (({ nodeId := id, log := log, clusterConfig := config } : RaftNode N C L).setStoragePath f).replayUnappliedLogs

/-! ## What a replay keeps -/

lemma applyLoop_extends (fuel : ℕ) (nd : RaftNode N C L) : nd.stateMachine <+: (applyLoop fuel nd).stateMachine ∧
    (applyLoop fuel nd).lastSnapshotIndex = nd.lastSnapshotIndex := by
  have hone : ∀ (e : LogEntry N C) (x : RaftNode N C L), x.stateMachine <+: (x.applyEntry e).stateMachine ∧
      (x.applyEntry e).lastSnapshotIndex = x.lastSnapshotIndex := by
    intro e x
    unfold applyEntry
    split
    · split <;> exact ⟨prefix_refl _, rfl⟩
    · exact ⟨prefix_append _ _, rfl⟩
  have hbatch : ∀ (es : List (LogEntry N C)) (x : RaftNode N C L),
    x.stateMachine <+: (es.foldl applyEntry x).stateMachine ∧
      (es.foldl applyEntry x).lastSnapshotIndex = x.lastSnapshotIndex := by
    intro es
    induction es with
    | nil => exact fun x => ⟨prefix_refl _, rfl⟩
    | cons e _ ih =>
      intro x
      obtain ⟨h1, h2⟩ := hone e x
      obtain ⟨h3, h4⟩ := ih (x.applyEntry e)
      exact ⟨h1.trans h3, h4.trans h2⟩
  have hflush : ∀ x : RaftNode N C L, x.flushApplyProgress.stateMachine = x.stateMachine ∧
      x.flushApplyProgress.lastSnapshotIndex = x.lastSnapshotIndex := by
    intro x
    unfold flushApplyProgress
    dsimp only
    split_ifs <;> exact ⟨rfl, rfl⟩
  induction fuel generalizing nd with
  | zero => exact ⟨prefix_refl _, rfl⟩
  | succ _ ih =>
    simp only [applyLoop]
    split_ifs
    · exact ⟨prefix_refl _, rfl⟩
    · set es := getRange nd.log (nd.lastApplied + 1) (min applyBatchSize (nd.commitIndex - nd.lastApplied))
      obtain ⟨h1, h2⟩ := hbatch es nd
      obtain ⟨h3, h4⟩ := hflush (es.foldl applyEntry nd)
      obtain ⟨h5, h6⟩ := ih (es.foldl applyEntry nd).flushApplyProgress
      rw [h3] at h5
      exact ⟨h1.trans h5, h6.trans (h4.trans h2)⟩
    · exact ⟨prefix_refl _, rfl⟩

lemma replayUnappliedLogs_extends : nd.stateMachine <+: nd.replayUnappliedLogs.stateMachine ∧
    nd.replayUnappliedLogs.lastSnapshotIndex = nd.lastSnapshotIndex := by
  unfold replayUnappliedLogs
  dsimp only
  split_ifs
  · exact ⟨prefix_refl _, rfl⟩
  · exact ⟨prefix_refl _, rfl⟩
  · exact applyLoop_extends _ { nd with commitIndex := lastIndex nd.log }

lemma setStoragePath_loaded {f : RaftFiles N C} {found : SnapshotMeta}
    {data : List (LogEntry N C)} (h : f.load = .ok found data) :
    (nd.setStoragePath f).stateMachine = data ∧ (nd.setStoragePath f).lastSnapshotIndex = found.index := by
  simp only [setStoragePath, recoverFromSnapshot, h, and_self]

lemma setStoragePath_notLoaded {f : RaftFiles N C}
    (h : f.snapshotMeta.index = 0 ∨ f.snapshotMeta.term = 0 ∨ f.snapshotBin = none) :
    (nd.setStoragePath f).stateMachine = nd.stateMachine ∧
      (nd.setStoragePath f).lastSnapshotIndex = nd.lastSnapshotIndex := by
  cases hl : f.load with
  | ok found data =>
    unfold RaftFiles.load at hl
    split_ifs at hl with h1 h2
    rw [(h.resolve_left h1).resolve_left h2] at hl
    cases hl
  | _ => simp only [setStoragePath, recoverFromSnapshot, hl, and_self]

/-! ## An installed snapshot -/

def receiver (found : SnapshotMeta) : RaftNode (Fin 3) ℕ (CommandLog (Fin 3) ℕ) :=
  { nodeId := 2, log := LogStorage.empty, snapshotMeta := found }

def sentSnapshot : InstallSnapshotRequest (Fin 3) ℕ := ⟨1, 0, 1, 1, [⟨1, 1, .client 10⟩]⟩

end RaftNode

/-! ## A group's directory -/

structure Disk (N C : Type) where
  metaJson : String → MetaFile N := fun _ => {}
  applyMeta : String → ℕ := fun _ => 0
  snapshotMeta : String → SnapshotMeta := fun _ => {}
  snapshotBin : String → Option (List (LogEntry N C)) := fun _ => none

def withSlash (path : String) : String :=
  if path.toList ≠ [] ∧ path.toList.getLast? ≠ some '/' then path ++ "/" else path

def groupDir (basePath : String) (groupId : ℕ) : String :=
  withSlash basePath ++ "raft/group_" ++ toString groupId ++ "/"

def snapshotDir (basePath : String) (groupId : ℕ) : String := groupDir basePath groupId ++ "snapshot/"

namespace Disk

variable {N C : Type}

def filesAt (d : Disk N C) (path : String) : RaftFiles N C :=
  ⟨d.metaJson (withSlash path ++ "meta.json"), d.applyMeta (withSlash path ++ "apply.meta"),
    d.snapshotMeta (withSlash path ++ "snapshot.meta"), d.snapshotBin (withSlash path ++ "snapshot.bin")⟩

def writeSnapshot (d : Disk N C) (dir : String) (found : SnapshotMeta) (data : List (LogEntry N C)) : Disk N C :=
  { d with
    snapshotMeta := fun p => if p = withSlash dir ++ "snapshot.meta" then found else d.snapshotMeta p
    snapshotBin := fun p => if p = withSlash dir ++ "snapshot.bin" then some data else d.snapshotBin p }

lemma length_withSlash (path : String) :
    path.length ≤ (withSlash path).length ∧ (withSlash path).length ≤ path.length + 1 := by
  unfold withSlash
  split_ifs
  · rw [String.length_append]
    have : "/".length = 1 := by decide
    omega
  · omega

lemma filesAt_writeSnapshot (d : Disk N C) (basePath : String) (groupId : ℕ) (found : SnapshotMeta)
    (data : List (LogEntry N C)) :
    (d.writeSnapshot (snapshotDir basePath groupId) found data).filesAt (groupDir basePath groupId) =
      d.filesAt (groupDir basePath groupId) := by
  have hlen : (snapshotDir basePath groupId).length = (groupDir basePath groupId).length + 9 := by
    rw [snapshotDir, String.length_append]
    rfl
  have h1 := length_withSlash (groupDir basePath groupId)
  have h2 := length_withSlash (snapshotDir basePath groupId)
  have hne : ∀ file : String, withSlash (groupDir basePath groupId) ++ file ≠
      withSlash (snapshotDir basePath groupId) ++ file := by
    intro file heq
    have := congrArg String.length heq
    simp only [String.length_append] at this
    omega
  simp only [filesAt, writeSnapshot, if_neg (hne _)]

end Disk

def initStorage {N C L : Type} [DecidableEq N] [LogStorage N C L] (basePath : String) (groupId : ℕ) (id : N)
    (config : ClusterConfig N) (log : L) (d : Disk N C) : RaftNode N C L :=
  ({ nodeId := id, log := log, clusterConfig := config } : RaftNode N C L).setStoragePath
    (d.filesAt (groupDir basePath groupId))

section Group
variable {N C L : Type} [DecidableEq N] [LogStorage N C L]

end Group

def appliedOne : RaftNode (Fin 1) ℕ (CommandLog (Fin 1) ℕ) :=
  { nodeId := 0, log := append LogStorage.empty ⟨1, 0, .client 10⟩ true, stateMachine := [⟨1, 1, .client 10⟩]
    commitIndex := 1, lastApplied := 1 }

def copied : Disk (Fin 1) ℕ :=
  { snapshotMeta := fun p => if p = "db/raft/group_0/snapshot.meta" then ⟨1, 1⟩ else {}
    snapshotBin := fun p => if p = "db/raft/group_0/snapshot.bin" then some [⟨1, 1, .client 10⟩] else none }

namespace RaftNode

variable {N C L : Type} [DecidableEq N] [LogStorage N C L] (nd : RaftNode N C L)

def addPeer (nd : RaftNode N C L) (id : N) : RaftNode N C L :=
  { nd with clusterConfig := { nd.clusterConfig with voters := nd.clusterConfig.voters.insert id } }

/-- `Service::InitRaftCluster`; `peers` are the ids of `--raft_peers`, `noId` is the empty id -/
def initRaftCluster (nd : RaftNode N C L) (noId nodeId : N) (peers : List N) : RaftNode N C L :=
  if peers = [] then nd
  else if nodeId = noId then nd
  else if nodeId ∉ peers then nd
  else
    let nd := (peers.filter (· ≠ nodeId)).foldl addPeer nd
    ({ nd with nodeId := nodeId, transport := true }).becomeFollowerLocked nd.term

/-- the Raft branch of `Service::Init`. The node's id is empty before `InitRaftCluster`. -/
def serviceInit (noId nodeId : N) (peers : List N) (fsyncIntervalMs : ℕ) (log : L) (f : RaftFiles N C) :
    RaftNode N C L :=
  let nd := ({ nodeId := noId, log := log, transport := false } : RaftNode N C L).setStoragePath f
  let nd := if nd.lastSnapshotIndex = 0 then nd.resetApplyProgress 0 else nd
  let nd := { nd with applyMetaFlushIntervalMs := fsyncIntervalMs }
  (nd.replayUnappliedLogs.initRaftCluster noId nodeId peers).bootstrapSingleNode

def recovered (nd : RaftNode N C L) : Recovered N C L :=
  ⟨nd.log, nd.clusterConfig, nd.stateMachine, nd.lastApplied, nd.commitIndex, nd.applyProgress,
    ⟨nd.lastSnapshotIndex, nd.lastSnapshotTerm⟩, nd.snapshotBin⟩

def prunedLog (log : L) (f : RaftFiles N C) : L :=
  match f.load with
  | .ok found _ => pruneCompacted (setSnapshotAnchor log found.index found.term)
  | _ => log

def SameProgress (nd nd' : RaftNode N C L) : Prop := nd'.commitIndex = nd.commitIndex ∧ nd'.lastApplied = nd.lastApplied

lemma SameData.sameProgress {nd nd' : RaftNode N C L} (h : SameData nd nd') : SameProgress nd nd' :=
  ⟨h.commit, h.applied⟩

lemma SameProgress.trans {a b c : RaftNode N C L} (h : SameProgress a b) (k : SameProgress b c) : SameProgress a c :=
  ⟨k.1.trans h.1, k.2.trans h.2⟩

lemma bootstrapSingleNode_progress : SameProgress nd nd.bootstrapSingleNode := by
  rcases bootstrapSingleNode_spec nd with h | ⟨-, -, -, mid, hm, hl⟩
  · rw [h]; exact ⟨rfl, rfl⟩
  · rcases hm with ⟨-, rfl⟩ | hm
    · exact hl.data.sameProgress
    · exact (hm.data.trans hl.data).sameProgress

lemma initRaftCluster_progress (noId nodeId : N) (peers : List N) :
    SameProgress nd (nd.initRaftCluster noId nodeId peers) := by
  have hadd : ∀ (ids : List N) (x : RaftNode N C L), SameProgress x (ids.foldl addPeer x) := by
    intro ids
    induction ids with
    | nil => exact fun x => ⟨rfl, rfl⟩
    | cons id _ ih => exact fun x => SameProgress.trans ⟨rfl, rfl⟩ (ih (x.addPeer id))
  unfold initRaftCluster
  split_ifs
  · exact ⟨rfl, rfl⟩
  · exact ⟨rfl, rfl⟩
  · set nd1 := (peers.filter (· ≠ nodeId)).foldl addPeer nd
    have h1 : SameProgress nd nd1 := hadd _ nd
    have h2 : SameProgress nd1 { nd1 with nodeId := nodeId, transport := true } := ⟨rfl, rfl⟩
    exact (h1.trans h2).trans (becomeFollowerLocked_data _ _).sameProgress
  · exact ⟨rfl, rfl⟩

lemma setStoragePath_progress (f : RaftFiles N C) :
    (nd.setStoragePath f).commitIndex = max f.applyMeta f.snapshotIndex ∧
    (nd.setStoragePath f).lastApplied = max f.applyMeta f.snapshotIndex ∧
    (nd.setStoragePath f).log = prunedLog nd.log f ∧
    (nd.setStoragePath f).configState = f.metaJson.configState ∧
    (nd.setStoragePath f).jointConfig = (RaftStorage.load f.metaJson).jointConfig ∧
    (nd.setStoragePath f).role = nd.role ∧ (nd.setStoragePath f).nodeId = nd.nodeId := by
  unfold setStoragePath recoverFromSnapshot prunedLog RaftFiles.snapshotIndex
  cases hl : f.load with
  | ok => exact ⟨rfl, rfl, rfl, rfl, rfl, rfl, rfl⟩
  | noSnapshot => exact ⟨(max_eq_left (Nat.zero_le _)).symm, (max_eq_left (Nat.zero_le _)).symm, rfl, rfl,
      rfl, rfl, rfl⟩
  | corrupted => exact ⟨(max_eq_left (Nat.zero_le _)).symm, (max_eq_left (Nat.zero_le _)).symm, rfl, rfl, rfl, rfl, rfl⟩

lemma replayUnappliedLogs_idle (hrole : nd.role ≠ .leader) (hpeers : nd.getPeerIdsLocked ≠ []) :
    nd.replayUnappliedLogs = nd := by
  unfold replayUnappliedLogs
  dsimp only
  split_ifs with h1 h2
  · rfl
  · rfl
  · exact absurd ⟨hrole, hpeers⟩ h2

lemma applyLoop_lastApplied [LawfulLog N C L] (fuel : ℕ) (nd : RaftNode N C L) :
    (applyLoop fuel nd).lastApplied = nd.lastApplied ∨
    ∃ e ∈ entries nd.log, (applyLoop fuel nd).lastApplied = e.index := by
  induction fuel generalizing nd with
  | zero => exact Or.inl rfl
  | succ _ ih =>
    simp only [applyLoop]
    split_ifs with hlt hnil
    · exact Or.inl rfl
    · set es := getRange nd.log (nd.lastApplied + 1) (min applyBatchSize (nd.commitIndex - nd.lastApplied)) with hes
      have happ := (foldl_applyEntry_applies es nd).trans (flushApplyProgress_applies _)
      rcases ih (es.foldl applyEntry nd).flushApplyProgress with h | ⟨e, he, h⟩
      · right
        rw [h, (flushApplyProgress_sm _).2, (foldl_applyEntry_sm es nd).2]
        obtain ⟨e, he⟩ := Option.ne_none_iff_exists'.1 (mt getLast?_eq_none_iff.1 hnil)
        exact ⟨e, mem_range _ _ _ e (mem_of_getLast? he), by rw [he]; rfl⟩
      · exact Or.inr ⟨e, happ.log.entries ▸ he, h⟩
    · exact Or.inl rfl

def Reaches [LawfulLog N C L] (l : L) (i : ℕ) : Prop := i ≤ lastIndex l ∨ ∃ e ∈ entries l, i ≤ e.index

/-- **How far a start goes.** -/
theorem serviceInit_progress [LawfulLog N C L] (noId nodeId : N) (peers : List N) (fsyncIntervalMs : ℕ) (log : L)
    (f : RaftFiles N C) {i : ℕ} (hi : i ≤ max (serviceInit noId nodeId peers fsyncIntervalMs log f).commitIndex
      (serviceInit noId nodeId peers fsyncIntervalMs log f).lastApplied) :
    i ≤ max f.applyMeta f.snapshotIndex ∨ (¬ f.jointWithVoter noId ∧ Reaches (prunedLog log f) i) := by
  obtain ⟨hc, ha, hlog, hstate, hjoint, hrole, hid⟩ :=
    setStoragePath_progress ({ nodeId := noId, log := log, transport := false } : RaftNode N C L) f
  generalize hnd : ({ nodeId := noId, log := log, transport := false } : RaftNode N C L).setStoragePath f = nd at *
  set nd1 : RaftNode N C L :=
    { (if nd.lastSnapshotIndex = 0 then nd.resetApplyProgress 0 else nd) with
      applyMetaFlushIntervalMs := fsyncIntervalMs }
    with hnd1
  -- the reset touches the apply index only
  have hsame : nd1.commitIndex = nd.commitIndex ∧ nd1.lastApplied ≤ nd.lastApplied ∧ nd1.log = nd.log ∧
      nd1.configState = nd.configState ∧ nd1.jointConfig = nd.jointConfig ∧ nd1.role = nd.role ∧
      nd1.nodeId = nd.nodeId := by
    rw [hnd1]
    split_ifs
    · exact ⟨rfl, Nat.zero_le _, rfl, rfl, rfl, rfl, rfl⟩
    · exact ⟨rfl, le_rfl, rfl, rfl, rfl, rfl, rfl⟩
  obtain ⟨sc, sa, sl, ss, sj, sr, sn⟩ := hsame
  have hinit : SameProgress nd1.replayUnappliedLogs (serviceInit noId nodeId peers fsyncIntervalMs log f) := by
    have heq : serviceInit noId nodeId peers fsyncIntervalMs log f =
        (nd1.replayUnappliedLogs.initRaftCluster noId nodeId peers).bootstrapSingleNode := by
      unfold serviceInit
      rw [hnd]
    rw [heq]
    exact (initRaftCluster_progress _ noId nodeId peers).trans (bootstrapSingleNode_progress _)
  rw [hinit.1, hinit.2] at hi
  have hidle : nd1.replayUnappliedLogs = nd1 → i ≤ max f.applyMeta f.snapshotIndex := by
    intro h
    rw [h] at hi
    omega
  by_cases hj : f.jointWithVoter noId
  · left
    apply hidle
    obtain ⟨hjs, v, hv, hmem⟩ := hj
    apply replayUnappliedLogs_idle
    · rw [sr, hrole]
      exact nofun
    · apply ne_nil_of_mem (a := v)
      rw [(getPeerIdsLocked_perm _).mem_iff, peerSet, ss, hstate, hjs]
      rw [sj, hjoint, sn, hid]
      simp only [mem_filter, mem_append, Bool.not_eq_true']
      refine ⟨?_, by simpa using hv⟩
      by_cases hold : v ∈ f.metaJson.jointOldVoters.ids
      · exact Or.inl hold
      · exact Or.inr ⟨hmem.resolve_left hold, decide_eq_false hold⟩
  · by_cases hrep : nd1.replayUnappliedLogs = nd1
    · exact Or.inl (hidle hrep)
    · have heq : nd1.replayUnappliedLogs =
        ({ nd1 with commitIndex := lastIndex nd1.log }).applyCommittedLogsLocked := by
        unfold replayUnappliedLogs at hrep ⊢
        dsimp only at hrep ⊢
        split_ifs at hrep ⊢
        · exact absurd rfl hrep
        · exact absurd rfl hrep
        · rfl
      rw [heq, (applyCommittedLogsLocked_applies _).commit] at hi
      have hcase := applyLoop_lastApplied (lastIndex nd1.log + 1) { nd1 with commitIndex := lastIndex nd1.log }
      rw [← hlog, ← sl]
      rcases le_max_iff.1 hi with hi | hi
      · exact Or.inr ⟨hj, Or.inl hi⟩
      · rcases hcase with h | ⟨e, he, h⟩
        · exact Or.inl ((hi.trans h.le).trans (sa.trans ha.le))
        · exact Or.inr ⟨hj, Or.inr ⟨e, he, hi.trans h.le⟩⟩

end RaftNode

/-! ## Until a leader speaks -/

def Pc.unled {N C : Type} : Pc N C → Prop
  | .election _ => True
  | .replicateBegin _ .finish _ => True
  | .returned _ => True
  | _ => False

namespace Cluster

variable {N C L : Type} [DecidableEq N] [LogStorage N C L] [LawfulLog N C L]
variable {s : Cluster N C L} {a : Action N C L} {n : N} {fs : List (Fiber N C)} {k : ℕ} {f : Fiber N C}

def unled (n : N) (s : Cluster N C L) (a : Action N C L) : Bool :=
  let nd := s.nodes n
  nd.role ≠ .leader &&
    match s.delivered a with
    | some (dst, .heartbeat req) => dst ≠ n || req.term < nd.term
    | some (dst, .appendEntries req) => dst ≠ n || req.term < nd.term
    | some (dst, .installSnapshot req) => dst ≠ n || req.term < nd.term
    | _ =>
      match a with
      | .restart m _ => m ≠ n
      | _ => true

def UnledFibers (n : N) (fs : List (Fiber N C)) : Prop := ∀ f ∈ fs, f.owner = n → f.pc.unled

lemma UnledFibers.set (h : UnledFibers n fs) (hf : f.owner = n → f.pc.unled) : UnledFibers n (fs.set k f) := by
  intro g hg
  rcases mem_or_eq_of_mem_set hg with hg | rfl
  · exact h g hg
  · exact hf

lemma UnledFibers.append (h : UnledFibers n fs) (hf : f.owner = n → f.pc.unled) : UnledFibers n (fs ++ [f]) := by
  intro g hg
  rcases mem_append.1 hg with hg | hg
  · exact h g hg
  · rw [mem_singleton.1 hg]; exact hf

lemma Started.unled (hs : Started s a f) (hrole : (s.nodes f.owner).role ≠ .leader) : f.pc.unled := by
  cases hs with
  | election | replicate | refuse | noRead => trivial
  | submit _ _ _ h =>
    rw [submitAppend, if_pos hrole] at h
    cases h
  | beat _ hl | transfer _ _ hl | leaseRead _ hl | quorumRead _ hl => exact absurd hl hrole

lemma UnledFibers.starts {t : Cluster N C L} {n m : N} (h : UnledFibers n s.fibers) (hrole : (s.nodes n).role ≠ .leader)
    (hs : Starts s t a m) : UnledFibers n t.fibers := by
  rcases hs.fibers with hf | ⟨f, -, hf, ht⟩
  · rw [hf]; exact h
  · rw [ht]
    refine h.append (fun ho => hf.unled ?_)
    rw [ho]; exact hrole

lemma advance_unled (h : UnledFibers n s.fibers) (hrole : (s.nodes n).role ≠ .leader)
    (ho : f.owner = n) (hf : f.pc.unled) : UnledFibers n (s.advance k f).fibers := by
  subst ho
  unfold advance
  cases hpc : f.pc with
  | election =>
    dsimp only
    split
    · split_ifs <;> exact h.set (fun _ => trivial)
    · exact h.set (fun _ => trivial)
  | replicateBegin _ after =>
    rw [hpc] at hf
    cases after with
    | finish =>
      unfold beginReplicate
      rw [replicateStart, if_pos hrole]
      exact h.set (fun _ => trivial)
    | transfer | coordinate => exact hf.elim
  | returned => exact h
  | _ => rw [hpc] at hf; exact hf.elim

lemma advance_others (h : UnledFibers n s.fibers) (hk : s.fibers[k]? = some f)
    (ho : f.owner ≠ n) : UnledFibers n (s.advance k f).fibers := by
  intro f' hf' ho'
  obtain ⟨j, hj⟩ := mem_iff_getElem?.1 hf'
  rcases advance_fiber hk hj with ⟨hown, -⟩ | ⟨-, g, hg, hown, hpc, -⟩
  · exact absurd (hown.symm.trans ho') ho
  · rw [hpc]; exact h g (mem_of_getElem? hg) (hown.symm.trans ho')

lemma step_unledFibers (hok : unled n s a = true) (h : UnledFibers n s.fibers) :
    UnledFibers n (s.step a).fibers := by
  have hrole : (s.nodes n).role ≠ .leader := by
    simp only [unled, Bool.and_eq_true, decide_eq_true_eq] at hok; exact hok.1
  have honRsp : ∀ (pc : Pc N C) dst rsp, pc.unled → (pc.onRsp dst rsp).unled := by
    intro pc dst rsp hp
    cases pc with
    | election => cases rsp <;> trivial
    | replicateBegin | returned => exact hp
    | _ => exact hp.elim
  have hw := step_way s a
  generalize s.step a = t at hw ⊢
  cases hw with
  | idle => exact h
  | call m c => exact h.starts hrole (call_starts s m c)
  | advance _ f hk =>
    by_cases ho : f.owner = n
    · exact advance_unled h hrole ho (h f (mem_of_getElem? hk) ho)
    · exact advance_others h hk ho
  | recv _ f hk => exact h.set (fun ho => honRsp _ _ _ (h f (mem_of_getElem? hk) ho))
  | fail _ f hk =>
    rw [setFiber_fibers, giveUp_fibers]
    exact h.set (fun ho => honRsp _ _ _ (h f (mem_of_getElem? hk) ho))
  | deliver k f hk dst req =>
    exact (h.starts (a := .deliver k) hrole (handle_starts rfl rfl dst req)).set
      (fun ho => h f (mem_of_getElem? hk) ho)
  | late j dst req =>
    exact h.starts (a := .deliverLate j) hrole
      (handle_starts (s := s) (t := { s with net := s.net.eraseIdx j }) rfl rfl dst req)
  | drop | tick => exact h
  | restart =>
    intro f hf ho
    obtain ⟨g, hg, rfl⟩ := mem_map.1 hf
    split_ifs at ho ⊢ with hgm
    · trivial
    · exact h g hg ho

theorem step_unled (hok : unled n s a = true) (h : UnledFibers n s.fibers) :
    SameProgress (s.nodes n) ((s.step a).nodes n) := by
  have hkeep : ∀ {nd' : RaftNode N C L}, nd' = s.nodes n → SameProgress (s.nodes n) nd' := fun he => he ▸ ⟨rfl, rfl⟩
  have hold : ∀ {k : ℕ} {f : Fiber N C}, s.fibers[k]? = some f → f.owner = n → f.pc.unled :=
    fun hk ho => h _ (mem_of_getElem? hk) ho
  have hnone : ∀ {pc : Pc N C}, pc.unled → ¬ pc.sweeps := by
    intro pc hu hs
    cases pc with
    | election | replicateBegin | returned => exact hs
    | _ => exact hu
  simp only [unled, Bool.and_eq_true, decide_eq_true_eq] at hok
  obtain ⟨hrole, hok⟩ := hok
  cases (step_trans s a).node n with
  | kept _ hk => exact hk.data.sameProgress
  | applied _ _ hk ho hf | persisted _ _ hk ho hf => exact absurd hf (hnone (hold hk ho))
  | campaign _ hc => exact hc.data.sameProgress
  | boot _ _ _ _ hm hl =>
    rcases hm with ⟨-, rfl⟩ | hc
    · exact hl.data.sameProgress
    · exact (hc.data.trans hl.data).sameProgress
  | wins _ _ _ _ _ _ _ _ hw => exact hw.leads.data.sameProgress
  | countBeats _ _ hk _ ho _ hf =>
    have hu := hold hk ho
    rw [hf] at hu
    exact hu.elim
  | append hl => exact absurd hl hrole
  | refresh _ eq => rw [eq]; exact (refreshPeers_only _).data.sameProgress
  | countAppends _ _ hk ho _ hf =>
    have hu := hold hk ho
    rw [hf] at hu
    exact hu.elim
  | alone _ _ _ _ eq =>
    rw [replicateAlone, if_pos hrole] at eq
    exact hkeep eq
  | config _ eq =>
    rw [beginConfigChange, if_pos hrole] at eq
    exact hkeep eq
  | snapshot eq =>
    rw [eq]
    unfold createSnapshotIfNeeded createSnapshot
    dsimp only
    split_ifs <;> exact ⟨rfl, rfl⟩
  | grants _ _ _ hg => exact hg.data.sameProgress
  | beaten _ _ hd eq =>
    rw [hd] at hok
    rw [onHeartbeat, if_pos (by simpa using hok)] at eq
    exact hkeep eq
  | adopts _ _ hd eq =>
    rw [hd] at hok
    rw [onAppendEntries, if_pos (by simpa using hok)] at eq
    exact hkeep eq
  | installs _ _ hd eq =>
    rw [hd] at hok
    rw [onInstallSnapshot, if_pos (by simpa using hok)] at eq
    exact hkeep eq
  | restart => simp [delivered] at hok

lemma run_unled (as : List (Action N C L)) (hok : along (unled n) s as = true) (h : UnledFibers n s.fibers) :
    SameProgress (s.nodes n) ((run s as).nodes n) := by
  induction as generalizing s with
  | nil => exact ⟨rfl, rfl⟩
  | cons _ _ ih =>
    simp only [along, Bool.and_eq_true] at hok
    exact (step_unled hok.1 h).trans (ih hok.2 (step_unledFibers hok.1 h))

/-- **A restarting member waits.** -/
theorem restart_waits (s : Cluster N C L) (n noId : N) (peers : List N) (fsyncIntervalMs : ℕ) (log : L)
    (f : RaftFiles N C) (held : ℕ → Prop) (hheld : ∀ i, 0 < i → i ≤ max f.applyMeta f.snapshotIndex → held i)
    (h : f.jointWithVoter noId ∨ ∀ i, 0 < i → Reaches (prunedLog log f) i → held i) (as : List (Action N C L))
    (hok : along (unled n) (s.step (.restart n (serviceInit noId n peers fsyncIntervalMs log f).recovered)) as = true) :
    let nd := (run s (.restart n (serviceInit noId n peers fsyncIntervalMs log f).recovered :: as)).nodes n
    ∀ i, 0 < i → i ≤ max nd.commitIndex nd.lastApplied → held i := by
  intro nd i hpos hi
  set s1 := s.step (.restart n (serviceInit noId n peers fsyncIntervalMs log f).recovered) with hs1
  have hfibers : UnledFibers n s1.fibers := by
    intro g hg ho
    obtain ⟨g0, hg0, rfl⟩ := mem_map.1 hg
    split_ifs at ho ⊢ with hgn
    · trivial
    · exact absurd ho hgn
  have hnode : (s1.nodes n).commitIndex = (serviceInit noId n peers fsyncIntervalMs log f).commitIndex ∧
      (s1.nodes n).lastApplied = (serviceInit noId n peers fsyncIntervalMs log f).lastApplied := by
    simp only [hs1, step, killFibers_nodes, setNode_self, restartNode, RaftNode.recovered, and_self]
  have hrun : SameProgress (s1.nodes n) nd := run_unled as hok hfibers
  rw [hrun.1, hrun.2, hnode.1, hnode.2] at hi
  rcases serviceInit_progress noId n peers fsyncIntervalMs log f hi with hi | ⟨hj, hi⟩
  · exact hheld i hpos hi
  · exact h.resolve_left hj i hpos hi

def heldByMajority [DecidableEq C] (s : Cluster N C L) (voters : List N) (n : N) (i : ℕ) : Prop :=
  voters.length < 2 * (voters.filter fun v => get (s.nodes v).log i ≠ none ∧ get (s.nodes v).log i =
  get (s.nodes n).log i).length

section Traces

def members : List (Option (Fin 3)) := [some 0, some 1, some 2]

def memberConfig (n : Option (Fin 3)) : ClusterConfig (Option (Fin 3)) :=
  { voters := ⟨members.filter (· ≠ n), List.Nodup.filter _ (by decide)⟩ }

def leaderAppends : List (Action (Option (Fin 3)) ℕ (CommandLog (Option (Fin 3)) ℕ)) :=
  [.call (some 0) .startElection, .advance 0, .deliver 0, .recv 0, .advance 0, .deliver 0, .recv 0, .advance 0,
    .call (some 0) (.submitEntry (.client 10))]

/-- node 0 as `Service::Init` leaves it, from the log and the files that it has in `s` -/
def startsAgain (s : Cluster (Option (Fin 3)) ℕ (CommandLog (Option (Fin 3)) ℕ)) :
    RaftNode (Option (Fin 3)) ℕ (CommandLog (Option (Fin 3)) ℕ) :=
  serviceInit none (some 0) members 0 (s.nodes (some 0)).log (s.nodes (some 0)).files

/-- the entry has arrived at node 1 when node 0 restarts -/
theorem restart_waits_held :
    let s := run (init memberConfig) (leaderAppends ++ [.advance 1, .advance 1, .advance 1, .advance 1, .deliver 1])
    let nd := (run s [.restart (some 0) (startsAgain s).recovered, .call (some 0) .startElection]).nodes (some 0)
    ∀ i, 0 < i → i ≤ max nd.commitIndex nd.lastApplied → heldByMajority s members (some 0) i := by
  intro s
  have hone : heldByMajority s members (some 0) 1 := by unfold heldByMajority; decide +kernel
  refine restart_waits s (some 0) none members 0 (s.nodes (some 0)).log (s.nodes (some 0)).files
    (heldByMajority s members (some 0)) ?_ (Or.inr ?_) [.call (some 0) .startElection] (by decide +kernel)
  · intro i hpos hi
    have hfiles : max (s.nodes (some 0)).files.applyMeta (s.nodes (some 0)).files.snapshotIndex = 0 := by decide +kernel
    omega
  · intro i hpos hi
    have hlast : lastIndex (prunedLog (s.nodes (some 0)).log (s.nodes (some 0)).files) = 1 := by decide +kernel
    have hall : ∀ e ∈ entries (prunedLog (s.nodes (some 0)).log (s.nodes (some 0)).files), e.index ≤ 1 := by
      decide +kernel
    have h1 : i = 1 := by
      rcases hi with hi | ⟨e, he, hi⟩
      · omega
      · have := hall e he; omega
    rw [h1]; exact hone

/-- **A restarting member commits its own tail**: no other node has the entry. -/
theorem restart_selfCommits :
    let s := run (init memberConfig) leaderAppends
    let nd := (run s [.restart (some 0) (startsAgain s).recovered]).nodes (some 0)
    ¬ heldByMajority s members (some 0) 1 ∧ nd.role = .follower ∧ nd.commitIndex = 1 ∧ nd.lastApplied = 1 := by
  unfold heldByMajority
  decide +kernel

end Traces

end Cluster

end MaxRedis.Raft

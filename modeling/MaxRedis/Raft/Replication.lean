/-
`RaftNode`: replication, commit and apply, heartbeats, reads, snapshots and membership changes (`raft_node.cc`).

As in `Raft.Node`, every definition is one section under `mutex_`.
- `applyCommittedLogsLocked`, `advanceCommitIndexLocked`: apply and commit, in the stable and in the joint state;
- `onAppendEntries`: the check of the predecessor, the conflict loop, the cut of the tail, the commit;
- `replicateStart`, `replicateFinish` and `heartbeatStart`, `heartbeatFinish`: phases 1 and 3 of the two rounds; phase
  2, the requests, is `Raft.Cluster`;
- `readIndexStart`, `readIndexFinish`, `startTransfer`, `beginConfigChange`, `onInstallSnapshot`, `createSnapshot`:
  reads, transfers, membership and snapshots.
-/
import Mathlib.Data.List.Sort
import MaxRedis.Raft.Node

namespace MaxRedis.Raft

def maxAppendBatch : ℕ := 128

def applyBatchSize : ℕ := 128

def waitForAppliedTimeoutMs : ℕ := 5000

/-- what phase 1 of `ReplicateLog` collects for a peer; `idx` is its position in the arrays -/
structure PeerReq (N C : Type) where
  id : N
  idx : ℕ
  next : ℕ
  prev : LogEntry N C := .blank
  needSnapshot : Bool := false
  snapshotIndex : ℕ := 0
  snapshotTerm : ℕ := 0
  entries : List (LogEntry N C) := []
  deriving DecidableEq

/-- what phase 2 keeps of an answer -/
structure PeerRsp where
  ok : Bool
  matchIndex : ℕ
  term : ℕ
  deriving DecidableEq

namespace RaftNode

open LogStorage

variable {N C L : Type} [DecidableEq N] [LogStorage N C L]

/-! ## Apply -/

/-- one entry of the apply loop: a configuration entry moves Stable to Joint and Joint to Stable -/
def applyEntry (nd : RaftNode N C L) (entry : LogEntry N C) : RaftNode N C L :=
  match entry.command with
  | .configChange target =>
    match nd.configState with
    | .joint =>
      { nd with
        clusterConfig := target, jointConfig := {}, jointEntryIndex := 0, jointFinalizeAppended := false
        configState := .stable, storage := nd.storage.setJointConfigState .stable {}, lastApplied := entry.index }
    | .stable =>
      let joint : JointConfig N := ⟨nd.clusterConfig, target⟩
      { nd with
        jointConfig := joint, jointEntryIndex := entry.index, jointFinalizeAppended := false
        configState := .joint, storage := nd.storage.setJointConfigState .joint joint, lastApplied := entry.index }
  | _ => { nd with stateMachine := nd.stateMachine ++ [entry], lastApplied := entry.index }

/-- `apply.meta` is written at once or, with an interval, after a flush of the log -/
def flushApplyProgress (nd : RaftNode N C L) : RaftNode N C L :=
  let nd := { nd with applyProgress := nd.applyProgress.updateMemoryOnly nd.lastApplied }
  if nd.applyMetaFlushIntervalMs = 0 ∨ nd.applyMetaFlushIntervalMs ≤ nd.nowMs - nd.lastApplyMetaFlushMs then
    let nd := if 0 < nd.applyMetaFlushIntervalMs then { nd with log := flush nd.log } else nd
    { nd with applyProgress := nd.applyProgress.flush, lastApplyMetaFlushMs := nd.nowMs }
  else nd

/-- the loop of `ApplyCommittedLogsLocked`; `fuel` bounds the number of batches -/
def applyLoop : ℕ → RaftNode N C L → RaftNode N C L
  | 0, nd => nd
  | fuel + 1, nd =>
    if nd.lastApplied < nd.commitIndex ∧ nd.lastApplied < lastIndex nd.log then
      let entries := getRange nd.log (nd.lastApplied + 1) (min applyBatchSize (nd.commitIndex - nd.lastApplied))
      if entries = [] then nd
      else applyLoop fuel ((entries.foldl applyEntry nd).flushApplyProgress)
    else nd

def applyCommittedLogsLocked (nd : RaftNode N C L) : RaftNode N C L := applyLoop (nd.commitIndex + 1) nd

/-! ## Commit -/

/-- `std::nth_element` in descending order -/
def kthLargest (k : ℕ) (indexes : List ℕ) : Option ℕ := (indexes.insertionSort (· ≥ ·))[k]?

/-- the guard on the term lets an index pass whose term the log does not know (`GetTerm` 0) -/
def commitTo (nd : RaftNode N C L) (candidate : ℕ) : RaftNode N C L :=
  if nd.commitIndex < candidate then
    let candidateTerm := getTerm nd.log candidate
    if candidateTerm ≠ 0 ∧ candidateTerm < nd.term then nd else { nd with commitIndex := candidate }
  else nd

/-- `CalcConfigCommit`: what a majority of one configuration holds, the leader's own log included -/
def calcConfigCommit (nd : RaftNode N C L) (config : ClusterConfig N) : ℕ :=
  let indexes := lastIndex nd.log ::
    ((nd.lastPeerIds.zip nd.peerLastLogIndex).filter (fun p => config.voters.count p.1)).map Prod.snd
  (kthLargest ((config.voters.ids.length + 1) / 2) indexes).getD 0

def advanceCommitIndexJointLocked (nd : RaftNode N C L) : RaftNode N C L :=
  nd.commitTo (min (nd.calcConfigCommit nd.jointConfig.oldConfig) (nd.calcConfigCommit nd.jointConfig.newConfig))

/-- `AdvanceCommitIndexLocked`: in the stable state every position of the array counts -/
def advanceCommitIndexLocked (nd : RaftNode N C L) : RaftNode N C L :=
  match nd.configState with
  | .joint => nd.advanceCommitIndexJointLocked
  | .stable =>
    match kthLargest ((nd.clusterConfig.voters.ids.length + 1) / 2) (lastIndex nd.log :: nd.peerLastLogIndex) with
    | none => nd
    | some candidate => nd.commitTo candidate

/-- the leader appends the second configuration entry when the first is committed -/
def maybeAutoFinalizeJointLocked (nd : RaftNode N C L) : RaftNode N C L :=
  if nd.configState ≠ .joint ∨ nd.role ≠ .leader ∨ nd.jointFinalizeAppended then nd
  else if nd.jointEntryIndex = 0 ∨ nd.commitIndex < nd.jointEntryIndex then nd
  else if getTerm nd.log nd.jointEntryIndex ≠ nd.term then nd
  else
    { nd with
      log := append nd.log ⟨nd.term, 0, .configChange nd.jointConfig.newConfig⟩ true
      jointFinalizeAppended := true }

/-! ## AppendEntries -/

/-- the conflict loop of `OnAppendEntries`; the flag says that it left through the gap branch. An entry of index 0 is
not told apart: every log numbers its entries from 1, and in the source `index - 1` would wrap there -/
def appendLoop : L → List (LogEntry N C) → L × Bool
  | log, [] => (log, false)
  | log, entry :: rest =>
    if entry.index ≤ lastIndex log then
      if ((get log entry.index).map LogEntry.term) = some entry.term then appendLoop log rest
      else appendLoop (append (truncateFrom log (entry.index - 1)) entry true) rest
    else if entry.index = lastIndex log + 1 then appendLoop (append log entry true) rest
    else (log, true)

/-- the log is cut behind the last entry sent, even where it agrees with the leader's -/
def truncateTail (log : L) (entries : List (LogEntry N C)) : L :=
  match entries.getLast? with
  | none => log
  | some last => if last.index < lastIndex log then truncateFrom log last.index else log

/-- `leader_commit` bounded by the end of the log -/
def commitFromLeader (nd : RaftNode N C L) (leaderCommit : ℕ) : RaftNode N C L :=
  if nd.commitIndex < leaderCommit then
    ({ nd with commitIndex := min leaderCommit (lastIndex nd.log) }).applyCommittedLogsLocked
  else nd

/-- `OnAppendEntries` -/
def onAppendEntries (nd : RaftNode N C L) (req : AppendEntriesRequest N C) : RaftNode N C L × AppendEntriesResponse :=
  if req.term < nd.term then (nd, ⟨nd.term, false, lastIndex nd.log⟩)
  else
    let nd := if nd.term < req.term then nd.becomeFollowerLocked req.term else nd
    let myLast := lastIndex nd.log
    if myLast < req.prevLogIndex then (nd, ⟨nd.term, false, myLast⟩)
    else if 0 < req.prevLogIndex ∧ getTerm nd.log req.prevLogIndex ≠ req.prevLogTerm then
      (nd, ⟨nd.term, false, req.prevLogIndex - 1⟩)
    else
      match appendLoop nd.log (req.entries.take maxAppendBatch) with
      | (log, true) => ({ nd with log := log }, ⟨nd.term, false, lastIndex log⟩)
      | (log, false) =>
        let log := truncateTail log req.entries
        let nd := ({ nd with log := log }).commitFromLeader req.leaderCommit
        (nd, ⟨nd.term, true, lastIndex log⟩)

/-! ## ReplicateLog -/

/-- `ShouldInstallSnapshot` -/
def shouldInstallSnapshot (nextIndex snapshotIndex : ℕ) : Bool := 0 < snapshotIndex ∧ nextIndex ≤ snapshotIndex

/-- the predecessor is read from the log, and its term from the anchor where the log has no entry -/
def buildPeerReq (nd : RaftNode N C L) (id : N) (i : ℕ) : PeerReq N C :=
  let next := max ((nd.peerNextIndex[i]?).getD 0) 1
  if shouldInstallSnapshot next nd.lastSnapshotIndex then
    { id, idx := i, next, needSnapshot := true, snapshotIndex := nd.lastSnapshotIndex,
      snapshotTerm := nd.lastSnapshotTerm }
  else
    let prev :=
      if 1 < next then (get nd.log (next - 1)).getD ⟨getTerm nd.log (next - 1), next - 1, .empty⟩ else .blank
    { id, idx := i, next, prev, entries := getRange nd.log next maxAppendBatch }

/-- peers whose last heartbeat was answered come first -/
def sendOrder (nd : RaftNode N C L) (n : ℕ) : List ℕ :=
  let ok := fun i => (nd.peerHbOk[i]?).getD false
  (List.range n).filter (fun i => ok i) ++ (List.range n).filter (fun i => !ok i)

/-- `ReplicateLog`, phase 1: term, majority, last index and the requests of the round -/
def replicateStart (nd : RaftNode N C L) : RaftNode N C L × Option (ℕ × ℕ × ℕ × List (PeerReq N C)) :=
  if nd.role ≠ .leader then (nd, none)
  else
    let peers := nd.getPeerIdsLocked
    let nd := { nd.resizePeerArraysLocked peers.length with lastPeerIds := peers }
    let preq := (nd.sendOrder peers.length).filterMap (fun i => (peers[i]?).map (fun id => nd.buildPeerReq id i))
    (nd, some (nd.term, nd.clusterConfig.voters.ids.length / 2 + 1, lastIndex nd.log, preq))

/-- `ReplicateLog` without peers -/
def replicateAlone (nd : RaftNode N C L) : RaftNode N C L :=
  if nd.role ≠ .leader then nd
  else nd.advanceCommitIndexLocked.maybeAutoFinalizeJointLocked.applyCommittedLogsLocked

/-- phase 3 for one answer: a refusal moves the next index back, at most to the index reported -/
def recordPeerRsp (nd : RaftNode N C L) (p : PeerReq N C × PeerRsp) : RaftNode N C L :=
  let i := p.1.idx
  if p.2.ok then
    { nd with
      peerLastLogIndex := nd.peerLastLogIndex.set i p.2.matchIndex
      peerNextIndex := nd.peerNextIndex.set i (p.2.matchIndex + 1) }
  else
    let backoff := max (min ((nd.peerNextIndex[i]?).getD 0 - 1) (p.2.matchIndex + 1)) 1
    { nd with
      peerNextIndex := nd.peerNextIndex.set i backoff
      peerLastLogIndex :=
        if backoff ≤ nd.lastSnapshotIndex then nd.peerLastLogIndex.set i nd.lastSnapshotIndex else nd.peerLastLogIndex }

/-- phase 3; `none` when the call returns, otherwise whether another round is needed -/
def replicateFinish (nd : RaftNode N C L) (currentTerm : ℕ) (rsps : List (PeerReq N C × PeerRsp)) :
    RaftNode N C L × Option Bool :=
  let maxTerm := rsps.foldl (fun t p => max t p.2.term) currentTerm
  if nd.term < maxTerm then (nd.becomeFollowerLocked maxTerm, none)
  else if nd.role ≠ .leader ∨ nd.term ≠ currentTerm then (nd, none)
  else
    let nd := rsps.foldl recordPeerRsp nd
    let nd := nd.advanceCommitIndexLocked.maybeAutoFinalizeJointLocked.applyCommittedLogsLocked
    (nd, some (rsps.any (fun p => !p.2.ok)))

/-! ## Heartbeats -/

/-- `OnHeartbeat`: a leader of the same term answers without stepping down -/
def onHeartbeat (nd : RaftNode N C L) (request : HeartbeatRequest N) : RaftNode N C L × HeartbeatResponse :=
  if request.term < nd.term then (nd, ⟨nd.term, false, lastIndex nd.log⟩)
  else if nd.term < request.term ∨ nd.role ≠ .leader then
    let nd := nd.becomeFollowerLocked request.term
    let nd :=
      if nd.commitIndex < request.leaderCommit ∧ request.leaderCommit ≤ lastIndex nd.log then
        ({ nd with commitIndex := request.leaderCommit }).applyCommittedLogsLocked
      else nd
    (nd, ⟨nd.term, true, lastIndex nd.log⟩)
  else (nd, ⟨nd.term, true, lastIndex nd.log⟩)

/-- `HeartbeatTickImpl`, phase 1 -/
def heartbeatStart (nd : RaftNode N C L) : Option (HeartbeatRequest N × List N) :=
  if nd.role ≠ .leader then none else some (⟨nd.term, nd.nodeId, nd.commitIndex⟩, nd.getPeerIdsLocked)

/-- the reported last index is stored as it is, whatever entries the peer has -/
def recordHeartbeatAck (nd : RaftNode N C L) (p : N × ℕ) : RaftNode N C L :=
  let i := nd.lastPeerIds.idxOf p.1
  if i < nd.lastPeerIds.length then
    { nd with peerHbOk := nd.peerHbOk.set i true, peerLastLogIndex := nd.peerLastLogIndex.set i p.2 }
  else nd

def extendLeaderLeaseLocked (nd : RaftNode N C L) : RaftNode N C L :=
  { nd with leaderLeaseExpire := nd.nowMs + nd.leaseMs }

def checkTransferTimeoutLocked (nd : RaftNode N C L) : RaftNode N C L :=
  if nd.transferCtx.isActive ∧ nd.transferTimeoutMs ≤ nd.nowMs - nd.transferCtx.startMs then nd.cancelTransferLocked
  else nd

/-- `IsTransferReadyLocked`: the target's counter against the end of the log -/
def isTransferReadyLocked (nd : RaftNode N C L) (target : N) : Bool :=
  match (nd.lastPeerIds.zip nd.peerLastLogIndex).find? (fun p => p.1 = target) with
  | some p => decide (lastIndex nd.log ≤ p.2)
  | none => false

def recordHeartbeatAcks (nd : RaftNode N C L) (rspLastLog : List (N × ℕ)) : RaftNode N C L :=
  let peers := nd.getPeerIdsLocked
  let nd := { nd.resizePeerArraysLocked peers.length with lastPeerIds := peers }
  let nd := { nd with peerHbOk := nd.peerHbOk.map (fun _ => false) }
  rspLastLog.foldl recordHeartbeatAck nd

/-- the number of answers, the leader's included, that renews the lease -/
def leaseMajority (nd : RaftNode N C L) : ℕ :=
  match nd.configState with
  | .joint =>
    max ((nd.jointConfig.oldConfig.voters.ids.length + 1) / 2 + 1)
    ((nd.jointConfig.newConfig.voters.ids.length + 1) / 2 + 1)
  | .stable => nd.clusterConfig.voters.ids.length / 2 + 1

/-- the transfer's part of a heartbeat: whether to send TimeoutNow, and whether to replicate -/
def transferTick (nd : RaftNode N C L) : RaftNode N C L × Bool × Bool :=
  if nd.transferCtx.isActive then
    let nd := nd.checkTransferTimeoutLocked
    if nd.transferCtx.state = .waitingCatchUp ∧ nd.role = .leader then
      match nd.transferCtx.target with
      | none => (nd, false, true)
      | some target =>
        if nd.isTransferReadyLocked target then
          ({ nd with transferCtx := { nd.transferCtx with state := .waitingElection } }, true, false)
        else (nd, false, true)
    else (nd, false, false)
  else (nd, false, false)

/-- `HeartbeatTickImpl`, phase 3; the flags say whether TimeoutNow is to be sent and a round to be run -/
def heartbeatFinish (nd : RaftNode N C L) (isLoop : Bool) (epoch ackCount : ℕ) (rspLastLog : List (N × ℕ))
    (maxPeerTerm : ℕ) : RaftNode N C L × Option (Bool × Bool) :=
  if isLoop ∧ nd.heartbeatEpoch ≠ epoch then (nd, none)
  else if nd.role ≠ .leader then (nd, none)
  else if nd.term < maxPeerTerm then (nd.becomeFollowerLocked maxPeerTerm, none)
  else
    let behind := rspLastLog.any (fun p => decide (p.1 ∈ nd.getPeerIdsLocked) && decide (p.2 < lastIndex nd.log))
    let nd := (nd.recordHeartbeatAcks rspLastLog).advanceCommitIndexLocked
    if nd.leaseMajority ≤ ackCount then
      let nd := ({ nd with lastMajorityAckMs := nd.nowMs }).extendLeaderLeaseLocked
      let (nd, sendTimeoutNow, catchUp) := nd.transferTick
      (nd, some (sendTimeoutNow, behind || catchUp))
    else if nd.checkQuorumMs < nd.nowMs - nd.lastMajorityAckMs then (nd.stepDownLocked, none)
    else
      let (nd, sendTimeoutNow, catchUp) := nd.transferTick
      (nd, some (sendTimeoutNow, behind || catchUp))

/-! ## Reads -/

inductive ReadStart (N : Type) where
  | notLeader
  | lease (readIndex : ℕ)
  | quorum (req : ReadIndexRequest N) (peers : List N)

/-- `ReadIndex`, first section: within the lease the read needs no round -/
def readIndexStart (nd : RaftNode N C L) : RaftNode N C L × ReadStart N :=
  if nd.role ≠ .leader then (nd, .notLeader)
  else if nd.nowMs < nd.leaderLeaseExpire then (nd, .lease nd.commitIndex)
  else
    let nd := { nd with nextReadIndexRequestId := nd.nextReadIndexRequestId + 1 }
    (nd, .quorum ⟨nd.term, nd.nodeId, nd.nextReadIndexRequestId⟩ nd.getPeerIdsLocked)

/-- `ReadIndex`, phase 3: the read index, 0 when leadership is not confirmed -/
def readIndexFinish (nd : RaftNode N C L) (currentTerm successCount maxPeerTerm : ℕ) : RaftNode N C L × ℕ :=
  if nd.term < maxPeerTerm then (nd.becomeFollowerLocked maxPeerTerm, 0)
  else if nd.role ≠ .leader ∨ nd.term ≠ currentTerm then (nd, 0)
  else if successCount < (nd.clusterConfig.voters.ids.length + 1) / 2 + 1 then (nd, 0)
  else (({ nd with lastMajorityAckMs := nd.nowMs }).extendLeaderLeaseLocked, nd.commitIndex)

/-! ## Leadership transfer -/

/-- `StartTransfer`, first section; the flag says that the transfer was initiated -/
def startTransfer (nd : RaftNode N C L) (target : N) : RaftNode N C L × Bool :=
  if nd.role ≠ .leader ∨ nd.transferCtx.isActive ∨ target ∉ nd.getPeerIdsLocked then (nd, false)
  else ({ nd with transferCtx := ⟨some target, .requested, nd.nowMs⟩ }, true)

/-- `StartTransfer`, second section, after the catch-up round -/
def transferCheck (nd : RaftNode N C L) (target : N) : RaftNode N C L × Option Bool :=
  if nd.role ≠ .leader ∨ !nd.transferCtx.isActive then (nd, none)
  else if nd.isTransferReadyLocked target then
    ({ nd with transferCtx := { nd.transferCtx with state := .waitingElection } }, some true)
  else ({ nd with transferCtx := { nd.transferCtx with state := .waitingCatchUp } }, some false)

/-- `SendTimeoutNowToTarget`, first section: the term is the one of this section -/
def timeoutNowStart (nd : RaftNode N C L) : Option (TimeoutNowRequest N) :=
  if !nd.transport ∨ nd.transferCtx.target = none ∨ nd.role ≠ .leader then none else some ⟨nd.term, nd.nodeId⟩

def timeoutNowFinish (nd : RaftNode N C L) (accepted : Bool) : RaftNode N C L :=
  if nd.role ≠ .leader then nd else if accepted then nd else nd.cancelTransferLocked

/-! ## Writes, membership changes and snapshots -/

/-- `SubmitEntry`, first section: the entry is appended, not yet flushed -/
def submitAppend (nd : RaftNode N C L) (command : Command N C) : RaftNode N C L × Option ℕ :=
  if nd.role ≠ .leader then (nd, none)
  else
    let log := append nd.log ⟨nd.term, 0, command⟩ false
    ({ nd with log := log }, some (lastIndex log))

/-- `BeginConfigChange`: step 1 in the stable state, step 2 in the joint state -/
def beginConfigChange (nd : RaftNode N C L) (target : ClusterConfig N) : RaftNode N C L × Bool :=
  if nd.role ≠ .leader then (nd, false)
  else
    match nd.configState with
    | .joint =>
      let new := nd.jointConfig.newConfig
      if !target.voters.same new.voters ∨ !target.learners.same new.learners ∨
        target.version ≠ new.version then (nd, false)
      else
        ({ nd with log := append nd.log ⟨nd.term, 0, .configChange target⟩ true, jointFinalizeAppended := true }, true)
    | .stable =>
      ({ nd with
         jointConfig := ⟨nd.clusterConfig, target⟩
         log := append nd.log ⟨nd.term, 0, .configChange target⟩ true }, true)

/-- `OnInstallSnapshot` of the last chunk; `snapshot.meta` is not written -/
def onInstallSnapshot (nd : RaftNode N C L) (req : InstallSnapshotRequest N C) :
    RaftNode N C L × InstallSnapshotResponse :=
  if req.term < nd.term then (nd, ⟨nd.term, false⟩)
  else
    let nd := if nd.term < req.term then nd.becomeFollowerLocked req.term else nd
    ({ nd with
       snapshotBin := some req.data
       stateMachine := req.data
       lastApplied := req.lastIncludedIndex
       commitIndex := max nd.commitIndex req.lastIncludedIndex
       lastSnapshotIndex := req.lastIncludedIndex
       lastSnapshotTerm := req.lastIncludedTerm
       applyProgress := nd.applyProgress.update req.lastIncludedIndex
       log := setSnapshotAnchor (clear nd.log) req.lastIncludedIndex req.lastIncludedTerm }, ⟨req.term, true⟩)

/-- `CreateSnapshot`: a bound of 0 means the end of the log -/
def createSnapshot (nd : RaftNode N C L) (boundIndex : ℕ) : RaftNode N C L :=
  let logLast := lastIndex nd.log
  let bound := if 0 < boundIndex then min boundIndex logLast else logLast
  let boundTerm := if bound = logLast then lastTerm nd.log else getTerm nd.log bound
  { nd with
    snapshotBin := some nd.stateMachine
    snapshotMeta := ⟨bound, boundTerm⟩
    log := compactLogs nd.log bound boundTerm }

/-- `CreateSnapshotIfNeeded`: due when the log has grown by `log_gap` since the last one -/
def createSnapshotIfNeeded (nd : RaftNode N C L) : RaftNode N C L :=
  if lastIndex nd.log < nd.snapshotMeta.index + nd.logGap then nd
  else
    let nd := nd.createSnapshot nd.lastApplied
    if nd.lastSnapshotIndex < nd.snapshotMeta.index then
      { nd with lastSnapshotIndex := nd.snapshotMeta.index, lastSnapshotTerm := nd.snapshotMeta.term }
    else nd

def shutDown (nd : RaftNode N C L) : RaftNode N C L :=
  { nd with shutdown := true, transport := false, heartbeatStop := true }

end RaftNode

end MaxRedis.Raft

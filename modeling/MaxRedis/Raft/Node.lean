/-
`RaftNode`: the state of one node, its roles, elections and votes (`raft_node.cc`, `raft_storage.cc`).

Every definition is one section under `mutex_`. What waits (for an answer, for another lock) is cut into sections, and
`Raft.Cluster` puts them together again.
- `RaftStorage`: `meta.json` and its copy in memory, written through by each setter;
- `becomeFollowerLocked`, `becomeCandidateLocked`, `becomeLeaderLocked`: the roles;
- `onRequestVote`, `startElection`, `finishElection`: votes, with the count for a stable and for a joint configuration.
-/
import MaxRedis.Raft.LogStorage

namespace MaxRedis.Raft

/-! ## `meta.json` and `apply.meta` -/

/-- what `meta.json` holds: the learners of the two configurations are not written -/
structure MetaFile (N : Type) where
  currentTerm : ℕ := 0
  votedFor : Option N := none
  configState : ConfigState := .stable
  jointOldVoters : IdSet N := .empty
  jointNewVoters : IdSet N := .empty
  jointOldVersion : ℕ := 0
  jointNewVersion : ℕ := 0
  deriving DecidableEq

/-- `RaftStorage`: the persistent state in memory, and the file as the last flush left it -/
structure RaftStorage (N : Type) where
  currentTerm : ℕ := 0
  votedFor : Option N := none
  configState : ConfigState := .stable
  jointConfig : JointConfig N := {}
  file : MetaFile N := {}
  deriving DecidableEq

namespace RaftStorage
variable {N : Type}

def serialize (s : RaftStorage N) : MetaFile N :=
  ⟨s.currentTerm, s.votedFor, s.configState, s.jointConfig.oldConfig.voters, s.jointConfig.newConfig.voters,
    s.jointConfig.oldConfig.version, s.jointConfig.newConfig.version⟩

def flush (s : RaftStorage N) : RaftStorage N := { s with file := s.serialize }

def load (f : MetaFile N) : RaftStorage N :=
  { currentTerm := f.currentTerm
    votedFor := f.votedFor
    configState := f.configState
    jointConfig := ⟨⟨f.jointOldVersion, f.jointOldVoters, .empty⟩, ⟨f.jointNewVersion, f.jointNewVoters, .empty⟩⟩
    file := f }

def setVotedFor (s : RaftStorage N) (v : Option N) : RaftStorage N := flush { s with votedFor := v }

def setState (s : RaftStorage N) (term : ℕ) (v : Option N) : RaftStorage N :=
  flush { s with currentTerm := term, votedFor := v }

def setJointConfigState (s : RaftStorage N) (state : ConfigState) (joint : JointConfig N) : RaftStorage N :=
  flush { s with configState := state, jointConfig := joint }

end RaftStorage

/-- `ApplyProgress`: `last_applied_` in memory and in `apply.meta` -/
structure ApplyProgress where
  lastApplied : ℕ := 0
  file : ℕ := 0
  deriving DecidableEq, Repr

namespace ApplyProgress

def flush (p : ApplyProgress) : ApplyProgress := { p with file := p.lastApplied }
def updateMemoryOnly (p : ApplyProgress) (index : ℕ) : ApplyProgress := { p with lastApplied := index }
def update (p : ApplyProgress) (index : ℕ) : ApplyProgress := flush { p with lastApplied := index }
def reset (p : ApplyProgress) (index : ℕ) : ApplyProgress := flush { p with lastApplied := index }
def load (file : ℕ) : ApplyProgress := ⟨file, file⟩

end ApplyProgress

/-! ## The node -/

/-- `stateMachine` is the list of the entries passed to `ApplyLogEntry`: every state machine's state is a function of
it. `nowMs` is the node's monotonic clock. -/
structure RaftNode (N C L : Type) where
  nodeId : N
  log : L
  storage : RaftStorage N := {}
  role : RaftRole := .follower
  leaderTerm : ℕ := 0
  voteCount : ℕ := 0
  oldConfigVotes : ℕ := 0
  newConfigVotes : ℕ := 0
  clusterConfig : ClusterConfig N := {}
  configState : ConfigState := .stable
  jointConfig : JointConfig N := {}
  idOrder : IdOrder N := .asListed
  jointEntryIndex : ℕ := 0
  jointFinalizeAppended : Bool := false
  stateMachine : List (LogEntry N C) := []
  commitIndex : ℕ := 0
  lastApplied : ℕ := 0
  applyProgress : ApplyProgress := {}
  applyMetaFlushIntervalMs : ℕ := 0
  lastApplyMetaFlushMs : ℕ := 0
  lastSnapshotIndex : ℕ := 0
  lastSnapshotTerm : ℕ := 0
  snapshotMeta : SnapshotMeta := {}
  snapshotBin : Option (List (LogEntry N C)) := none
  logGap : ℕ := 100000
  lastPeerIds : List N := []
  peerNextIndex : List ℕ := []
  peerLastLogIndex : List ℕ := []
  peerHbOk : List Bool := []
  leaderLeaseExpire : ℕ := 0
  leaseMs : ℕ := 100
  lastMajorityAckMs : ℕ := 0
  checkQuorumMs : ℕ := 600
  nextReadIndexRequestId : ℕ := 0
  transferCtx : LeaderTransferContext N := {}
  transferTimeoutMs : ℕ := 3000
  heartbeatStop : Bool := true
  heartbeatEpoch : ℕ := 0
  transport : Bool := true
  shutdown : Bool := false
  nowMs : ℕ := 0

/-- `std::vector::resize` with a fill value -/
def resize {α : Type} (l : List α) (n : ℕ) (d : α) : List α := l.take n ++ List.replicate (n - l.length) d

namespace RaftNode

open LogStorage

variable {N C L : Type}

def term (nd : RaftNode N C L) : ℕ := nd.storage.currentTerm

def votedFor (nd : RaftNode N C L) : Option N := nd.storage.votedFor

section Roles
variable [DecidableEq N]

/-- the ids that `GetPeerIdsLocked` returns, as a set: everybody in force but the node itself -/
def peerSet (nd : RaftNode N C L) : List N :=
  match nd.configState with
  | .joint =>
    let old := nd.jointConfig.oldConfig.voters
    (old.ids ++ nd.jointConfig.newConfig.voters.ids.filter (fun v => !old.count v)).filter (· ≠ nd.nodeId)
  | .stable => nd.clusterConfig.voters.ids.filter (· ≠ nd.nodeId)

/-- `GetPeerIdsLocked`: the positions of `peer_next_index_` and `peer_last_log_index_` follow the order of this list -/
def getPeerIdsLocked (nd : RaftNode N C L) : List N := nd.idOrder.walk nd.peerSet

lemma getPeerIdsLocked_perm (nd : RaftNode N C L) : nd.getPeerIdsLocked.Perm nd.peerSet := nd.idOrder.perm _

/-- `CancelTransferLocked` -/
def cancelTransferLocked (nd : RaftNode N C L) : RaftNode N C L :=
  if nd.transferCtx.isActive then { nd with transferCtx := {} } else nd

def stopHeartbeat (nd : RaftNode N C L) : RaftNode N C L := { nd with heartbeatStop := true }

def startHeartbeat (nd : RaftNode N C L) : RaftNode N C L :=
  { nd with heartbeatStop := false, heartbeatEpoch := nd.heartbeatEpoch + 1 }

/-- `SetRoleLocked`: every change of role drops a transfer and stops the heartbeat loop; a new leader starts one -/
def setRoleLocked (nd : RaftNode N C L) (newRole : RaftRole) : RaftNode N C L :=
  match newRole with
  | .follower => ({ nd with role := .follower, leaderTerm := 0, voteCount := 0 }).cancelTransferLocked.stopHeartbeat
  | .candidate => ({ nd with role := .candidate, voteCount := 1 }).cancelTransferLocked.stopHeartbeat
  | .leader =>
    let nd := ({ nd with role := .leader, leaderTerm := nd.term }).cancelTransferLocked.stopHeartbeat
    if nd.shutdown then nd else nd.startHeartbeat

/-- a later term is adopted with no vote in it; in the same term the vote stays -/
def becomeFollowerLocked (nd : RaftNode N C L) (t : ℕ) : RaftNode N C L :=
  let nd := if nd.term < t then { nd with storage := nd.storage.setState t none } else nd
  nd.setRoleLocked .follower

/-- the term is raised and the node's own vote stored before any request is sent -/
def becomeCandidateNewTermLocked (nd : RaftNode N C L) : RaftNode N C L :=
  ({ nd with storage := nd.storage.setState (nd.term + 1) (some nd.nodeId) }).setRoleLocked .candidate

def becomeCandidateLocked (nd : RaftNode N C L) : RaftNode N C L :=
  if nd.role = .candidate then nd else nd.becomeCandidateNewTermLocked

variable [LogStorage N C L]

/-- the arrays are cut or filled up by count alone, whoever the positions were meant for -/
def resizePeerArraysLocked (nd : RaftNode N C L) (n : ℕ) : RaftNode N C L :=
  { nd with
    peerNextIndex := (resize nd.peerNextIndex n 0).map (fun i => if i = 0 then lastIndex nd.log + 1 else i)
    peerLastLogIndex := resize nd.peerLastLogIndex n 0
    peerHbOk := resize nd.peerHbOk n true }

/-- every peer starts at `LastIndex() + 1` with nothing acknowledged -/
def becomeLeaderInitPeersLocked (nd : RaftNode N C L) : RaftNode N C L :=
  let peers := nd.getPeerIdsLocked
  { nd with
    lastPeerIds := peers
    peerNextIndex := List.replicate peers.length (lastIndex nd.log + 1)
    peerLastLogIndex := List.replicate peers.length 0 }

def becomeLeaderLocked (nd : RaftNode N C L) : RaftNode N C L :=
  let nd := (nd.setRoleLocked .leader).becomeLeaderInitPeersLocked
  { nd with lastMajorityAckMs := nd.nowMs }

/-- `BootstrapSingleNode`: a node without peers elects itself -/
def bootstrapSingleNode (nd : RaftNode N C L) : RaftNode N C L :=
  if nd.role = .leader then nd
  else if nd.getPeerIdsLocked ≠ [] then nd
  else nd.becomeCandidateLocked.becomeLeaderLocked

/-- `OnElectionTimeout`: the requests are sent by `StartElection` -/
def onElectionTimeout (nd : RaftNode N C L) : RaftNode N C L :=
  if nd.shutdown then nd
  else if nd.role ≠ .follower then nd
  else nd.becomeCandidateLocked

/-! ### Votes -/

/-- `OnRequestVote`: one vote a term, and only for a log that is not behind the node's own -/
def onRequestVote (nd : RaftNode N C L) (request : VoteRequest N) : RaftNode N C L × VoteResponse :=
  if request.term < nd.term then (nd, ⟨nd.term, false⟩)
  else
    let nd := if nd.term < request.term then nd.becomeFollowerLocked request.term else nd
    if nd.votedFor ≠ none ∧ nd.votedFor ≠ some request.candidateId then (nd, ⟨nd.term, false⟩)
    else if request.lastLogTerm < lastTerm nd.log then (nd, ⟨nd.term, false⟩)
    else if request.lastLogTerm = lastTerm nd.log ∧ request.lastLogIndex < lastIndex nd.log then (nd, ⟨nd.term, false⟩)
    else
      let nd := { nd with storage := nd.storage.setVotedFor (some request.candidateId) }
      (nd, ⟨nd.term, true⟩)

/-- `StartElection`, first section: the request and the peers to ask, if the node is a candidate now -/
def startElection (nd : RaftNode N C L) : RaftNode N C L × Option (VoteRequest N × List N) :=
  if nd.shutdown then (nd, none)
  else
    let nd :=
      match nd.role with
      | .follower => nd.becomeCandidateLocked
      | .candidate => nd.becomeCandidateNewTermLocked
      | .leader => nd
    if nd.role ≠ .candidate then (nd, none)
    else (nd, some (⟨nd.term, nd.nodeId, lastIndex nd.log, lastTerm nd.log⟩, nd.getPeerIdsLocked))

/-- `TryBecomeLeaderLocked`: in the joint state both configurations have to give their majority -/
def tryBecomeLeaderLocked (nd : RaftNode N C L) : RaftNode N C L :=
  match nd.configState with
  | .joint =>
    let oldMajority := (nd.jointConfig.oldConfig.voters.ids.length + 1) / 2 + 1
    let newMajority := (nd.jointConfig.newConfig.voters.ids.length + 1) / 2 + 1
    if oldMajority ≤ nd.oldConfigVotes ∧ newMajority ≤ nd.newConfigVotes then nd.becomeLeaderLocked else nd
  | .stable =>
    let majority := (nd.clusterConfig.voters.ids.length + 1) / 2 + 1
    if majority ≤ nd.voteCount then nd.becomeLeaderLocked else nd

/-- the votes that count in one of the two configurations: the candidate's own, unless that configuration has voters
and it is not among them, and those of the granters among its voters -/
def configVotes (nd : RaftNode N C L) (config : ClusterConfig N) (granters : List N) : ℕ :=
  (if config.voters.ids = [] ∨ config.voters.count nd.nodeId then 1 else 0) +
  (granters.filter config.voters.count).length

/-- the votes of a round, counted for each configuration in the joint state -/
def countVotes (nd : RaftNode N C L) (result : ElectionResult) (granters : List N) : RaftNode N C L :=
  let nd := { nd with voteCount := result.votesReceived }
  match nd.configState with
  | .joint =>
    { nd with
      oldConfigVotes := nd.configVotes nd.jointConfig.oldConfig granters
      newConfigVotes := nd.configVotes nd.jointConfig.newConfig granters }
  | .stable => nd

/-- `StartElection`, last section: a candidate that did not win goes back to follower -/
def finishElection (nd : RaftNode N C L) (req : VoteRequest N) (result : ElectionResult) (granters : List N)
    (maxPeerTerm : ℕ) : RaftNode N C L :=
  if nd.term < maxPeerTerm then nd.becomeFollowerLocked maxPeerTerm
  else if nd.role ≠ .candidate ∨ nd.term ≠ req.term then nd
  else
    let nd := (nd.countVotes result granters).tryBecomeLeaderLocked
    if nd.role = .candidate ∧ !nd.shutdown then nd.setRoleLocked .follower else nd

/-- the locked part of `OnTimeoutNow`; the flag says whether the handler goes on to `StartElection` -/
def onTimeoutNow (nd : RaftNode N C L) (request : TimeoutNowRequest N) : RaftNode N C L × TimeoutNowResponse × Bool :=
  if request.term < nd.term then (nd, ⟨nd.term, false⟩, false)
  else
    let nd := if nd.term < request.term then nd.becomeFollowerLocked request.term else nd
    (nd, ⟨request.term, true⟩, nd.role ≠ .leader)

/-- `OnReadIndex`: a candidate does not confirm a leader -/
def onReadIndex (nd : RaftNode N C L) (request : ReadIndexRequest N) : RaftNode N C L × ReadIndexResponse :=
  (nd, ⟨nd.term, decide (nd.term ≤ request.term) && decide (nd.role ≠ .candidate), nd.commitIndex⟩)

/-- `StepDownLocked`: the leader gives up in its own term -/
def stepDownLocked (nd : RaftNode N C L) : RaftNode N C L :=
  if nd.role ≠ .leader then nd else nd.becomeFollowerLocked nd.term

end Roles

end RaftNode

end MaxRedis.Raft

/-
A cluster of `RaftNode`s: fibers, requests in flight, and the interleavings of the two.

A call of the source that waits (for an answer, for a lock) is a `Fiber`; `Pc` is where it stands, with its local
variables.
-/
import MaxRedis.Raft.Replication

namespace MaxRedis.Raft

open LogStorage

/-- what a fiber does after a `ReplicateLog` call: `coordinate` is the batch of a group commit, with the attempt of the
caller and the number of rounds so far -/
inductive After (N : Type) where
  | finish
  | transfer (target : N)
  | coordinate (attempt : ℕ) (batch : List ℕ) (i : ℕ)
  deriving DecidableEq

inductive Outcome where
  | done
  | submitted (r : ApplyResult)
  | read (readIndex : ℕ)
  deriving DecidableEq

structure Election (N : Type) where
  req : VoteRequest N
  peers : List N
  todo : List N
  result : ElectionResult
  granters : List N
  maxPeerTerm : ℕ
  deriving DecidableEq

structure HeartbeatRound (N : Type) where
  isLoop : Bool
  epoch : ℕ
  req : HeartbeatRequest N
  todo : List N
  ackCount : ℕ
  rspLastLog : List (N × ℕ)
  maxPeerTerm : ℕ
  deriving DecidableEq

structure ReplicateRound (N C : Type) where
  lowLatency : Bool
  after : After N
  round : ℕ
  currentTerm : ℕ
  majority : ℕ
  myLast : ℕ
  todo : List (PeerReq N C)
  successes : ℕ
  rsps : List (PeerReq N C × PeerRsp)
  deriving DecidableEq

structure ReadRound (N : Type) where
  req : ReadIndexRequest N
  todo : List N
  successCount : ℕ
  maxPeerTerm : ℕ
  deriving DecidableEq

inductive Pc (N C : Type) where
  | election (e : Election N)
  | heartbeat (h : HeartbeatRound N)
  | timeoutStart (needReplicate : Bool)
  | timeoutSend (req : TimeoutNowRequest N) (needReplicate : Bool)
  | timeoutDone (accepted : Bool) (needReplicate : Bool)
  | replicateBegin (lowLatency : Bool) (after : After N) (round : ℕ)
  | replicateAlone (after : After N)
  | replicate (r : ReplicateRound N C)
  | transferCheck (target : N)
  | readIndex (r : ReadRound N)
  | waitForApplied (target deadlineMs : ℕ)
  | submitEnter (attempt : ℕ)
  | submitWait
  | coordinatorTake (attempt : ℕ)
  | coordinatorApply (attempt : ℕ) (batch : List ℕ) (i : ℕ)
  | coordinatorFulfil (attempt : ℕ) (batch : List ℕ) (appliedSnapshot : ℕ)
  | submitCheck (attempt : ℕ)
  | returned (o : Outcome)
  deriving DecidableEq

/-! ## Answers -/

def Election.onRsp {N : Type} (e : Election N) (peer : N) (rsp : VoteResponse) : Election N :=
  { e with
    todo := e.todo.tail
    result := if rsp.voteGranted then { e.result with votesReceived := e.result.votesReceived + 1 }
              else { e.result with votesRejected := e.result.votesRejected + 1 }
    granters := if rsp.voteGranted then e.granters ++ [peer] else e.granters
    maxPeerTerm := max e.maxPeerTerm rsp.term }

def HeartbeatRound.onRsp {N : Type} (h : HeartbeatRound N) (peer : N) (rsp : HeartbeatResponse) : HeartbeatRound N :=
  let counts : Bool := rsp.success && rsp.term = h.req.term
  { h with
    todo := h.todo.tail
    ackCount := if counts then h.ackCount + 1 else h.ackCount
    rspLastLog := if counts then h.rspLastLog ++ [(peer, rsp.lastLogIndex)] else h.rspLastLog
    maxPeerTerm := max h.maxPeerTerm rsp.term }

def PeerReq.onAppend {N C : Type} (p : PeerReq N C) (rsp : AppendEntriesResponse) : PeerRsp :=
  if rsp.success then ⟨true, p.prev.index + p.entries.length, rsp.term⟩
  else ⟨false, if rsp.lastLogIndex < p.next - 1 then rsp.lastLogIndex else 0, rsp.term⟩

def PeerReq.onSnapshot {N C : Type} (p : PeerReq N C) (currentTerm : ℕ) (rsp : InstallSnapshotResponse) : PeerRsp :=
  if rsp.success ∧ rsp.term ≤ currentTerm then ⟨true, p.snapshotIndex, 0⟩ else ⟨false, 0, 0⟩

def ReplicateRound.onRsp {N C : Type} (r : ReplicateRound N C) (rsp : PeerReq N C → PeerRsp) : ReplicateRound N C :=
  match r.todo with
  | [] => r
  | p :: rest =>
    { r with
      todo := rest
      rsps := r.rsps ++ [(p, rsp p)]
      successes := if (rsp p).ok then r.successes + 1 else r.successes }

def ReadRound.onRsp {N : Type} (r : ReadRound N) (rsp : ReadIndexResponse) : ReadRound N :=
  { r with
    todo := r.todo.tail
    successCount := if rsp.success ∧ rsp.term = r.req.term then r.successCount + 1 else r.successCount
    maxPeerTerm := max r.maxPeerTerm rsp.term }

def Pc.onRsp {N C : Type} (pc : Pc N C) (peer : N) (rsp : Response) : Pc N C :=
  match pc, rsp with
  | .election e, .vote rsp => .election (e.onRsp peer rsp)
  | .heartbeat h, .heartbeat rsp => .heartbeat (h.onRsp peer rsp)
  | .timeoutSend _ needReplicate, .timeoutNow rsp => .timeoutDone rsp.accepted needReplicate
  | .replicate r, .appendEntries rsp => .replicate (r.onRsp (fun p => p.onAppend rsp))
  | .replicate r, .installSnapshot rsp => .replicate (r.onRsp (fun p => p.onSnapshot r.currentTerm rsp))
  | .readIndex r, .readIndex rsp => .readIndex (r.onRsp rsp)
  | pc, _ => pc

/-! ## The cluster -/

structure Envelope (N C : Type) where
  dst : N
  request : Request N C
  response : Option Response
  deriving DecidableEq

/-- `RaftWaiter`: the index of a submitted entry, with what its call appended, and the result -/
structure RaftWaiter (N C : Type) where
  idx : ℕ
  entry : LogEntry N C
  res : Option ApplyResult
  deriving DecidableEq

structure Fiber (N C : Type) where
  owner : N
  pc : Pc N C
  rpc : Option (Envelope N C) := none
  waiter : Option (RaftWaiter N C) := none
  deriving DecidableEq

/-- the group commit of a node, under its own lock (`group_mu_`): the fibers that wait for the next batch -/
structure Group where
  active : Bool := false
  waiters : List ℕ := []
  deriving DecidableEq

structure Cluster (N C L : Type) where
  nodes : N → RaftNode N C L
  groups : N → Group
  fibers : List (Fiber N C)
  net : List (N × Request N C)

inductive Call (N C : Type) where
  | startElection
  | onElectionTimeout
  | bootstrapSingleNode
  | heartbeatTick (isLoop : Bool)
  | replicateLog (lowLatency : Bool)
  | readIndex
  | submitEntry (command : Command N C)
  | startTransfer (target : N)
  | cancelTransfer
  | beginConfigChange (target : ClusterConfig N)
  | createSnapshotIfNeeded
  | shutdown
  deriving DecidableEq

/-- what a node has when it starts again, apart from what it reads from `meta.json`: its log, the peers it is told of,
its state machine, snapshot and apply progress -/
structure Recovered (N C L : Type) where
  log : L
  clusterConfig : ClusterConfig N
  stateMachine : List (LogEntry N C)
  lastApplied : ℕ
  commitIndex : ℕ
  applyProgress : ApplyProgress
  snapshotMeta : SnapshotMeta
  snapshotBin : Option (List (LogEntry N C))

inductive Action (N C L : Type) where
  | call (n : N) (f : Call N C)
  | advance (k : ℕ)
  | recv (k : ℕ)
  | fail (k : ℕ)
  | deliver (k : ℕ)
  | deliverLate (j : ℕ)
  | tick (n : N) (ms : ℕ)
  | restart (n : N) (r : Recovered N C L)

namespace Cluster

variable {N C L : Type} [DecidableEq N] [LogStorage N C L]

def setNode (s : Cluster N C L) (n : N) (nd : RaftNode N C L) : Cluster N C L :=
  { s with nodes := fun m => if m = n then nd else s.nodes m }

def setGroup (s : Cluster N C L) (n : N) (g : Group) : Cluster N C L :=
  { s with groups := fun m => if m = n then g else s.groups m }

def setFiber (s : Cluster N C L) (k : ℕ) (f : Fiber N C) : Cluster N C L := { s with fibers := s.fibers.set k f }

def spawn (s : Cluster N C L) (f : Fiber N C) : Cluster N C L := { s with fibers := s.fibers ++ [f] }

/-! ## Calls -/

def startElection (s : Cluster N C L) (n : N) : Cluster N C L :=
  match (s.nodes n).startElection with
  | (nd, none) => s.setNode n nd
  | (nd, some (req, peers)) =>
    (s.setNode n nd).spawn { owner := n, pc := .election ⟨req, peers, peers, ⟨1, 0⟩, [], req.term⟩ }

def call (s : Cluster N C L) (n : N) : Call N C → Cluster N C L
  | .startElection => s.startElection n
  | .onElectionTimeout => s.setNode n (s.nodes n).onElectionTimeout
  | .bootstrapSingleNode => s.setNode n (s.nodes n).bootstrapSingleNode
  | .heartbeatTick isLoop =>
    if isLoop ∧ ((s.nodes n).heartbeatStop ∨ (s.nodes n).shutdown) then s
    else
      match (s.nodes n).heartbeatStart with
      | none => s
      | some (req, peers) =>
        s.spawn { owner := n, pc := .heartbeat ⟨isLoop, (s.nodes n).heartbeatEpoch, req, peers, 1, [], req.term⟩ }
  | .replicateLog lowLatency => s.spawn { owner := n, pc := .replicateBegin lowLatency .finish 0 }
  | .readIndex =>
    match (s.nodes n).readIndexStart with
    | (nd, .notLeader) => (s.setNode n nd).spawn { owner := n, pc := .returned (.read 0) }
    | (nd, .lease r) =>
      (s.setNode n nd).spawn
        { owner := n
          pc := if 0 < r then .waitForApplied r (nd.nowMs + waitForAppliedTimeoutMs) else .returned (.read r) }
    | (nd, .quorum req peers) => (s.setNode n nd).spawn { owner := n, pc := .readIndex ⟨req, peers, 1, req.term⟩ }
  | .submitEntry command =>
    match (s.nodes n).submitAppend command with
    | (nd, none) => (s.setNode n nd).spawn { owner := n, pc := .returned (.submitted ⟨.error, 0⟩) }
    | (nd, some idx) =>
      (s.setNode n nd).spawn
        { owner := n, pc := .submitEnter 0, waiter := some ⟨idx, ⟨(s.nodes n).term, idx, command⟩, none⟩ }
  | .startTransfer target =>
    match (s.nodes n).startTransfer target with
    | (nd, false) => s.setNode n nd
    | (nd, true) => (s.setNode n nd).spawn { owner := n, pc := .replicateBegin false (.transfer target) 0 }
  | .cancelTransfer => s.setNode n (s.nodes n).cancelTransferLocked
  | .beginConfigChange target => s.setNode n ((s.nodes n).beginConfigChange target).1
  | .createSnapshotIfNeeded => s.setNode n (s.nodes n).createSnapshotIfNeeded
  | .shutdown => s.setNode n (s.nodes n).shutDown

/-! ## Fibers -/

def afterReplicate : After N → Pc N C
  | .finish => .returned .done
  | .transfer target => .transferCheck target
  | .coordinate attempt batch i => .coordinatorApply attempt batch i

/-- the request of `ReplicateLog`, phase 2: `leader_commit` is read when it is sent -/
def buildRequest (nd : RaftNode N C L) (currentTerm : ℕ) (r : PeerReq N C) : Option (Request N C) :=
  if r.needSnapshot then
    nd.snapshotBin.map (fun data => .installSnapshot ⟨currentTerm, nd.nodeId, r.snapshotIndex, r.snapshotTerm, data⟩)
  else some (.appendEntries ⟨currentTerm, nd.nodeId, r.prev.index, r.prev.term, r.entries, nd.commitIndex⟩)

def replicateNext (r : ReplicateRound N C) : Option Bool → Pc N C
  | some true => if r.round + 1 < 8 then .replicateBegin r.lowLatency r.after (r.round + 1) else afterReplicate r.after
  | _ => afterReplicate r.after

def advanceReplicate (s : Cluster N C L) (k : ℕ) (f : Fiber N C) (r : ReplicateRound N C) : Cluster N C L :=
  let nd := s.nodes f.owner
  match r.todo with
  | p :: rest =>
    if !nd.transport ∨ (r.lowLatency ∧ r.majority ≤ r.successes) then
      s.setFiber k { f with pc := .replicate { r with todo := [] } }
    else if !r.lowLatency ∧ ((nd.peerHbOk[p.idx]?).getD false = false ∨ r.myLast < p.next) then
      s.setFiber k { f with pc := .replicate { r with todo := rest } }
    else
      match buildRequest nd r.currentTerm p with
      | some req => s.setFiber k { f with rpc := some ⟨p.id, req, none⟩ }
      | none => s.setFiber k { f with pc := .replicate { r with todo := rest, rsps := r.rsps ++ [(p, ⟨false, 0, 0⟩)] } }
  | [] =>
    match nd.replicateFinish r.currentTerm r.rsps with
    | (nd, next) => (s.setNode f.owner nd).setFiber k { f with pc := replicateNext r next }

def beginReplicate (s : Cluster N C L) (k : ℕ) (f : Fiber N C) (lowLatency : Bool) (after : After N) (round : ℕ) :
    Cluster N C L :=
  match (s.nodes f.owner).replicateStart with
  | (nd, none) => (s.setNode f.owner nd).setFiber k { f with pc := afterReplicate after }
  | (nd, some (currentTerm, majority, myLast, preq)) =>
    let pc : Pc N C :=
      if preq = [] then .replicateAlone after
      else .replicate ⟨lowLatency, after, round, currentTerm, majority, myLast, preq, 1, []⟩
    (s.setNode f.owner nd).setFiber k { f with pc := pc }

def waiterResult (idx applied : ℕ) : ApplyResult := if idx ≤ applied then ⟨.ok, 1⟩ else ⟨.error, 0⟩

def waiterIdx (s : Cluster N C L) (k : ℕ) : ℕ := (((s.fibers[k]?).bind Fiber.waiter).map RaftWaiter.idx).getD 0

def fulfil (s : Cluster N C L) (k applied : ℕ) : Cluster N C L :=
  match s.fibers[k]? with
  | none => s
  | some f =>
    s.setFiber k { f with waiter := f.waiter.map (fun w => { w with res := some (waiterResult w.idx applied) }) }

def advance (s : Cluster N C L) (k : ℕ) (f : Fiber N C) : Cluster N C L :=
  let nd := s.nodes f.owner
  match f.pc with
  | .election e =>
    match e.todo with
    | p :: _ =>
      if !nd.transport then s.setFiber k { f with pc := .election { e with todo := [] } }
      else s.setFiber k { f with rpc := some ⟨p, .vote e.req, none⟩ }
    | [] =>
      (s.setNode f.owner (nd.finishElection e.req e.result e.granters e.maxPeerTerm)).setFiber k
        { f with pc := .returned .done }
  | .heartbeat h =>
    match h.todo with
    | p :: _ =>
      if !nd.transport then s.setFiber k { f with pc := .heartbeat { h with todo := [] } }
      else s.setFiber k { f with rpc := some ⟨p, .heartbeat h.req, none⟩ }
    | [] =>
      match nd.heartbeatFinish h.isLoop h.epoch h.ackCount h.rspLastLog h.maxPeerTerm with
      | (nd, none) => (s.setNode f.owner nd).setFiber k { f with pc := .returned .done }
      | (nd, some (sendTimeoutNow, needReplicate)) =>
        let pc : Pc N C :=
          if sendTimeoutNow then .timeoutStart needReplicate
          else if needReplicate then .replicateBegin false .finish 0 else .returned .done
        (s.setNode f.owner nd).setFiber k { f with pc := pc }
  | .timeoutStart needReplicate =>
    let pc : Pc N C :=
      match nd.timeoutNowStart with
      | some req => .timeoutSend req needReplicate
      | none => if needReplicate then .replicateBegin false .finish 0 else .returned .done
    s.setFiber k { f with pc := pc }
  | .timeoutSend req needReplicate =>
    match nd.transferCtx.target with
    | none => s.setFiber k { f with pc := .timeoutDone false needReplicate }
    | some target => s.setFiber k { f with rpc := some ⟨target, .timeoutNow req, none⟩ }
  | .timeoutDone accepted needReplicate =>
    (s.setNode f.owner (nd.timeoutNowFinish accepted)).setFiber k
      { f with pc := if needReplicate then .replicateBegin false .finish 0 else .returned .done }
  | .replicateBegin lowLatency after round => s.beginReplicate k f lowLatency after round
  | .replicateAlone after => (s.setNode f.owner nd.replicateAlone).setFiber k { f with pc := afterReplicate after }
  | .replicate r => s.advanceReplicate k f r
  | .transferCheck target =>
    match nd.transferCheck target with
    | (nd, some true) => (s.setNode f.owner nd).setFiber k { f with pc := .timeoutStart false }
    | (nd, _) => (s.setNode f.owner nd).setFiber k { f with pc := .returned .done }
  | .readIndex r =>
    match r.todo with
    | p :: _ =>
      if !nd.transport then s.setFiber k { f with pc := .readIndex { r with todo := [] } }
      else s.setFiber k { f with rpc := some ⟨p, .readIndex r.req, none⟩ }
    | [] =>
      match nd.readIndexFinish r.req.term r.successCount r.maxPeerTerm with
      | (nd, readIndex) =>
        let pc : Pc N C :=
          if 0 < readIndex then .waitForApplied readIndex (nd.nowMs + waitForAppliedTimeoutMs)
          else .returned (.read readIndex)
        (s.setNode f.owner nd).setFiber k { f with pc := pc }
  | .waitForApplied target deadlineMs =>
    let nd := nd.applyCommittedLogsLocked
    let pc : Pc N C :=
      if target ≤ nd.lastApplied ∨ deadlineMs < nd.nowMs then .returned (.read target) else f.pc
    (s.setNode f.owner nd).setFiber k { f with pc := pc }
  | .submitEnter attempt =>
    let group := s.groups f.owner
    let pc : Pc N C := if group.active then .submitWait else .coordinatorTake attempt
    (s.setGroup f.owner ⟨true, group.waiters ++ [k]⟩).setFiber k { f with pc := pc }
  | .submitWait =>
    match f.waiter.bind RaftWaiter.res with
    | some r => s.setFiber k { f with pc := .returned (.submitted r) }
    | none => s
  | .coordinatorTake attempt =>
    ((s.setNode f.owner { nd with log := persist nd.log }).setGroup f.owner {}).setFiber k
      { f with pc := .replicateBegin true (.coordinate attempt (s.groups f.owner).waiters 0) 0 }
  | .coordinatorApply attempt batch i =>
    let nd := nd.applyCommittedLogsLocked
    let maxq := batch.foldl (fun m w => max m (s.waiterIdx w)) 0
    let pc : Pc N C :=
      if maxq ≤ nd.lastApplied ∨ 16 ≤ i + 1 then .coordinatorFulfil attempt batch nd.lastApplied
      else .replicateBegin true (.coordinate attempt batch (i + 1)) 0
    (s.setNode f.owner nd).setFiber k { f with pc := pc }
  | .coordinatorFulfil attempt batch applied =>
    match batch with
    | w :: rest => (s.setFiber k { f with pc := .coordinatorFulfil attempt rest applied }).fulfil w applied
    | [] => s.setFiber k { f with pc := .submitCheck attempt }
  | .submitCheck attempt =>
    match f.waiter with
    | none => s
    | some w =>
      match w.res with
      | some r => s.setFiber k { f with pc := .returned (.submitted r) }
      | none =>
        let pc : Pc N C :=
          if w.idx ≤ nd.lastApplied then .returned (.submitted ⟨.ok, 1⟩)
          else if attempt + 1 < 8 then .submitEnter (attempt + 1)
          else .returned (.submitted ⟨.error, 0⟩)
        s.setFiber k { f with pc := pc }
  | .returned _ => s

/-! ## Delivery -/

def handle (s : Cluster N C L) (dst : N) : Request N C → Cluster N C L × Response
  | .vote r =>
    let (nd, rsp) := (s.nodes dst).onRequestVote r
    (s.setNode dst nd, .vote rsp)
  | .heartbeat r =>
    let (nd, rsp) := (s.nodes dst).onHeartbeat r
    (s.setNode dst nd, .heartbeat rsp)
  | .appendEntries r =>
    let (nd, rsp) := (s.nodes dst).onAppendEntries r
    (s.setNode dst nd, .appendEntries rsp)
  | .installSnapshot r =>
    let (nd, rsp) := (s.nodes dst).onInstallSnapshot r
    (s.setNode dst nd, .installSnapshot rsp)
  | .readIndex r =>
    let (nd, rsp) := (s.nodes dst).onReadIndex r
    (s.setNode dst nd, .readIndex rsp)
  | .timeoutNow r =>
    let (nd, rsp, start) := (s.nodes dst).onTimeoutNow r
    let s := s.setNode dst nd
    (if start then s.startElection dst else s, .timeoutNow rsp)

def deliver (s : Cluster N C L) (k : ℕ) (f : Fiber N C) (env : Envelope N C) : Cluster N C L :=
  if env.response ≠ none ∨ (s.nodes env.dst).shutdown then s
  else
    let (s, rsp) := s.handle env.dst env.request
    s.setFiber k { f with rpc := some { env with response := some rsp } }

def giveUp (s : Cluster N C L) (env : Envelope N C) : Cluster N C L :=
  if env.response = none then { s with net := s.net ++ [(env.dst, env.request)] } else s

def restartNode (nd : RaftNode N C L) (r : Recovered N C L) : RaftNode N C L :=
  let storage := RaftStorage.load nd.storage.file
  { nodeId := nd.nodeId
    log := r.log
    storage := storage
    clusterConfig := r.clusterConfig
    configState := storage.configState
    jointConfig := storage.jointConfig
    stateMachine := r.stateMachine
    commitIndex := r.commitIndex
    lastApplied := r.lastApplied
    applyProgress := r.applyProgress
    lastSnapshotIndex := r.snapshotMeta.index
    lastSnapshotTerm := r.snapshotMeta.term
    snapshotMeta := r.snapshotMeta
    snapshotBin := r.snapshotBin
    nowMs := nd.nowMs }

def killFibers (s : Cluster N C L) (n : N) : Cluster N C L :=
  { s with
    groups := fun m => if m = n then {} else s.groups m
    fibers := s.fibers.map (fun f => if f.owner = n then { owner := n, pc := .returned .done } else f)
    net := s.net ++ s.fibers.filterMap (fun f =>
      match f.rpc with
      | some ⟨dst, req, none⟩ => if f.owner = n then some (dst, req) else none
      | _ => none) }

def step (s : Cluster N C L) : Action N C L → Cluster N C L
  | .call n f => s.call n f
  | .advance k =>
    match s.fibers[k]? with
    | some f => if f.rpc = none then s.advance k f else s
    | none => s
  | .recv k =>
    match s.fibers[k]? with
    | some f =>
      match f.rpc with
      | some ⟨dst, _, some rsp⟩ => s.setFiber k { f with pc := f.pc.onRsp dst rsp, rpc := none }
      | _ => s
    | none => s
  | .fail k =>
    match s.fibers[k]? with
    | some f =>
      match f.rpc with
      | some env => (s.giveUp env).setFiber k { f with pc := f.pc.onRsp env.dst env.request.failed, rpc := none }
      | none => s
    | none => s
  | .deliver k =>
    match s.fibers[k]? with
    | some f =>
      match f.rpc with
      | some env => s.deliver k f env
      | none => s
    | none => s
  | .deliverLate j =>
    match s.net[j]? with
    | some (dst, req) =>
      let s := { s with net := s.net.eraseIdx j }
      if (s.nodes dst).shutdown then s else (s.handle dst req).1
    | none => s
  | .tick n ms => s.setNode n { s.nodes n with nowMs := (s.nodes n).nowMs + ms }
  | .restart n r => (s.setNode n (restartNode (s.nodes n) r)).killFibers n

def run (s : Cluster N C L) (as : List (Action N C L)) : Cluster N C L := as.foldl step s

def along (p : Cluster N C L → Action N C L → Bool) : Cluster N C L → List (Action N C L) → Bool
  | _, [] => true
  | s, a :: as => p s a && along p (s.step a) as

/-- a cluster that starts with empty logs; `config n` is the configuration set up at node `n` -/
def init (config : N → ClusterConfig N) : Cluster N C L :=
  { nodes := fun n => { nodeId := n, log := empty, clusterConfig := config n }, groups := fun _ => {},
    fibers := [], net := [] }

lemma run_append (s : Cluster N C L) (as bs : List (Action N C L)) : run s (as ++ bs) = run (run s as) bs := by
  simp [run]

lemma along_append (p : Cluster N C L → Action N C L → Bool) (s : Cluster N C L) (as bs : List (Action N C L)) :
    along p s (as ++ bs) = (along p s as && along p (run s as) bs) := by
  induction as generalizing s with
  | nil => rfl
  | cons _ _ ih => simp only [List.cons_append, along, ih, Bool.and_assoc]; rfl

end Cluster

end MaxRedis.Raft

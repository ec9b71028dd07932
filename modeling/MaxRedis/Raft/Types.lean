/-
The data of the Raft core (`raft_types.h` and the RPC headers).

Node ids `N` and client commands `C` are type parameters. Terms and indexes are natural numbers: the source's `uint64_t`
stays below 2^64 in every run of interest. An empty `NodeId`, by which the source means "none" (`voted_for`, the target
of a transfer), is `none`, and a candidate's own id is never empty.
-/
import Mathlib.Data.List.Nodup
import MaxRedis.Core.TermLog

namespace MaxRedis.Raft

inductive RaftRole where
  | follower
  | candidate
  | leader
  deriving DecidableEq, Repr

/-- an `unordered_set<NodeId>`; the list is one in which its elements can be named, not the order in which it is walked
-/
structure IdSet (N : Type) where
  ids : List N
  nodup : ids.Nodup
  deriving DecidableEq

/-- the order in which an `unordered_set` is walked: nothing is known of it but that every element comes once -/
structure IdOrder (N : Type) where
  walk : List N → List N
  perm : ∀ ids, (walk ids).Perm ids

def IdOrder.asListed {N : Type} : IdOrder N := ⟨fun ids => ids, fun _ => .refl _⟩

namespace IdSet
variable {N : Type}

def empty : IdSet N := ⟨[], List.nodup_nil⟩

def count [DecidableEq N] (s : IdSet N) (n : N) : Bool := decide (n ∈ s.ids)

def insert [DecidableEq N] (s : IdSet N) (n : N) : IdSet N :=
  if h : n ∈ s.ids then s else ⟨s.ids ++ [n], by simpa using s.nodup.concat h⟩

def erase [DecidableEq N] (s : IdSet N) (n : N) : IdSet N := ⟨s.ids.erase n, s.nodup.erase n⟩

def same [DecidableEq N] (s t : IdSet N) : Bool := s.ids.all t.count && t.ids.all s.count

end IdSet

structure ClusterConfig (N : Type) where
  version : ℕ := 0
  voters : IdSet N := .empty
  learners : IdSet N := .empty
  deriving DecidableEq

inductive ConfigState where
  | stable
  | joint
  deriving DecidableEq, Repr

structure JointConfig (N : Type) where
  oldConfig : ClusterConfig N := {}
  newConfig : ClusterConfig N := {}
  deriving DecidableEq

/-- what an entry's command text holds: nothing (the logs' sentinel), a client's command or a serialized
`ConfigChangeCommand` -/
inductive Command (N C : Type) where
  | empty
  | client (c : C)
  | configChange (target : ClusterConfig N)
  deriving DecidableEq

structure LogEntry (N C : Type) where
  term : ℕ
  index : ℕ
  command : Command N C
  deriving DecidableEq

def LogEntry.blank {N C : Type} : LogEntry N C := ⟨0, 0, .empty⟩

instance (N C : Type) : TermLog.Termed (LogEntry N C) := ⟨LogEntry.term⟩

structure ElectionResult where
  votesReceived : ℕ := 0
  votesRejected : ℕ := 0
  deriving DecidableEq, Repr

inductive TransferState where
  | none
  | requested
  | waitingCatchUp
  | waitingElection
  deriving DecidableEq, Repr

structure LeaderTransferContext (N : Type) where
  target : Option N := .none
  state : TransferState := .none
  startMs : ℕ := 0
  deriving DecidableEq

def LeaderTransferContext.isActive {N : Type} (t : LeaderTransferContext N) : Bool := t.state ≠ .none

inductive ApplyOp where
  | ok
  | error
  deriving DecidableEq, Repr

structure ApplyResult where
  op : ApplyOp
  affectedRows : ℕ
  deriving DecidableEq, Repr

structure SnapshotMeta where
  index : ℕ := 0
  term : ℕ := 0
  deriving DecidableEq, Repr

/-! ## Requests and responses -/

structure VoteRequest (N : Type) where
  term : ℕ
  candidateId : N
  lastLogIndex : ℕ
  lastLogTerm : ℕ
  deriving DecidableEq

structure VoteResponse where
  term : ℕ
  voteGranted : Bool
  deriving DecidableEq

structure HeartbeatRequest (N : Type) where
  term : ℕ
  leaderId : N
  leaderCommit : ℕ
  deriving DecidableEq

structure HeartbeatResponse where
  term : ℕ
  success : Bool
  lastLogIndex : ℕ
  deriving DecidableEq

structure AppendEntriesRequest (N C : Type) where
  term : ℕ
  leaderId : N
  prevLogIndex : ℕ
  prevLogTerm : ℕ
  entries : List (LogEntry N C)
  leaderCommit : ℕ
  deriving DecidableEq

structure AppendEntriesResponse where
  term : ℕ
  success : Bool
  lastLogIndex : ℕ
  deriving DecidableEq

/-- an `InstallSnapshotRequest` whose one chunk is the whole of `snapshot.bin` (`done` is set): the state it holds is
the list of the entries that were applied to reach it -/
structure InstallSnapshotRequest (N C : Type) where
  term : ℕ
  leaderId : N
  lastIncludedIndex : ℕ
  lastIncludedTerm : ℕ
  data : List (LogEntry N C)
  deriving DecidableEq

structure InstallSnapshotResponse where
  term : ℕ
  success : Bool
  deriving DecidableEq

structure ReadIndexRequest (N : Type) where
  term : ℕ
  leaderId : N
  requestId : ℕ
  deriving DecidableEq

structure ReadIndexResponse where
  term : ℕ
  success : Bool
  commitIndex : ℕ
  deriving DecidableEq

structure TimeoutNowRequest (N : Type) where
  term : ℕ
  leaderId : N
  deriving DecidableEq

structure TimeoutNowResponse where
  term : ℕ
  accepted : Bool
  deriving DecidableEq

inductive Request (N C : Type) where
  | vote (r : VoteRequest N)
  | heartbeat (r : HeartbeatRequest N)
  | appendEntries (r : AppendEntriesRequest N C)
  | installSnapshot (r : InstallSnapshotRequest N C)
  | readIndex (r : ReadIndexRequest N)
  | timeoutNow (r : TimeoutNowRequest N)
  deriving DecidableEq

inductive Response where
  | vote (r : VoteResponse)
  | heartbeat (r : HeartbeatResponse)
  | appendEntries (r : AppendEntriesResponse)
  | installSnapshot (r : InstallSnapshotResponse)
  | readIndex (r : ReadIndexResponse)
  | timeoutNow (r : TimeoutNowResponse)
  deriving DecidableEq

def Request.failed {N C : Type} : Request N C → Response
  | .vote _ => .vote ⟨0, false⟩
  | .heartbeat _ => .heartbeat ⟨0, false, 0⟩
  | .appendEntries _ => .appendEntries ⟨0, false, 0⟩
  | .installSnapshot _ => .installSnapshot ⟨0, false⟩
  | .readIndex _ => .readIndex ⟨0, false, 0⟩
  | .timeoutNow _ => .timeoutNow ⟨0, false⟩

/-! ## The ids of concrete clusters -/

-- Concrete runs number their nodes by `Fin n`, and a numeral there rests on `NeZero n`: the sizes that occur, by name.
instance neZero_one : NeZero 1 := ⟨by decide⟩

instance neZero_two : NeZero 2 := ⟨by decide⟩

instance neZero_three : NeZero 3 := ⟨by decide⟩

instance neZero_four : NeZero 4 := ⟨by decide⟩

instance neZero_five : NeZero 5 := ⟨by decide⟩

-- The voters of concrete configurations that several modules share.
lemma nodup_one : ([1] : List (Fin 3)).Nodup := by decide

lemma nodup_one_two : ([1, 2] : List (Fin 5)).Nodup := by decide

lemma nodup_two_three_four : ([2, 3, 4] : List (Fin 5)).Nodup := by decide

end MaxRedis.Raft

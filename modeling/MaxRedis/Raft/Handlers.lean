/-
One node by itself.

A `Handler` is a section that runs under the node's lock, with all that it is given: a request, or the answers that a
call has collected. A run of one node is a list of them.
-/
import MaxRedis.Raft.Restart

namespace MaxRedis.Raft

open LogStorage RaftNode

variable {N C L : Type}

namespace RaftNode

variable [DecidableEq N]

def removePeer (nd : RaftNode N C L) (id : N) : RaftNode N C L :=
  { nd with clusterConfig := { nd.clusterConfig with voters := nd.clusterConfig.voters.erase id } }

def setClusterConfig (nd : RaftNode N C L) (config : ClusterConfig N) : RaftNode N C L :=
  { nd with clusterConfig := config }

end RaftNode

inductive Handler (N C : Type) where
  | onRequestVote (req : VoteRequest N)
  | onHeartbeat (req : HeartbeatRequest N)
  | onAppendEntries (req : AppendEntriesRequest N C)
  | onInstallSnapshot (req : InstallSnapshotRequest N C)
  | onReadIndex (req : ReadIndexRequest N)
  | onTimeoutNow (req : TimeoutNowRequest N)
  | onElectionTimeout
  | startElection
  | finishElection (req : VoteRequest N) (result : ElectionResult) (granters : List N) (maxPeerTerm : ℕ)
  | bootstrapSingleNode
  | heartbeatFinish (isLoop : Bool) (epoch ackCount : ℕ) (rspLastLog : List (N × ℕ)) (maxPeerTerm : ℕ)
  | replicateStart
  | replicateAlone
  | replicateFinish (currentTerm : ℕ) (rsps : List (PeerReq N C × PeerRsp))
  | readIndexStart
  | readIndexFinish (currentTerm successCount maxPeerTerm : ℕ)
  | startTransfer (target : N)
  | transferCheck (target : N)
  | timeoutNowFinish (accepted : Bool)
  | cancelTransfer
  | submitAppend (command : Command N C)
  | persist
  | applyCommittedLogs
  | replayUnappliedLogs
  | beginConfigChange (target : ClusterConfig N)
  | addPeer (id : N)
  | removePeer (id : N)
  | setClusterConfig (config : ClusterConfig N)
  | createSnapshotIfNeeded
  | shutDown
  | tick (ms : ℕ)

namespace Handler

def snapshots : Handler N C → Bool
  | .onInstallSnapshot _ => true
  | .createSnapshotIfNeeded => true
  | _ => false

variable [DecidableEq N] [LogStorage N C L]

def on (nd : RaftNode N C L) : Handler N C → RaftNode N C L
  | .onRequestVote req => (nd.onRequestVote req).1
  | .onHeartbeat req => (nd.onHeartbeat req).1
  | .onAppendEntries req => (nd.onAppendEntries req).1
  | .onInstallSnapshot req => (nd.onInstallSnapshot req).1
  | .onReadIndex req => (nd.onReadIndex req).1
  | .onTimeoutNow req => (nd.onTimeoutNow req).1
  | .onElectionTimeout => nd.onElectionTimeout
  | .startElection => nd.startElection.1
  | .finishElection req result granters maxPeerTerm => nd.finishElection req result granters maxPeerTerm
  | .bootstrapSingleNode => nd.bootstrapSingleNode
  | .heartbeatFinish isLoop epoch ackCount rspLastLog maxPeerTerm =>
    (nd.heartbeatFinish isLoop epoch ackCount rspLastLog maxPeerTerm).1
  | .replicateStart => nd.replicateStart.1
  | .replicateAlone => nd.replicateAlone
  | .replicateFinish currentTerm rsps => (nd.replicateFinish currentTerm rsps).1
  | .readIndexStart => nd.readIndexStart.1
  | .readIndexFinish currentTerm successCount maxPeerTerm =>
    (nd.readIndexFinish currentTerm successCount maxPeerTerm).1
  | .startTransfer target => (nd.startTransfer target).1
  | .transferCheck target => (nd.transferCheck target).1
  | .timeoutNowFinish accepted => nd.timeoutNowFinish accepted
  | .cancelTransfer => nd.cancelTransferLocked
  | .submitAppend command => (nd.submitAppend command).1
  | .persist => { nd with log := LogStorage.persist nd.log }
  | .applyCommittedLogs => nd.applyCommittedLogsLocked
  | .replayUnappliedLogs => nd.replayUnappliedLogs
  | .beginConfigChange target => (nd.beginConfigChange target).1
  | .addPeer id => nd.addPeer id
  | .removePeer id => nd.removePeer id
  | .setClusterConfig config => nd.setClusterConfig config
  | .createSnapshotIfNeeded => nd.createSnapshotIfNeeded
  | .shutDown => nd.shutDown
  | .tick ms => { nd with nowMs := nd.nowMs + ms }

def run (nd : RaftNode N C L) (hs : List (Handler N C)) : RaftNode N C L := hs.foldl on nd

end Handler

/-! ## Terms -/

variable {nd nd' : RaftNode N C L}

structure Ages (nd nd' : RaftNode N C L) : Prop where
  term : nd.term ≤ nd'.term
  candidate : nd'.role = .candidate → nd'.term = nd.term → nd.role = .candidate

lemma Ages.of_quiet (h : Quiet nd nd') : Ages nd nd' :=
  ⟨h.term, fun hr _ => (h.role (by rw [hr]; simp)).1.symm.trans hr⟩

lemma Ages.of_same (h : SameVote nd nd') : Ages nd nd' := .of_quiet h.quiet

lemma Ages.of_campaign (h : Campaigns nd nd') : Ages nd nd' :=
  ⟨h.term.le, fun _ heq => absurd heq h.term.ne'⟩

variable [DecidableEq N] [LogStorage N C L]

lemma Ages.of_leads {mid : RaftNode N C L} (ht : nd.term ≤ mid.term) (h : Leads mid nd') : Ages nd nd' :=
  ⟨ht.trans h.term_eq.ge, fun hr => absurd (h.role.symm.trans hr) (by simp)⟩

namespace Handler

/-- sections that change roles, votes and the leader's bookkeeping only -/
def keepsData : Handler N C → Bool
  | .onRequestVote _ | .onReadIndex _ | .onTimeoutNow _ | .onElectionTimeout | .startElection => true
  | .finishElection _ _ _ _ | .bootstrapSingleNode | .replicateStart | .readIndexStart => true
  | .readIndexFinish _ _ _ | .startTransfer _ | .transferCheck _ | .timeoutNowFinish _ | .cancelTransfer => true
  | _ => false

lemma keepsData_spec (nd : RaftNode N C L) (h : Handler N C) (hk : h.keepsData) :
    SameData nd (h.on nd) ∧ Ages nd (h.on nd) := by
  have hkept : ∀ {nd'}, Kept nd nd' → SameData nd nd' ∧ Ages nd nd' := fun h => ⟨h.data, .of_quiet h.quiet⟩
  have hsame : ∀ {nd'}, nd' = nd → SameData nd nd' ∧ Ages nd nd' := by
    rintro nd' rfl
    exact ⟨.refl nd', .of_same (.refl nd')⟩
  have hcampaign : ∀ {nd'}, Campaigns nd nd' → SameData nd nd' ∧ Ages nd nd' := fun h => ⟨h.data, .of_campaign h⟩
  cases h with
  | onRequestVote req =>
    rcases onRequestVote_spec nd req with ⟨h, -⟩ | ⟨hg, -⟩
    · exact hkept h
    · exact ⟨hg.data, hg.term ▸ hg.le, fun hr _ => (hg.role (by
        exact fun hf => absurd (hr.symm.trans hf) (by simp))).1.symm.trans hr⟩
  | onReadIndex => exact hsame rfl
  | onTimeoutNow req => exact hkept (onTimeoutNow_kept nd req)
  | onElectionTimeout => exact (onElectionTimeout_spec nd).elim hsame hcampaign
  | startElection => exact (startElection_spec nd).elim (fun h => hsame (congrArg Prod.fst h)) (fun h => hcampaign h.1)
  | finishElection req result granters maxPeerTerm =>
    rcases finishElection_spec nd req result granters maxPeerTerm with h | hw
    · exact hkept h
    · exact ⟨hw.leads.data, .of_leads le_rfl hw.leads⟩
  | bootstrapSingleNode =>
    rcases bootstrapSingleNode_spec nd with he | ⟨-, -, -, mid, hm, hl⟩
    · exact hsame he
    · rcases hm with ⟨-, rfl⟩ | hc
      · exact ⟨hl.data, .of_leads le_rfl hl⟩
      · exact ⟨hc.data.trans hl.data, .of_leads hc.term.le hl⟩
  | replicateStart =>
    rcases replicateStart_spec nd with he | ⟨-, he, -⟩
    · exact hsame (congrArg Prod.fst he)
    · show SameData nd nd.replicateStart.1 ∧ Ages nd nd.replicateStart.1
      rw [he]
      exact ⟨(refreshPeers_only nd).data, .of_same (refreshPeers_only nd).same⟩
  | readIndexStart => exact hkept (readIndexStart_kept nd)
  | readIndexFinish => exact hkept (readIndexFinish_kept nd _ _ _)
  | startTransfer target => exact hkept (startTransfer_kept nd target)
  | transferCheck target => exact hkept (transferCheck_kept nd target)
  | timeoutNowFinish accepted => exact hkept (timeoutNowFinish_kept nd accepted)
  | cancelTransfer => exact hkept (cancelTransferLocked_kept nd)
  | _ => cases hk

end Handler

end MaxRedis.Raft

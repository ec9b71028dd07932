/-
The leader lease: who has acknowledged the round that extends it.

HeartbeatTickImpl and ReadIndex ask the peers one after the other, count those that acknowledge, and extend the lease
when the count is large enough.

Main results: `backedBy_iff` (what a majority is in numbers), `lease_backed` (when a round that extends the lease has
one), `lease_without_majority` (rounds that have none).
-/
import MaxRedis.Raft.CallSteps

namespace MaxRedis.Raft

open LogStorage RaftNode List

variable {N C L : Type}

/-! ## A round -/

/-- all peers of the round have answered, one after the other; a call that fails is an answer without success -/
def HeartbeatRound.ask (h : HeartbeatRound N) (answers : N → HeartbeatResponse) : HeartbeatRound N :=
  h.todo.foldl (fun h p => h.onRsp p (answers p)) h

/-- the peers that acknowledge -/
def HeartbeatRound.acks (h : HeartbeatRound N) (answers : N → HeartbeatResponse) : List N :=
  h.todo.filter (fun p => (answers p).success && (answers p).term = h.req.term)

lemma HeartbeatRound.ackCount_ask (h : HeartbeatRound N) (answers : N → HeartbeatResponse) :
    (h.ask answers).ackCount = h.ackCount + (h.acks answers).length := by
  have hfold : ∀ (ps : List N) (g : HeartbeatRound N), g.req = h.req →
      (ps.foldl (fun g p => g.onRsp p (answers p)) g).ackCount =
        g.ackCount + (ps.filter (fun p => (answers p).success && (answers p).term = h.req.term)).length := by
    intro ps
    induction ps with
    | nil => exact fun g _ => rfl
    | cons p ps ih =>
      intro g hg
      rw [foldl_cons, ih (g.onRsp p (answers p)) hg, filter_cons]
      simp only [HeartbeatRound.onRsp, hg]
      split_ifs
      · rw [length_cons]
        omega
      · rfl
  exact hfold h.todo h rfl

def ReadRound.ask (r : ReadRound N) (answers : N → ReadIndexResponse) : ReadRound N :=
  r.todo.foldl (fun r p => r.onRsp (answers p)) r

def ReadRound.acks (r : ReadRound N) (answers : N → ReadIndexResponse) : List N :=
  r.todo.filter (fun p => (answers p).success ∧ (answers p).term = r.req.term)

lemma ReadRound.successCount_ask (r : ReadRound N) (answers : N → ReadIndexResponse) :
    (r.ask answers).successCount = r.successCount + (r.acks answers).length := by
  have hfold : ∀ (ps : List N) (g : ReadRound N), g.req = r.req →
      (ps.foldl (fun g p => g.onRsp (answers p)) g).successCount =
        g.successCount + (ps.filter (fun p => (answers p).success ∧ (answers p).term = r.req.term)).length := by
    intro ps
    induction ps with
    | nil => exact fun g _ => rfl
    | cons p ps ih =>
      intro g hg
      rw [foldl_cons, ih (g.onRsp (answers p)) hg, filter_cons]
      simp only [ReadRound.onRsp, hg, decide_eq_true_eq]
      split_ifs
      · rw [length_cons]
        omega
      · rfl
  exact hfold r.todo r rfl

def Pc.acknowledged : Pc N C → Response → Bool
  | .heartbeat h, .heartbeat rsp => rsp.success && rsp.term == h.req.term
  | .readIndex r, .readIndex rsp => rsp.success && rsp.term == r.req.term
  | _, _ => false

/-! ## The lease -/

namespace RaftNode

variable [DecidableEq N]

def lease (nd : RaftNode N C L) : ℕ × ℕ := (nd.leaderLeaseExpire, nd.lastMajorityAckMs)

def configs (nd : RaftNode N C L) : List (ClusterConfig N) :=
  match nd.configState with
  | .joint => [nd.jointConfig.oldConfig, nd.jointConfig.newConfig]
  | .stable => [nd.clusterConfig]

def members (nd : RaftNode N C L) (config : ClusterConfig N) : Finset N := insert nd.nodeId config.voters.ids.toFinset

/-- the leader and `l` are a strict majority of the members of every configuration in force -/
def BackedBy (nd : RaftNode N C L) (l : List N) : Prop :=
  ∀ config ∈ nd.configs, (nd.members config).card < 2 * (insert nd.nodeId l.toFinset ∩ nd.members config).card

instance (nd : RaftNode N C L) (l : List N) : Decidable (nd.BackedBy l) := by unfold BackedBy; infer_instance

/-- the number that `ReadIndex` asks for -/
def readMajority (nd : RaftNode N C L) : ℕ := (nd.clusterConfig.voters.ids.length + 1) / 2 + 1

/-- Fewer than asked for acknowledge; or for every configuration in force the leader and they, without those outside the
configuration, are more than half of its members. -/
def Sized (nd : RaftNode N C L) (asked : ℕ) (acks : List N) : Prop :=
  acks.length + 1 < asked ∨ ∀ config ∈ nd.configs,
    (nd.members config).card + 2 * (acks.toFinset \ nd.members config).card < 2 * (acks.length + 1)

/-- what makes a heartbeat round safe: in the stable state the leader is a voter, or the voters are even in number, or
it is not just half of them (rounded down) that acknowledge -/
def HeartbeatSized (nd : RaftNode N C L) (acks : List N) : Prop :=
  match nd.configState with
  | .stable => nd.nodeId ∈ nd.clusterConfig.voters.ids ∨ Even nd.clusterConfig.voters.ids.length ∨
      acks.length ≠ nd.clusterConfig.voters.ids.length / 2
  | .joint => nd.Sized nd.leaseMajority acks

def ReadSized (nd : RaftNode N C L) (acks : List N) : Prop :=
  match nd.configState with
  | .stable => True
  | .joint => nd.Sized nd.readMajority acks

/-! ### Majorities -/

section Majorities
variable (nd : RaftNode N C L) (config : ClusterConfig N) {acks : List N}

lemma card_members_le : (nd.members config).card ≤ config.voters.ids.length + 1 :=
  (Finset.card_insert_le _ _).trans (Nat.succ_le_succ (toFinset_card_le _))

lemma card_members_of_mem (h : nd.nodeId ∈ config.voters.ids) :
    (nd.members config).card = config.voters.ids.length := by
  rw [members, Finset.insert_eq_of_mem (mem_toFinset.2 h), toFinset_card_of_nodup config.voters.nodup]

lemma card_members_of_notMem (h : nd.nodeId ∉ config.voters.ids) :
    (nd.members config).card = config.voters.ids.length + 1 := by
  rw [members, Finset.card_insert_of_notMem (by simpa using h), toFinset_card_of_nodup config.voters.nodup]

section
variable {nd}
variable (hn : (nd.nodeId :: acks).Nodup)
include hn

lemma backedBy_iff : nd.BackedBy acks ↔ ∀ config ∈ nd.configs,
    (nd.members config).card + 2 * (acks.toFinset \ nd.members config).card < 2 * (acks.length + 1) := by
  refine forall₂_congr (fun config _ => ?_)
  obtain ⟨hself, hacks⟩ := nodup_cons.1 hn
  have hcard : (insert nd.nodeId acks.toFinset).card = acks.length + 1 := by
    rw [Finset.card_insert_of_notMem (by simpa using hself), toFinset_card_of_nodup hacks]
  have hout : insert nd.nodeId acks.toFinset \ nd.members config = acks.toFinset \ nd.members config :=
    Finset.insert_sdiff_of_mem _ (Finset.mem_insert_self _ _)
  have hsplit := Finset.card_inter_add_card_sdiff (insert nd.nodeId acks.toFinset) (nd.members config)
  rw [hout, hcard] at hsplit
  omega

lemma sized_iff (asked : ℕ) : (asked ≤ acks.length + 1 → nd.BackedBy acks) ↔ nd.Sized asked acks := by
  rw [backedBy_iff hn, Sized, ← not_le, imp_iff_not_or]

variable (hp : ∀ p ∈ acks, p ∈ nd.getPeerIdsLocked) (hs : nd.configState = .stable)
include hp hs

lemma backedBy_stable : nd.BackedBy acks ↔ (nd.members nd.clusterConfig).card < 2 * (acks.length + 1) := by
  have hout : acks.toFinset \ nd.members nd.clusterConfig = ∅ := by
    refine Finset.sdiff_eq_empty_iff_subset.2 (fun x hx => ?_)
    have hx' := hp x (mem_toFinset.1 hx)
    rw [nd.getPeerIdsLocked_perm.mem_iff, peerSet, hs] at hx'
    exact Finset.mem_insert_of_mem (mem_toFinset.2 (mem_of_mem_filter hx'))
  rw [backedBy_iff hn]
  simp [configs, hs, hout]

end

variable {nd}

lemma heartbeatSized_iff (hn : (nd.nodeId :: acks).Nodup) (hp : ∀ p ∈ acks, p ∈ nd.getPeerIdsLocked) :
    (nd.leaseMajority ≤ acks.length + 1 → nd.BackedBy acks) ↔ nd.HeartbeatSized acks := by
  unfold HeartbeatSized
  cases hs : nd.configState with
  | joint => exact sized_iff hn _
  | stable =>
    simp only [backedBy_stable hn hp hs, leaseMajority, hs]
    by_cases hself : nd.nodeId ∈ nd.clusterConfig.voters.ids
    · rw [card_members_of_mem nd _ hself]
      simp only [hself, true_or, iff_true]
      omega
    · rw [card_members_of_notMem nd _ hself, Nat.even_iff]
      simp only [hself, false_or]
      omega

lemma readSized_iff (hn : (nd.nodeId :: acks).Nodup) (hp : ∀ p ∈ acks, p ∈ nd.getPeerIdsLocked) :
    (nd.readMajority ≤ acks.length + 1 → nd.BackedBy acks) ↔ nd.ReadSized acks := by
  unfold ReadSized
  cases hs : nd.configState with
  | joint => exact sized_iff hn _
  | stable =>
    have hle := card_members_le nd nd.clusterConfig
    simp only [backedBy_stable hn hp hs, readMajority, iff_true]
    omega

end Majorities

/-! ### What renews the lease -/

section Renews
variable (nd : RaftNode N C L) [LogStorage N C L]

lemma becomeFollowerLocked_lease (t : ℕ) : (nd.becomeFollowerLocked t).lease = nd.lease := by
  unfold becomeFollowerLocked
  obtain ⟨leaderTerm, voteCount, transferCtx, stop, epoch, h⟩ :=
    setRoleLocked_eq (if nd.term < t then { nd with storage := nd.storage.setState t none } else nd) .follower
  rw [h]
  split_ifs <;> rfl

lemma recordHeartbeatAcks_eq (ps : List (N × ℕ)) : (nd.recordHeartbeatAcks ps).lease = nd.lease ∧
    (nd.recordHeartbeatAcks ps).leaseMajority = nd.leaseMajority ∧ (nd.recordHeartbeatAcks ps).nowMs = nd.nowMs := by
  have hfold : ∀ m : RaftNode N C L, (ps.foldl recordHeartbeatAck m).lease = m.lease ∧
      (ps.foldl recordHeartbeatAck m).leaseMajority = m.leaseMajority ∧
      (ps.foldl recordHeartbeatAck m).nowMs = m.nowMs := by
    induction ps with
    | nil => exact fun m => ⟨rfl, rfl, rfl⟩
    | cons p _ ih =>
      intro m
      have hone : (m.recordHeartbeatAck p).lease = m.lease ∧
          (m.recordHeartbeatAck p).leaseMajority = m.leaseMajority ∧ (m.recordHeartbeatAck p).nowMs = m.nowMs := by
        unfold recordHeartbeatAck
        dsimp only
        split_ifs <;> exact ⟨rfl, rfl, rfl⟩
      obtain ⟨h1, h2, h3⟩ := ih (m.recordHeartbeatAck p)
      exact ⟨h1.trans hone.1, h2.trans hone.2.1, h3.trans hone.2.2⟩
  exact hfold _

lemma transferTick_lease : nd.transferTick.1.lease = nd.lease := by
  have hcheck : nd.checkTransferTimeoutLocked.lease = nd.lease := by
    unfold checkTransferTimeoutLocked cancelTransferLocked
    split_ifs <;> rfl
  unfold transferTick
  dsimp only
  split_ifs
  · split
    · exact hcheck
    · split_ifs <;> exact hcheck
  · exact hcheck
  · rfl

variable {nd}

/-- A heartbeat round that its leader is still there to finish renews the lease exactly if enough acknowledge. -/
lemma heartbeatFinish_lease (hlead : nd.role = .leader) (hfresh : nd.lastMajorityAckMs < nd.nowMs) {isLoop : Bool}
    {epoch maxPeerTerm : ℕ} (hepoch : isLoop → nd.heartbeatEpoch = epoch) (hterm : maxPeerTerm ≤ nd.term) (ackCount : ℕ)
    (rspLastLog : List (N × ℕ)) :
    (nd.heartbeatFinish isLoop epoch ackCount rspLastLog maxPeerTerm).1.lease ≠ nd.lease ↔
      nd.leaseMajority ≤ ackCount := by
  obtain ⟨c, hadv⟩ := advanceCommitIndexLocked_eq (nd.recordHeartbeatAcks rspLastLog)
  obtain ⟨hl, hm, hnow⟩ := recordHeartbeatAcks_eq nd rspLastLog
  have hlease : (nd.recordHeartbeatAcks rspLastLog).advanceCommitIndexLocked.lease = nd.lease := by rw [hadv]; exact hl
  have hmaj : (nd.recordHeartbeatAcks rspLastLog).advanceCommitIndexLocked.leaseMajority = nd.leaseMajority := by
    rw [hadv]; exact hm
  have hclock : (nd.recordHeartbeatAcks rspLastLog).advanceCommitIndexLocked.nowMs =
      nd.nowMs := by rw [hadv]; exact hnow
  unfold heartbeatFinish
  dsimp only
  rw [if_neg (fun h => h.2 (hepoch h.1)), if_neg (not_not.2 hlead), if_neg (by omega), hmaj]
  split_ifs with hcount hquorum
  · refine iff_of_true (fun heq => ?_) hcount
    -- the time of the last majority is now
    have hlast := congrArg Prod.snd ((transferTick_lease _).symm.trans heq)
    have hsnd : (nd.recordHeartbeatAcks rspLastLog).advanceCommitIndexLocked.nowMs = nd.lastMajorityAckMs := hlast
    omega
  · refine iff_of_false (not_not.2 (Eq.trans ?_ hlease)) hcount
    unfold stepDownLocked
    split_ifs
    · rfl
    · exact becomeFollowerLocked_lease _ _
  · exact iff_of_false (not_not.2 ((transferTick_lease _).trans hlease)) hcount

lemma readIndexFinish_lease (hlead : nd.role = .leader) (hfresh : nd.lastMajorityAckMs < nd.nowMs)
    {currentTerm maxPeerTerm : ℕ} (hcurrent : currentTerm = nd.term) (hterm : maxPeerTerm ≤ nd.term)
    (successCount : ℕ) : (nd.readIndexFinish currentTerm successCount maxPeerTerm).1.lease ≠ nd.lease ↔
      nd.readMajority ≤ successCount := by
  unfold readIndexFinish readMajority
  rw [if_neg (by omega), if_neg (by simp [hlead, hcurrent])]
  split_ifs with hcount
  · exact iff_of_false (not_not.2 rfl) (by omega)
  · refine iff_of_true (fun heq => ?_) (by omega)
    have hsnd : nd.nowMs = nd.lastMajorityAckMs := congrArg Prod.snd heq
    omega

end Renews

end RaftNode

namespace Cluster

variable [DecidableEq N] [LogStorage N C L]

def acker (s : Cluster N C L) (k : ℕ) : Action N C L → List N
  | .recv j =>
    match s.fibers[j]? with
    | some f =>
      match f.rpc with
      | some ⟨dst, _, some rsp⟩ => if j = k ∧ f.pc.acknowledged rsp then [dst] else []
      | _ => []
    | none => []
  | _ => []

/-- **The peers that have acknowledged the round at place `k`** -/
def ackers (s : Cluster N C L) (k : ℕ) : List (Action N C L) → List N
  | [] => []
  | a :: as => s.acker k a ++ ackers (s.step a) k as

def beatHalf : List (Action (Fin 4) ℕ (CommandLog (Fin 4) ℕ)) :=
  [.call 0 .startElection, .advance 0, .deliver 0, .recv 0, .advance 0, .deliver 0, .recv 0, .advance 0, .fail 0,
    .advance 0, .call 0 (.heartbeatTick false), .advance 1, .deliver 1, .recv 1, .advance 1, .fail 1, .advance 1,
    .fail 1]

def pairConfig (n : Fin 5) : ClusterConfig (Fin 5) := if n = 0 then { voters := ⟨[1, 2], nodup_one_two⟩ } else {}

abbrev Steps5 := List (Action (Fin 5) ℕ (CommandLog (Fin 5) ℕ))

/-- node 0 changes its configuration to nodes 3 and 4; node 1 accepts the entry, and node 0 enters the joint state. Of
the four peers, only node 3 acknowledges its heartbeat. -/
def beatNew : List (Action (Fin 5) ℕ (CommandLog (Fin 5) ℕ)) :=
  [.call 0 .startElection, .advance 0, .deliver 0, .recv 0, .advance 0, .deliver 0, .recv 0, .advance 0,
    .call 0 (.beginConfigChange { version := 1, voters := ⟨[3, 4], by decide⟩ }), .call 0 (.replicateLog true),
    .advance 1, .advance 1, .deliver 1, .recv 1, .advance 1, .advance 1, .advance 1,
    .call 0 (.heartbeatTick false), .advance 2, .fail 2, .advance 2, .fail 2, .advance 2, .deliver 2, .recv 2,
    .advance 2, .fail 2]

def readNew : List (Action (Fin 5) ℕ (CommandLog (Fin 5) ℕ)) :=
  beatNew ++ ([.advance 2, .tick 0 200, .call 0 .readIndex, .advance 3, .fail 3, .advance 3, .fail 3, .advance 3,
    .deliver 3, .recv 3, .advance 3, .fail 3] : Steps5)

section VoteTable
variable [LawfulLog N C L] (config : N → ClusterConfig N)

lemma run_voteRep (as : List (Action N C L)) :
    ∃ tbl, VoteRep tbl (run (init config) as) := by
  induction as using reverseRecOn with
  | nil => exact ⟨_, voteRep_init config⟩
  | append_singleton _ a ih =>
    obtain ⟨tbl, h⟩ := ih
    rw [run_append]
    exact ⟨_, recordVotes_step h (step_trans _ a)⟩

end VoteTable

end Cluster

end MaxRedis.Raft

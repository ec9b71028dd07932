/-
What one step of the cluster does to the log, the state machine, the progress and the snapshot files of one node.
-/
import MaxRedis.Raft.History

namespace MaxRedis.Raft

open LogStorage LawfulLog RaftNode

namespace RaftNode

variable {N C L : Type}

structure SameState (nd nd' : RaftNode N C L) : Prop where
  log : nd'.log = nd.log
  sm : nd'.stateMachine = nd.stateMachine
  commit : nd'.commitIndex = nd.commitIndex
  applied : nd'.lastApplied = nd.lastApplied
  snap : nd'.lastSnapshotIndex = nd.lastSnapshotIndex
  bin : nd'.snapshotBin = nd.snapshotBin
  progress : nd'.applyProgress = nd.applyProgress
  snapMeta : nd'.snapshotMeta = nd.snapshotMeta

variable (nd : RaftNode N C L)

lemma SameState.refl : SameState nd nd := ⟨rfl, rfl, rfl, rfl, rfl, rfl, rfl, rfl⟩

lemma SameData.sameState {nd nd' : RaftNode N C L} (h : SameData nd nd') : SameState nd nd' :=
  ⟨h.log, h.sm, h.commit, h.applied, h.snap, h.bin, h.progress, h.snapMeta⟩

variable [LogStorage N C L]

inductive Settle : RaftNode N C L → RaftNode N C L → Prop where
  | keep {nd nd' : RaftNode N C L} (h : SameState nd nd') : Settle nd nd'
  | commit (nd : RaftNode N C L) (c : ℕ) (h : nd.commitIndex < c) : Settle nd { nd with commitIndex := c }
  | persist (nd : RaftNode N C L) : Settle nd { nd with log := persist nd.log }
  | apply (nd : RaftNode N C L) : Settle nd nd.applyCommittedLogsLocked

abbrev Settles (nd nd' : RaftNode N C L) : Prop := Relation.ReflTransGen Settle nd nd'

lemma Settles.keep {nd nd' : RaftNode N C L} (h : SameState nd nd') : Settles nd nd' := .single (.keep h)

lemma Settles.data {nd nd' : RaftNode N C L} (h : SameData nd nd') : Settles nd nd' := .keep h.sameState

lemma Settles.commit {c : ℕ} (h : nd.commitIndex ≤ c) :
    Settles nd { nd with commitIndex := c } := by
  rcases h.eq_or_lt with h | h
  · exact .keep ⟨rfl, rfl, h.symm, rfl, rfl, rfl, rfl, rfl⟩
  · exact .single (.commit nd c h)

inductive Calm : RaftNode N C L → RaftNode N C L → Prop where
  | data {nd nd' : RaftNode N C L} (h : SameData nd nd') : Calm nd nd'
  | commit (nd : RaftNode N C L) (c : ℕ) (h : nd.commitIndex < c) : Calm nd { nd with commitIndex := c }
  | persist (nd : RaftNode N C L) : Calm nd { nd with log := persist nd.log }
  | apply (nd : RaftNode N C L) : Calm nd nd.applyCommittedLogsLocked

abbrev Calms (nd nd' : RaftNode N C L) : Prop := Relation.ReflTransGen Calm nd nd'

lemma Calms.data {nd nd' : RaftNode N C L} (h : SameData nd nd') : Calms nd nd' := .single (.data h)

lemma Calms.settles {nd nd' : RaftNode N C L} (h : Calms nd nd') : Settles nd nd' := by
  refine Relation.ReflTransGen.mono (fun _ _ h => ?_) _ _ h
  cases h with
  | data h => exact .keep h.sameState
  | commit c h => exact .commit _ c h
  | persist => exact .persist _
  | apply => exact .apply _

/-- **What a node does by itself in one section.** Only the end of a membership change is written and counted in the
same section. -/
inductive Turn (nd nd' : RaftNode N C L) : Prop where
  | settle (h : Settles nd nd')
  | write (e : LogEntry N C) (f : Bool) (h : SameState { nd with log := append nd.log e f } nd')
  | finalize (hjoint : nd.configState = .joint) (mid : RaftNode N C L) (before : Settles nd mid) (e : LogEntry N C)
      (after : Settles { mid with log := append mid.log e true } nd')

lemma Turn.after_data {nd mid nd' : RaftNode N C L} (h : SameData nd mid) (k : Turn mid nd') : Turn nd nd' := by
  cases k with
  | settle k => exact .settle ((Settles.data h).trans k)
  | write e f k =>
    have hlog : nd'.log = append nd.log e f := by rw [← h.log]; exact k.log
    exact .write e f ⟨hlog, k.sm.trans h.sm, k.commit.trans h.commit, k.applied.trans h.applied, k.snap.trans h.snap,
      k.bin.trans h.bin, k.progress.trans h.progress, k.snapMeta.trans h.snapMeta⟩
  | finalize hj m before e after => exact .finalize (h.state.symm.trans hj) m ((Settles.data h).trans before) e after

inductive Move : RaftNode N C L → RaftNode N C L → Prop where
  | settle {nd nd' : RaftNode N C L} (h : Settle nd nd') : Move nd nd'
  | append (nd : RaftNode N C L) (e : LogEntry N C) (f : Bool) : Move nd { nd with log := append nd.log e f }

abbrev Moves (nd nd' : RaftNode N C L) : Prop := Relation.ReflTransGen Move nd nd'

lemma Settles.moves {nd nd' : RaftNode N C L} (h : Settles nd nd') : Moves nd nd' := by
  induction h with
  | refl => exact .refl
  | tail _ hlast ih => exact ih.tail (.settle hlast)

lemma Turn.moves {nd nd' : RaftNode N C L} (h : Turn nd nd') : Moves nd nd' := by
  cases h with
  | settle h => exact h.moves
  | write e f h => exact Relation.ReflTransGen.tail (.single (.append nd e f)) (.settle (.keep h))
  | finalize _ mid before e after => exact (before.moves.tail (.append mid e true)).trans after.moves

lemma Moves.invariant {P : RaftNode N C L → Prop} (hm : ∀ nd nd', Move nd nd' → P nd → P nd')
    {nd nd' : RaftNode N C L} (h : Moves nd nd') (hp : P nd) : P nd' := by
  induction h with
  | refl => exact hp
  | tail _ hlast ih => exact hm _ _ hlast ih

variable [DecidableEq N]

lemma advanceCommitIndexLocked_calms : Calms nd nd.advanceCommitIndexLocked := by
  have hto : ∀ c, Calms nd (nd.commitTo c) := by
    intro c
    rcases commitTo_spec nd c with h | ⟨h, hlt, -⟩
    · rw [h]
    · rw [h]; exact .single (.commit nd c hlt)
  unfold advanceCommitIndexLocked advanceCommitIndexJointLocked
  split
  · exact hto _
  · split
    · exact .refl
    · exact hto _

lemma advanceCommitIndexLocked_state : nd.advanceCommitIndexLocked.configState = nd.configState := by
  have hto : ∀ c, (nd.commitTo c).configState = nd.configState := by
    intro c
    rcases commitTo_spec nd c with h | ⟨h, -⟩ <;> rw [h]
  unfold advanceCommitIndexLocked advanceCommitIndexJointLocked
  split
  · exact hto _
  · split
    · rfl
    · exact hto _

lemma commitAndApply_turn :
    Turn nd nd.advanceCommitIndexLocked.maybeAutoFinalizeJointLocked.applyCommittedLogsLocked := by
  have hadv := (advanceCommitIndexLocked_calms nd).settles
  rcases maybeAutoFinalizeJointLocked_spec nd.advanceCommitIndexLocked with h | ⟨hj, h⟩
  · rw [h]; exact .settle (hadv.tail (.apply _))
  · let e : LogEntry N C :=
      ⟨nd.advanceCommitIndexLocked.term, 0, .configChange nd.advanceCommitIndexLocked.jointConfig.newConfig⟩
    have hkeep : SameState { nd.advanceCommitIndexLocked with log := append nd.advanceCommitIndexLocked.log e true }
        nd.advanceCommitIndexLocked.maybeAutoFinalizeJointLocked := by
      rw [h]; exact ⟨rfl, rfl, rfl, rfl, rfl, rfl, rfl, rfl⟩
    exact .finalize ((advanceCommitIndexLocked_state nd).symm.trans hj) _ hadv e ((Settles.keep hkeep).tail (.apply _))

lemma heartbeatFinish_calms (isLoop : Bool) (epoch ackCount : ℕ) (rspLastLog : List (N × ℕ))
    (maxPeerTerm : ℕ) : Calms nd (nd.heartbeatFinish isLoop epoch ackCount rspLastLog maxPeerTerm).1 := by
  rcases heartbeatFinish_spec nd isLoop epoch ackCount rspLastLog maxPeerTerm with h | ⟨-, h⟩ | ⟨-, -, h⟩
  · rw [h]
  · rw [h]; exact .data (becomeFollowerLocked_data nd _)
  · exact ((Calms.data (recordHeartbeatAcks_only nd rspLastLog).data).trans (advanceCommitIndexLocked_calms _)).tail
      (.data h.data)

lemma replicateFinish_turn (currentTerm : ℕ) (rsps : List (PeerReq N C × PeerRsp)) :
    Turn nd (nd.replicateFinish currentTerm rsps).1 := by
  rcases replicateFinish_spec nd currentTerm rsps with h | ⟨t, -, h⟩ | ⟨-, -, h⟩
  · rw [h]; exact .settle .refl
  · rw [h]; exact .settle (.data (becomeFollowerLocked_data nd _))
  · rw [h]; exact .after_data (foldl_recordPeerRsp_only rsps nd).data (commitAndApply_turn _)

lemma replicateAlone_turn : Turn nd nd.replicateAlone := by
  unfold replicateAlone
  split_ifs
  · exact .settle .refl
  · exact commitAndApply_turn nd

lemma beginConfigChange_turn (target : ClusterConfig N) : Turn nd (nd.beginConfigChange target).1 := by
  unfold beginConfigChange
  split_ifs
  · exact .settle .refl
  · split
    · dsimp only
      split_ifs
      · exact .settle .refl
      · exact .write _ true ⟨rfl, rfl, rfl, rfl, rfl, rfl, rfl, rfl⟩
    · exact .write _ true ⟨rfl, rfl, rfl, rfl, rfl, rfl, rfl, rfl⟩

lemma onHeartbeat_calms (req : HeartbeatRequest N) : Calms nd (nd.onHeartbeat req).1 := by
  unfold onHeartbeat
  split_ifs
  · exact .refl
  · dsimp only
    refine (Calms.data (becomeFollowerLocked_data nd req.term)).trans ?_
    split_ifs with h
    · exact (Relation.ReflTransGen.single (.commit _ _ h.1)).tail (.apply _)
    · exact .refl
  · exact .refl

end RaftNode

namespace Cluster

variable {N C L : Type} [DecidableEq N] [LogStorage N C L]

/-- **What a step does to node `n`.** -/
inductive NodeStep (s : Cluster N C L) (a : Action N C L) (n : N) (nd' : RaftNode N C L) : Prop where
  | turn (h : Turn (s.nodes n) nd')
  | adopt (req : AppendEntriesRequest N C) (hd : s.delivered a = some (n, .appendEntries req))
      (eq : nd' = ((s.nodes n).onAppendEntries req).1)
  | install (req : InstallSnapshotRequest N C) (hd : s.delivered a = some (n, .installSnapshot req))
      (eq : nd' = ((s.nodes n).onInstallSnapshot req).1)
  | snapshot (ha : a = .call n .createSnapshotIfNeeded) (eq : nd' = (s.nodes n).createSnapshotIfNeeded)
  | restart (r : Recovered N C L) (ha : a = .restart n r) (eq : nd' = restartNode (s.nodes n) r)

variable {s s' : Cluster N C L} {a : Action N C L}

lemma trans_nodeStep (ht : Trans s a s') (n : N) : NodeStep s a n (s'.nodes n) := by
  have hdata : ∀ {nd'}, SameData (s.nodes n) nd' → NodeStep s a n nd' := fun h => .turn (.settle (.data h))
  cases ht.node n with
  | kept _ h => exact hdata h.data
  | applied _ _ _ _ _ eq => rw [eq]; exact .turn (.settle (.single (.apply _)))
  | persisted _ _ _ _ _ eq => rw [eq]; exact .turn (.settle (.single (.persist _)))
  | campaign _ h => exact hdata h.data
  | boot _ _ _ _ hm hl =>
    rcases hm with ⟨-, rfl⟩ | hm
    · exact hdata hl.data
    · exact hdata (hm.data.trans hl.data)
  | wins _ _ _ _ _ _ _ _ h => exact hdata h.leads.data
  | countBeats _ _ _ _ _ _ _ _ eq => rw [eq]; exact .turn (.settle (heartbeatFinish_calms _ _ _ _ _ _).settles)
  | append _ _ eq => rw [eq]; exact .turn (.write _ false ⟨rfl, rfl, rfl, rfl, rfl, rfl, rfl, rfl⟩)
  | refresh _ eq => rw [eq]; exact hdata (refreshPeers_only _).data
  | countAppends _ _ _ _ _ _ eq => rw [eq]; exact .turn (replicateFinish_turn _ _ _)
  | alone _ _ _ _ eq => rw [eq]; exact .turn (replicateAlone_turn _)
  | config target eq => rw [eq]; exact .turn (beginConfigChange_turn _ target)
  | snapshot eq => exact .snapshot rfl eq
  | grants _ _ _ h => exact hdata h.data
  | beaten _ req _ eq => rw [eq]; exact .turn (.settle (onHeartbeat_calms _ req).settles)
  | adopts _ req hd eq => exact .adopt req hd eq
  | installs _ req hd eq => exact .install req hd eq
  | restart r eq => exact .restart r rfl eq

lemma step_nodeStep (s : Cluster N C L) (a : Action N C L) (n : N) : NodeStep s a n ((s.step a).nodes n) :=
  trans_nodeStep (step_trans s a) n

/-! ## Steps elsewhere -/

theorem step_elsewhere {n : N} (h : s.actsOn n a = false) : (s.step a).nodes n = s.nodes n :=
  (step_trans s a).others n h

end Cluster

end MaxRedis.Raft

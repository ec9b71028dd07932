/-
The progress that a leader keeps of its peers.

`last_peer_ids_`, `peer_next_index_` and `peer_last_log_index_` belong together by position.
-/
import MaxRedis.Core.Run
import MaxRedis.Raft.Handlers

namespace MaxRedis.Raft

open LogStorage RaftNode List

variable {N C L : Type}

/-! ## Slots -/

structure Owners (N : Type) where
  next : List N := []
  lastLog : List N := []
  deriving DecidableEq

structure Slots (N : Type) where
  arrays : PeerArrays N
  owners : Owners N
  deriving DecidableEq

inductive Access (N : Type) where
  | lead (peers : List N) (fresh : ℕ)
  | refresh (peers : List N) (fresh : ℕ)
  | readNext (i : ℕ) (p : N)
  | readLast (i : ℕ) (p : N)
  | setNext (i : ℕ) (p : N) (v : ℕ)
  | setLast (i : ℕ) (p : N) (v : ℕ)
  deriving DecidableEq

def keepOwners (owners peers : List N) : List N := owners.take peers.length ++ peers.drop owners.length

namespace Access

def on (s : Slots N) : Access N → Slots N
  | .lead peers fresh =>
    ⟨⟨peers, List.replicate peers.length fresh, List.replicate peers.length 0⟩, ⟨peers, peers⟩⟩
  | .refresh peers fresh =>
    ⟨⟨peers, (resize s.arrays.next peers.length 0).map (fun i => if i = 0 then fresh else i),
        resize s.arrays.lastLog peers.length 0⟩,
      ⟨keepOwners s.owners.next peers, keepOwners s.owners.lastLog peers⟩⟩
  | .readNext _ _ => s
  | .readLast _ _ => s
  | .setNext i p v =>
    ⟨{ s.arrays with next := s.arrays.next.set i v }, { s.owners with next := s.owners.next.set i p }⟩
  | .setLast i p v =>
    ⟨{ s.arrays with lastLog := s.arrays.lastLog.set i v }, { s.owners with lastLog := s.owners.lastLog.set i p }⟩

/-- the position is inside the array, named for the peer, and has the peer's progress when it is read; a refresh gives
no peer the progress of another one -/
def right [DecidableEq N] (s : Slots N) : Access N → Bool
  | .lead _ _ => true
  | .refresh peers _ => keepOwners s.owners.next peers = peers ∧ keepOwners s.owners.lastLog peers = peers
  | .readNext i p => s.arrays.ids[i]? = some p ∧ i < s.arrays.next.length ∧ s.owners.next[i]? = some p
  | .readLast i p => s.arrays.ids[i]? = some p ∧ i < s.arrays.lastLog.length ∧ s.owners.lastLog[i]? = some p
  | .setNext i p _ => s.arrays.ids[i]? = some p ∧ i < s.arrays.next.length
  | .setLast i p _ => s.arrays.ids[i]? = some p ∧ i < s.arrays.lastLog.length

def at? : Access N → Option (ℕ × N)
  | .lead _ _ => none
  | .refresh _ _ => none
  | .readNext i p => some (i, p)
  | .readLast i p => some (i, p)
  | .setNext i p _ => some (i, p)
  | .setLast i p _ => some (i, p)

def Named (ids : List N) (a : Access N) : Prop := ∃ i p, a.at? = some (i, p) ∧ ids[i]? = some p

end Access

structure Slots.Aligned (s : Slots N) : Prop where
  next : s.owners.next = s.arrays.ids
  lastLog : s.owners.lastLog = s.arrays.ids
  lenNext : s.arrays.next.length = s.arrays.ids.length
  lenLast : s.arrays.lastLog.length = s.arrays.ids.length

lemma length_resize {α : Type} (l : List α) (n : ℕ) (d : α) : (resize l n d).length = n := by
  simp only [resize, length_append, length_take, length_replicate]
  omega

lemma set_named {l : List N} {i : ℕ} {p : N} (h : l[i]? = some p) : l.set i p = l := by
  apply ext_getElem?
  intro j
  rw [getElem?_set]
  split_ifs with hij hlt
  · rw [← hij, h]
  · rw [getElem?_eq_none (by omega)]
  · rfl

lemma keepOwners_of_agree {ids peers : List N} (h : peers.take ids.length = ids.take peers.length) :
    keepOwners ids peers = peers := by
  unfold keepOwners
  rw [← h, take_append_drop]

lemma Slots.Aligned.on [DecidableEq N] {s : Slots N} (h : s.Aligned) {a : Access N} (ha : a.right s) :
    (a.on s).Aligned := by
  cases a with
  | lead => exact ⟨rfl, rfl, length_replicate, length_replicate⟩
  | refresh =>
    simp only [Access.right, decide_eq_true_eq] at ha
    exact ⟨ha.1, ha.2, by simp only [Access.on, length_map, length_resize], length_resize _ _ _⟩
  | readNext | readLast => exact h
  | setNext i p =>
    simp only [Access.right, decide_eq_true_eq] at ha
    refine ⟨?_, h.lastLog, ?_, h.lenLast⟩
    · show s.owners.next.set i p = s.arrays.ids
      rw [h.next]
      exact set_named ha.1
    · exact length_set.trans h.lenNext
  | setLast i p =>
    simp only [Access.right, decide_eq_true_eq] at ha
    refine ⟨h.next, ?_, h.lenNext, ?_⟩
    · show s.owners.lastLog.set i p = s.arrays.ids
      rw [h.lastLog]
      exact set_named ha.1
    · exact length_set.trans h.lenLast

lemma Slots.Aligned.along_right [DecidableEq N] {s : Slots N} (h : s.Aligned) {as : List (Access N)}
    (has : ∀ a ∈ as, a.Named s.arrays.ids) : Run.along Access.on Access.right s as := by
  induction as generalizing s with
  | nil => rfl
  | cons a _ ih =>
    obtain ⟨i, p, hat, hid⟩ := has a mem_cons_self
    obtain ⟨hlt, hget⟩ := List.getElem?_eq_some_iff.1 hid
    have hright : a.right s := by
      cases a with
      | _ =>
        cases hat
        all_goals simp [Access.right, h.next, h.lastLog, hget, h.lenNext, h.lenLast, hlt]
    have hids : (a.on s).arrays.ids = s.arrays.ids := by
      cases a with
      | _ => first | rfl | cases hat
    refine Bool.and_eq_true_iff.2 ⟨hright, ih (h.on hright) fun b hb => ?_⟩
    rw [hids]
    exact has b (mem_cons_of_mem a hb)

lemma ids_run (as : List (Access N)) (s : Slots N) : (Run.run Access.on s as).arrays.ids = s.arrays.ids ∨
    ∃ fresh, .lead (Run.run Access.on s as).arrays.ids fresh ∈ as ∨
      .refresh (Run.run Access.on s as).arrays.ids fresh ∈ as := by
  induction as generalizing s with
  | nil => exact Or.inl rfl
  | cons a as ih =>
    have hrun : Run.run Access.on s (a :: as) = Run.run Access.on (a.on s) as := rfl
    rw [hrun]
    rcases ih (a.on s) with hsame | ⟨fresh, hl | hr⟩
    · rw [hsame]
      cases a with
      | lead _ fresh => exact Or.inr ⟨fresh, Or.inl mem_cons_self⟩
      | refresh _ fresh => exact Or.inr ⟨fresh, Or.inr mem_cons_self⟩
      | _ => exact Or.inl rfl
    · exact Or.inr ⟨fresh, Or.inl (mem_cons_of_mem a hl)⟩
    · exact Or.inr ⟨fresh, Or.inr (mem_cons_of_mem a hr)⟩

/-! ## Sections that leave the arrays alone -/

namespace RaftNode

variable [DecidableEq N] [LogStorage N C L] (nd : RaftNode N C L)

lemma onInstallSnapshot_arrays (req : InstallSnapshotRequest N C) :
    (nd.onInstallSnapshot req).1.arrays = nd.arrays := by
  unfold onInstallSnapshot
  by_cases h1 : req.term < nd.term
  · rw [if_pos h1]
  · rw [if_neg h1]
    exact (observe_kept nd req.term).arrays

lemma createSnapshotIfNeeded_arrays : nd.createSnapshotIfNeeded.arrays = nd.arrays := by
  unfold createSnapshotIfNeeded
  dsimp only
  split_ifs <;> rfl

lemma submitAppend_arrays (command : Command N C) : (nd.submitAppend command).1.arrays = nd.arrays := by
  unfold submitAppend
  split_ifs <;> rfl

lemma onElectionTimeout_arrays : nd.onElectionTimeout.arrays = nd.arrays := by
  rcases onElectionTimeout_spec nd with h | h
  · rw [h]
  · exact h.arrays

lemma beginConfigChange_arrays (target : ClusterConfig N) : (nd.beginConfigChange target).1.arrays = nd.arrays := by
  unfold beginConfigChange
  split_ifs
  · rfl
  · split
    · dsimp only
      split_ifs <;> rfl
    · rfl

lemma onRequestVote_arrays (req : VoteRequest N) : (nd.onRequestVote req).1.arrays = nd.arrays := by
  rcases onRequestVote_spec nd req with ⟨h, -⟩ | ⟨h, -⟩
  · exact h.arrays
  · exact h.arrays

lemma startElection_arrays : nd.startElection.1.arrays = nd.arrays := by
  rcases startElection_spec nd with h | ⟨h, -⟩
  · rw [h]
  · exact h.arrays

variable [LawfulLog N C L]

lemma replayUnappliedLogs_arrays (nd : RaftNode N C L) : nd.replayUnappliedLogs.arrays = nd.arrays := by
  unfold replayUnappliedLogs
  dsimp only
  split_ifs
  · rfl
  · rfl
  · exact (applyCommittedLogsLocked_applies _).arrays

lemma replicateAlone_arrays (nd : RaftNode N C L) : nd.replicateAlone.arrays = nd.arrays := by
  unfold replicateAlone
  split_ifs
  · rfl
  · exact commitAndApply_arrays nd

end RaftNode

namespace RaftNode

variable [DecidableEq N] [LogStorage N C L]

/-! ## Accesses -/

def leadAccess (nd : RaftNode N C L) : Access N := .lead nd.getPeerIdsLocked (lastIndex nd.log + 1)

def refreshAccess (nd : RaftNode N C L) : Access N := .refresh nd.getPeerIdsLocked (lastIndex nd.log + 1)

def readAll (ids : List N) : List (Access N) := ids.zipIdx.map (fun x => .readLast x.2 x.1)

def recordAccesses (nd : RaftNode N C L) (p : PeerReq N C × PeerRsp) : List (Access N) :=
  if p.2.ok then [.setLast p.1.idx p.1.id p.2.matchIndex, .setNext p.1.idx p.1.id (p.2.matchIndex + 1)]
  else
    let backoff := max (min ((nd.peerNextIndex[p.1.idx]?).getD 0 - 1) (p.2.matchIndex + 1)) 1
    [.readNext p.1.idx p.1.id, .setNext p.1.idx p.1.id backoff] ++
      if backoff ≤ nd.lastSnapshotIndex then [.setLast p.1.idx p.1.id nd.lastSnapshotIndex] else []

def recordsAccesses : RaftNode N C L → List (PeerReq N C × PeerRsp) → List (Access N)
  | _, [] => []
  | nd, p :: ps => nd.recordAccesses p ++ recordsAccesses (nd.recordPeerRsp p) ps

def replicateStartAccesses (nd : RaftNode N C L) : List (Access N) :=
  if nd.role ≠ .leader then []
  else nd.refreshAccess :: nd.getPeerIdsLocked.zipIdx.map (fun x => .readNext x.2 x.1)

def replicateFinishAccesses (nd : RaftNode N C L) (currentTerm : ℕ) (rsps : List (PeerReq N C × PeerRsp)) :
    List (Access N) :=
  if nd.term < rsps.foldl (fun t p => max t p.2.term) currentTerm then []
  else if nd.role ≠ .leader ∨ nd.term ≠ currentTerm then []
  else nd.recordsAccesses rsps ++ readAll nd.lastPeerIds

def ackAccess (peers : List N) (p : N × ℕ) : Option (Access N) :=
  if peers.idxOf p.1 < peers.length then some (.setLast (peers.idxOf p.1) p.1 p.2) else none

def heartbeatFinishAccesses (nd : RaftNode N C L) (isLoop : Bool) (epoch : ℕ) (rspLastLog : List (N × ℕ))
    (maxPeerTerm : ℕ) : List (Access N) :=
  if isLoop ∧ nd.heartbeatEpoch ≠ epoch then []
  else if nd.role ≠ .leader then []
  else if nd.term < maxPeerTerm then []
  else
    nd.refreshAccess :: rspLastLog.filterMap (ackAccess nd.getPeerIdsLocked) ++ readAll nd.getPeerIdsLocked

end RaftNode

def Handler.accesses [DecidableEq N] [LogStorage N C L] (nd : RaftNode N C L) : Handler N C → List (Access N)
  | .finishElection req result granters maxPeerTerm =>
    if nd.role ≠ .leader ∧ (nd.finishElection req result granters maxPeerTerm).role = .leader then
      [nd.leadAccess] else []
  | .bootstrapSingleNode =>
    if nd.role ≠ .leader ∧ nd.bootstrapSingleNode.role = .leader then [nd.leadAccess] else []
  | .heartbeatFinish isLoop epoch _ rspLastLog maxPeerTerm =>
    nd.heartbeatFinishAccesses isLoop epoch rspLastLog maxPeerTerm
  | .replicateStart => nd.replicateStartAccesses
  | .replicateAlone => if nd.role ≠ .leader then [] else readAll nd.lastPeerIds
  | .replicateFinish currentTerm rsps => nd.replicateFinishAccesses currentTerm rsps
  | .transferCheck _ => if nd.role ≠ .leader then [] else readAll nd.lastPeerIds
  | _ => []

/-! ### They account for every change -/

def replayed (x : PeerArrays N) (o : Owners N) (as : List (Access N)) : PeerArrays N :=
  (Run.run Access.on ⟨x, o⟩ as).arrays

section Replay
variable [DecidableEq N] [LogStorage N C L] (x : PeerArrays N)

lemma replayed_append (o : Owners N) (as bs : List (Access N)) :
    ∃ o', replayed x o (as ++ bs) = replayed (replayed x o as) o' bs := by
  refine ⟨(Run.run Access.on ⟨x, o⟩ as).owners, ?_⟩
  unfold replayed Run.run
  rw [foldl_append]

lemma replayed_reads {α : Type} (o : Owners N) {g : α → Access N}
    (h : ∀ y (s : Slots N), (g y).on s = s) (ys : List α) : replayed x o (ys.map g) = x := by
  have hrun : ∀ s : Slots N, Run.run Access.on s (ys.map g) = s := by
    induction ys with
    | nil => exact fun s => rfl
    | cons y ys ih =>
      intro s
      show Run.run Access.on ((g y).on s) (ys.map g) = s
      rw [h]
      exact ih s
  unfold replayed
  rw [hrun]

lemma replayed_readAll (o : Owners N) (ids : List N) : replayed x o (readAll ids) = x :=
  replayed_reads x o (fun _ _ => rfl) _

variable (nd : RaftNode N C L) (o : Owners N)

lemma refreshPeers_arrays :
    nd.refreshPeers.arrays = replayed nd.arrays o [nd.refreshAccess] := rfl

lemma recordPeerRsp_arrays (p : PeerReq N C × PeerRsp) (o : Owners N) :
    (nd.recordPeerRsp p).arrays = replayed nd.arrays o (nd.recordAccesses p) := by
  unfold recordPeerRsp recordAccesses
  dsimp only
  split_ifs <;> rfl

lemma foldl_recordPeerRsp_arrays (ps : List (PeerReq N C × PeerRsp)) (nd : RaftNode N C L) (o : Owners N) :
    (ps.foldl recordPeerRsp nd).arrays = replayed nd.arrays o (nd.recordsAccesses ps) := by
  induction ps generalizing nd o with
  | nil => rfl
  | cons p ps ih =>
    obtain ⟨o', happ⟩ := replayed_append nd.arrays o (nd.recordAccesses p) ((nd.recordPeerRsp p).recordsAccesses ps)
    rw [recordsAccesses, happ, ← recordPeerRsp_arrays]
    exact ih _ o'

lemma replicateFinish_arrays [LawfulLog N C L] (nd : RaftNode N C L) (currentTerm : ℕ)
    (rsps : List (PeerReq N C × PeerRsp))
    (o : Owners N) :
    (nd.replicateFinish currentTerm rsps).1.arrays =
      replayed nd.arrays o (nd.replicateFinishAccesses currentTerm rsps) := by
  unfold replicateFinish replicateFinishAccesses
  dsimp only
  split_ifs
  · exact (becomeFollowerLocked_kept nd _).arrays
  · rfl
  · obtain ⟨o', happ⟩ := replayed_append nd.arrays o (nd.recordsAccesses rsps) (readAll nd.lastPeerIds)
    rw [happ, replayed_readAll, ← foldl_recordPeerRsp_arrays]
    exact commitAndApply_arrays _

lemma replicateStart_arrays :
    nd.replicateStart.1.arrays = replayed nd.arrays o nd.replicateStartAccesses := by
  unfold replicateStart replicateStartAccesses
  split_ifs
  · rfl
  · obtain ⟨o', happ⟩ := replayed_append nd.arrays o [nd.refreshAccess]
      (nd.getPeerIdsLocked.zipIdx.map (fun x => Access.readNext x.2 x.1))
    exact (refreshPeers_arrays nd o).trans (happ.trans (replayed_reads _ o' (fun _ _ => rfl) _)).symm

lemma recordHeartbeatAck_arrays (p : N × ℕ) (o : Owners N) : (nd.recordHeartbeatAck p).lastPeerIds = nd.lastPeerIds ∧
      (nd.recordHeartbeatAck p).arrays = replayed nd.arrays o (ackAccess nd.lastPeerIds p).toList := by
  unfold recordHeartbeatAck ackAccess
  dsimp only
  split_ifs <;> exact ⟨rfl, rfl⟩

lemma foldl_recordHeartbeatAck_arrays (ps : List (N × ℕ)) (nd : RaftNode N C L) (o : Owners N) :
    (ps.foldl recordHeartbeatAck nd).arrays = replayed nd.arrays o (ps.filterMap (ackAccess nd.lastPeerIds)) := by
  induction ps generalizing nd o with
  | nil => rfl
  | cons p ps ih =>
    obtain ⟨hids, hone⟩ := recordHeartbeatAck_arrays nd p o
    obtain ⟨o', happ⟩ := replayed_append nd.arrays o (ackAccess nd.lastPeerIds p).toList
      (ps.filterMap (ackAccess nd.lastPeerIds))
    have hcons : (p :: ps).filterMap (ackAccess nd.lastPeerIds) =
        (ackAccess nd.lastPeerIds p).toList ++ ps.filterMap (ackAccess nd.lastPeerIds) := by
      rw [filterMap_cons]
      cases ackAccess nd.lastPeerIds p <;> rfl
    rw [hcons, happ, ← hone, ← hids]
    exact ih _ o'

lemma heartbeatFinish_arrays (isLoop : Bool) (epoch ackCount : ℕ) (rspLastLog : List (N × ℕ))
    (maxPeerTerm : ℕ) (o : Owners N) : (nd.heartbeatFinish isLoop epoch ackCount rspLastLog maxPeerTerm).1.arrays =
      replayed nd.arrays o (nd.heartbeatFinishAccesses isLoop epoch rspLastLog maxPeerTerm) := by
  have hacks : replayed nd.arrays o (nd.refreshAccess :: rspLastLog.filterMap (ackAccess nd.getPeerIdsLocked) ++
      readAll nd.getPeerIdsLocked) = (nd.recordHeartbeatAcks rspLastLog).arrays := by
    obtain ⟨o1, h1⟩ := replayed_append nd.arrays o
      (nd.refreshAccess :: rspLastLog.filterMap (ackAccess nd.getPeerIdsLocked)) (readAll nd.getPeerIdsLocked)
    obtain ⟨o2, h2⟩ := replayed_append nd.arrays o [nd.refreshAccess]
      (rspLastLog.filterMap (ackAccess nd.getPeerIdsLocked))
    rw [h1, replayed_readAll]
    refine h2.trans ?_
    exact (foldl_recordHeartbeatAck_arrays rspLastLog
      { nd.refreshPeers with peerHbOk := nd.refreshPeers.peerHbOk.map (fun _ => false) } o2).symm
  unfold heartbeatFinish heartbeatFinishAccesses
  by_cases h1 : isLoop = true ∧ nd.heartbeatEpoch ≠ epoch
  · rw [if_pos h1, if_pos h1]; rfl
  by_cases h2 : nd.role ≠ .leader
  · rw [if_neg h1, if_neg h1, if_pos h2, if_pos h2]; rfl
  by_cases h3 : nd.term < maxPeerTerm
  · rw [if_neg h1, if_neg h1, if_neg h2, if_neg h2, if_pos h3, if_pos h3]
    exact (becomeFollowerLocked_kept nd _).arrays
  have hadv : (nd.recordHeartbeatAcks rspLastLog).advanceCommitIndexLocked.arrays =
      (nd.recordHeartbeatAcks rspLastLog).arrays := by
    obtain ⟨c, hc⟩ := advanceCommitIndexLocked_eq (nd.recordHeartbeatAcks rspLastLog)
    rw [hc]; rfl
  rw [if_neg h1, if_neg h1, if_neg h2, if_neg h2, if_neg h3, if_neg h3, hacks, ← hadv]
  generalize (nd.recordHeartbeatAcks rspLastLog).advanceCommitIndexLocked = mid
  dsimp only
  split_ifs
  · exact (transferTick_kept _).arrays
  · exact (stepDownLocked_kept mid).arrays
  · exact (transferTick_kept mid).arrays

lemma finishElection_arrays (req : VoteRequest N) (result : ElectionResult)
    (granters : List N) (maxPeerTerm : ℕ) (o : Owners N) : (nd.finishElection req result granters maxPeerTerm).arrays =
      replayed nd.arrays o ((Handler.finishElection req result granters maxPeerTerm : Handler N C).accesses nd) := by
  simp only [Handler.accesses]
  rcases finishElection_spec nd req result granters maxPeerTerm with hk | hw
  · rw [if_neg (fun h => h.1 ((hk.quiet.role (by rw [h.2]; simp)).1.symm.trans h.2))]
    exact hk.arrays
  · rw [if_pos ⟨by rw [hw.old]; simp, hw.leads.role⟩]
    exact hw.leads.arrays

lemma bootstrapSingleNode_arrays : nd.bootstrapSingleNode.arrays =
      replayed nd.arrays o ((Handler.bootstrapSingleNode : Handler N C).accesses nd) := by
  simp only [Handler.accesses]
  rcases bootstrapSingleNode_spec nd with he | ⟨-, hr, -, mid, hm, hl⟩
  · rw [he, if_neg (fun h => h.1 h.2)]
    rfl
  · have hdata : SameData nd mid := by
      rcases hm with ⟨-, rfl⟩ | hc
      · exact .refl _
      · exact hc.data
    rw [if_pos ⟨hr, hl.role⟩, hl.arrays, getPeerIdsLocked_eq hdata, hdata.log]
    rfl

theorem Handler.replay [LawfulLog N C L] (nd : RaftNode N C L) (h : Handler N C) (o : Owners N) :
    (h.on nd).arrays = replayed nd.arrays o (h.accesses nd) := by
  cases h with
  | onRequestVote req => exact onRequestVote_arrays nd req
  | onHeartbeat req => exact onHeartbeat_arrays nd req
  | onAppendEntries req => exact onAppendEntries_arrays nd req
  | onInstallSnapshot req => exact onInstallSnapshot_arrays nd req
  | onTimeoutNow req => exact (onTimeoutNow_kept nd req).arrays
  | onElectionTimeout => exact onElectionTimeout_arrays nd
  | startElection => exact startElection_arrays nd
  | finishElection req result granters maxPeerTerm => exact finishElection_arrays nd req result granters maxPeerTerm o
  | bootstrapSingleNode => exact bootstrapSingleNode_arrays nd o
  | heartbeatFinish => exact heartbeatFinish_arrays nd _ _ _ _ _ o
  | replicateStart => exact replicateStart_arrays nd o
  | replicateAlone =>
    simp only [Handler.accesses]
    split_ifs
    · exact replicateAlone_arrays nd
    · exact (replicateAlone_arrays nd).trans (replayed_readAll _ _ _).symm
  | replicateFinish currentTerm rsps => exact replicateFinish_arrays nd currentTerm rsps o
  | readIndexStart => exact (readIndexStart_kept nd).arrays
  | readIndexFinish => exact (readIndexFinish_kept nd _ _ _).arrays
  | startTransfer target => exact (startTransfer_kept nd target).arrays
  | transferCheck target =>
    simp only [Handler.accesses]
    split_ifs
    · exact (transferCheck_kept nd target).arrays
    · exact (transferCheck_kept nd target).arrays.trans (replayed_readAll _ _ _).symm
  | timeoutNowFinish accepted => exact (timeoutNowFinish_kept nd accepted).arrays
  | cancelTransfer => exact (cancelTransferLocked_kept nd).arrays
  | submitAppend command => exact submitAppend_arrays nd command
  | applyCommittedLogs => exact (applyCommittedLogsLocked_applies nd).arrays
  | replayUnappliedLogs => exact replayUnappliedLogs_arrays nd
  | beginConfigChange target => exact beginConfigChange_arrays nd target
  | createSnapshotIfNeeded => exact createSnapshotIfNeeded_arrays nd
  | _ => rfl

end Replay

/-! ## Terms -/

section
variable [DecidableEq N] [LogStorage N C L]

lemma Handler.ages [LawfulLog N C L] (nd : RaftNode N C L) (h : Handler N C) : Ages nd (h.on nd) := by
  cases h with
  | onHeartbeat req => exact .of_quiet (onHeartbeat_quiet nd req)
  | onAppendEntries req => exact .of_quiet (onAppendEntries_quiet nd req)
  | onInstallSnapshot req => exact .of_quiet (onInstallSnapshot_quiet nd req)
  | heartbeatFinish => exact .of_quiet (heartbeatFinish_quiet nd _ _ _ _ _)
  | replicateAlone => exact .of_quiet (replicateAlone_quiet nd)
  | replicateFinish currentTerm rsps => exact .of_quiet (replicateFinish_quiet nd currentTerm rsps)
  | submitAppend command =>
    show Ages nd (nd.submitAppend command).1
    rcases submitAppend_spec nd command with he | ⟨-, he⟩
    · rw [he]; exact .of_same (.refl nd)
    · rw [he]; exact .of_same (.of_view rfl)
  | persist => exact .of_same (.of_view rfl)
  | applyCommittedLogs => exact .of_same (applyCommittedLogsLocked_applies nd).same
  | replayUnappliedLogs =>
    show Ages nd nd.replayUnappliedLogs
    unfold RaftNode.replayUnappliedLogs
    dsimp only
    split_ifs
    · exact .of_same (.refl nd)
    · exact .of_same (.refl nd)
    · exact .of_same ((commitIndex_same nd _).trans (applyCommittedLogsLocked_applies _).same)
  | beginConfigChange target => exact .of_quiet (beginConfigChange_quiet nd target)
  | createSnapshotIfNeeded => exact .of_same (createSnapshotIfNeeded_same nd)
  | addPeer | removePeer | setClusterConfig | shutDown | tick => exact .of_same (.of_view rfl)
  | _ => exact (Handler.keepsData_spec nd _ rfl).2

end

/-! ## Rounds in flight -/

structure OpenRound (N C : Type) where
  currentTerm : ℕ
  requests : List (PeerReq N C)

def OpenRound.answered (r : OpenRound N C) (answers : PeerReq N C → Option PeerRsp) : List (PeerReq N C × PeerRsp) :=
  r.requests.filterMap (fun q => (answers q).map (fun rsp => (q, rsp)))

structure Replicator (N C L : Type) where
  node : RaftNode N C L
  rounds : List (OpenRound N C) := []
  owners : Owners N := {}

/-- `reorder` is whatever makes the sets of ids be walked in another order (a rehash, a copy): it may come before any
section, so that no two of them need to see the same order -/
inductive ProgressEvent (N C : Type) where
  | handler (h : Handler N C)
  | reorder (order : IdOrder N)
  | begin
  | finish (k : ℕ) (answers : PeerReq N C → Option PeerRsp)

def Handler.replicates : Handler N C → Bool
  | .replicateStart => true
  | .replicateFinish _ _ => true
  | _ => false

namespace Replicator

variable [DecidableEq N] [LogStorage N C L]

def slots (s : Replicator N C L) : Slots N := ⟨s.node.arrays, s.owners⟩

def section? (s : Replicator N C L) : ProgressEvent N C → Option (Handler N C)
  | .handler h => if h.replicates then none else some h
  | .reorder _ => none
  | .begin => some .replicateStart
  | .finish k answers => (s.rounds[k]?).map (fun r => .replicateFinish r.currentTerm (r.answered answers))

def roundsAfter (s : Replicator N C L) : ProgressEvent N C → List (OpenRound N C)
  | .handler _ => s.rounds
  | .reorder _ => s.rounds
  | .begin =>
    match s.node.replicateStart.2 with
    | none => s.rounds
    | some (currentTerm, _, _, requests) => s.rounds ++ [⟨currentTerm, requests⟩]
  | .finish k _ => s.rounds.eraseIdx k

def accesses (s : Replicator N C L) (e : ProgressEvent N C) : List (Access N) :=
  ((s.section? e).map (Handler.accesses s.node)).getD []

def walked (s : Replicator N C L) : ProgressEvent N C → RaftNode N C L
  | .reorder order => { s.node with idOrder := order }
  | _ => s.node

def step (s : Replicator N C L) (e : ProgressEvent N C) : Replicator N C L where
  node := ((s.section? e).map (Handler.on s.node)).getD (s.walked e)
  rounds := s.roundsAfter e
  owners := (Run.run Access.on s.slots (s.accesses e)).owners

def right (s : Replicator N C L) (e : ProgressEvent N C) : Bool :=
  Run.along Access.on Access.right s.slots (s.accesses e)

def calm (s : Replicator N C L) (e : ProgressEvent N C) : Bool :=
  (s.accesses e).all fun
    | .refresh peers _ => decide (peers.take s.node.lastPeerIds.length = s.node.lastPeerIds.take peers.length) &&
        s.rounds.all (fun r => decide (r.currentTerm ≠ s.node.term) || r.requests.all (fun q => decide (q.idx <
          peers.length)))
    | _ => true

structure Attached (s : Replicator N C L) : Prop where
  slots : s.slots.Aligned
  old : ∀ r ∈ s.rounds, r.currentTerm ≤ s.node.term
  campaign : s.node.role = .candidate → ∀ r ∈ s.rounds, r.currentTerm < s.node.term
  named : ∀ r ∈ s.rounds, r.currentTerm = s.node.term → ∀ q ∈ r.requests, s.node.lastPeerIds[q.idx]? = some q.id

lemma slots_step [LawfulLog N C L] (s : Replicator N C L) (e : ProgressEvent N C) :
    (s.step e).slots = Run.run Access.on s.slots (s.accesses e) := by
  have harrays : (s.step e).node.arrays = (Run.run Access.on s.slots (s.accesses e)).arrays := by
    unfold step accesses
    cases hs : s.section? e with
    | none => cases e with | _ => rfl
    | some h => exact Handler.replay s.node h s.owners
  unfold slots at harrays ⊢
  rw [harrays]
  rfl

end Replicator

/-! ## Where accesses go -/

section Named
variable [DecidableEq N] [LogStorage N C L] {ids peers : List N}

lemma at_recordsAccesses (ps : List (PeerReq N C × PeerRsp)) (nd : RaftNode N C L) :
    ∀ a ∈ nd.recordsAccesses ps, ∃ p ∈ ps, a.at? = some (p.1.idx, p.1.id) := by
  induction ps generalizing nd with
  | nil => intro a ha; cases ha
  | cons p _ ih =>
    intro a ha
    rcases mem_append.1 ha with ha | ha
    · refine ⟨p, mem_cons_self, ?_⟩
      unfold recordAccesses at ha
      dsimp only at ha
      split_ifs at ha <;>
        simp only [mem_cons, not_mem_nil, or_false, cons_append, nil_append] at ha
      · rcases ha with rfl | rfl <;> rfl
      · rcases ha with rfl | rfl | rfl <;> rfl
      · rcases ha with rfl | rfl <;> rfl
    · obtain ⟨q, hq, hat⟩ := ih _ a ha
      exact ⟨q, mem_cons_of_mem p hq, hat⟩

lemma named_zipIdx {g : N × ℕ → Access N} (hg : ∀ x, (g x).at? = some (x.2, x.1)) :
    ∀ a ∈ ids.zipIdx.map g, a.Named ids := by
  intro a ha
  obtain ⟨⟨p, i⟩, hx, rfl⟩ := mem_map.1 ha
  exact ⟨i, p, hg _, mk_mem_zipIdx_iff_getElem?.1 hx⟩

lemma named_readAll : ∀ a ∈ readAll ids, a.Named ids := named_zipIdx (fun _ => rfl)

lemma named_acks {acks : List (N × ℕ)} : ∀ a ∈ acks.filterMap (ackAccess ids), a.Named ids := by
  intro a ha
  obtain ⟨x, -, hx⟩ := mem_filterMap.1 ha
  unfold ackAccess at hx
  split_ifs at hx with hlt
  cases hx
  exact ⟨_, _, rfl, by rw [getElem?_eq_getElem hlt, getElem_idxOf hlt]⟩

lemma Slots.Aligned.right_refresh {s : Slots N} (h : s.Aligned) {fresh : ℕ} {as : List (Access N)}
    (hagree : peers.take s.arrays.ids.length = s.arrays.ids.take peers.length) (has : ∀ a ∈ as, a.Named peers) :
    Run.along Access.on Access.right s (.refresh peers fresh :: as) := by
  have hright : (Access.refresh peers fresh).right s := by
    simp only [Access.right, h.next, h.lastLog, decide_eq_true_eq, and_self]
    exact keepOwners_of_agree hagree
  exact Bool.and_eq_true_iff.2 ⟨hright, (h.on hright).along_right has⟩

lemma Handler.accesses_cases (nd : RaftNode N C L) (h : Handler N C) :
    (h.accesses nd = [nd.leadAccess] ∧ (nd.role = .candidate ∨ nd.term < (h.on nd).term)) ∨
    (∃ as, h.accesses nd = nd.refreshAccess :: as ∧ ∀ a ∈ as, a.Named nd.getPeerIdsLocked) ∨
    ∀ a ∈ h.accesses nd, a.Named nd.lastPeerIds ∨
      ∃ rsps, h = .replicateFinish nd.term rsps ∧ ∃ p ∈ rsps, a.at? = some (p.1.idx, p.1.id) := by
  have hread : ∀ b : Prop, [Decidable b] → ∀ a ∈ (if b then [] else readAll nd.lastPeerIds),
      a.Named nd.lastPeerIds := by
    intro b _ a ha
    split_ifs at ha
    · cases ha
    · exact named_readAll a ha
  cases h with
  | finishElection req result granters maxPeerTerm =>
    simp only [Handler.accesses]
    split_ifs with hlead
    · refine Or.inl ⟨rfl, Or.inl ?_⟩
      rcases finishElection_spec nd req result granters maxPeerTerm with hk | hw
      · exact absurd ((hk.quiet.role (by rw [hlead.2]; simp)).1.symm.trans hlead.2) hlead.1
      · exact hw.old
    · exact Or.inr (Or.inr (by simp))
  | bootstrapSingleNode =>
    simp only [Handler.accesses]
    split_ifs with hlead
    · refine Or.inl ⟨rfl, ?_⟩
      rcases bootstrapSingleNode_spec nd with he | ⟨-, -, -, mid, hmid, hl⟩
      · rw [he] at hlead
        exact absurd hlead.2 hlead.1
      · exact hmid.imp And.left (fun hc => hc.term.trans_eq hl.term_eq.symm)
    · exact Or.inr (Or.inr (by simp))
  | heartbeatFinish =>
    simp only [Handler.accesses, heartbeatFinishAccesses]
    split_ifs
    · exact Or.inr (Or.inr (by simp))
    · exact Or.inr (Or.inr (by simp))
    · exact Or.inr (Or.inr (by simp))
    · exact Or.inr (Or.inl ⟨_, rfl, forall_mem_append.2 ⟨named_acks, named_readAll⟩⟩)
  | replicateStart =>
    simp only [Handler.accesses, replicateStartAccesses]
    split_ifs
    · exact Or.inr (Or.inr (by simp))
    · exact Or.inr (Or.inl ⟨_, rfl, named_zipIdx (fun _ => rfl)⟩)
  | replicateAlone => exact Or.inr (Or.inr (fun a ha => Or.inl (hread _ a ha)))
  | transferCheck => exact Or.inr (Or.inr (fun a ha => Or.inl (hread _ a ha)))
  | replicateFinish _ rsps =>
    simp only [Handler.accesses, replicateFinishAccesses]
    split_ifs with h1 h2
    · exact Or.inr (Or.inr (by simp))
    · exact Or.inr (Or.inr (by simp))
    · push Not at h2
      refine Or.inr (Or.inr (forall_mem_append.2 ⟨fun a ha => Or.inr ?_, fun a ha => Or.inl (named_readAll a ha)⟩))
      exact ⟨rsps, by rw [h2.2], at_recordsAccesses rsps nd a ha⟩
  | _ => exact Or.inr (Or.inr (by simp [Handler.accesses]))

/-- **The accesses of a section**, if its refresh moves nobody and the answers it counts are named right -/
theorem Handler.along_right (nd : RaftNode N C L) (h : Handler N C) (o : Owners N) (hs : Slots.Aligned ⟨nd.arrays, o⟩)
    (hcalm : ∀ peers fresh, .refresh peers fresh ∈ h.accesses nd →
      peers.take nd.lastPeerIds.length = nd.lastPeerIds.take peers.length)
    (hnamed : ∀ t rsps, h = .replicateFinish t rsps → nd.term = t → ∀ p ∈ rsps,
      nd.lastPeerIds[p.1.idx]? = some p.1.id) :
    Run.along Access.on Access.right ⟨nd.arrays, o⟩ (h.accesses nd) := by
  rcases h.accesses_cases nd with ⟨hacc, -⟩ | ⟨as, hacc, has⟩ | hall
  · rw [hacc]
    rfl
  · rw [hacc] at hcalm ⊢
    exact hs.right_refresh (hcalm _ _ mem_cons_self) has
  · refine hs.along_right (fun a ha => ?_)
    rcases hall a ha with hn | ⟨rsps, rfl, p, hp, hat⟩
    · exact hn
    · exact ⟨_, _, hat, hnamed _ rsps rfl rfl p hp⟩

lemma Handler.role_of_lead {nd : RaftNode N C L} {h : Handler N C} {fresh : ℕ}
    (hm : .lead peers fresh ∈ h.accesses nd) : nd.role = .candidate ∨ nd.term < (h.on nd).term := by
  rcases h.accesses_cases nd with ⟨-, hrole⟩ | ⟨as, hacc, has⟩ | hall
  · exact hrole
  · rw [hacc] at hm
    rcases mem_cons.1 hm with hm | hm
    · cases hm
    · obtain ⟨i, p, hat, -⟩ := has _ hm
      cases hat
  · rcases hall _ hm with ⟨i, p, hat, -⟩ | ⟨rsps, -, p, -, hat⟩ <;> cases hat

end Named

namespace Replicator

variable [DecidableEq N] [LogStorage N C L] {s : Replicator N C L} {e : ProgressEvent N C} {r : OpenRound N C}

lemma calm_refresh (hc : s.calm e) {peers : List N} {fresh : ℕ} (hm : .refresh peers fresh ∈ s.accesses e) :
    peers.take s.node.lastPeerIds.length = s.node.lastPeerIds.take peers.length ∧
      ∀ r ∈ s.rounds, r.currentTerm = s.node.term → ∀ q ∈ r.requests, q.idx < peers.length := by
  have hall := all_eq_true.1 hc _ hm
  simp only [Bool.and_eq_true, decide_eq_true_eq, all_eq_true, Bool.or_eq_true] at hall
  exact ⟨hall.1, fun r hr hterm => (hall.2 r hr).resolve_left (not_not.2 hterm)⟩

lemma mem_answered {answers : PeerReq N C → Option PeerRsp} {p : PeerReq N C × PeerRsp}
    (h : p ∈ r.answered answers) : p.1 ∈ r.requests := by
  obtain ⟨q, hq, hp⟩ := mem_filterMap.1 h
  obtain ⟨rsp, -, rfl⟩ := Option.map_eq_some_iff.1 hp
  exact hq

lemma Attached.right (h : s.Attached) (hc : s.calm e) : s.right e := by
  unfold Replicator.right
  cases hsec : s.section? e with
  | none => rw [accesses, hsec]; rfl
  | some hd =>
    have hacc : s.accesses e = hd.accesses s.node := by rw [accesses, hsec]; rfl
    rw [hacc]
    refine hd.along_right s.node s.owners h.slots ?_ ?_
    · intro peers fresh hm
      rw [← hacc] at hm
      exact (calm_refresh hc hm).1
    · rintro t rsps rfl hterm p hp
      cases e with
      | handler =>
        simp only [section?] at hsec
        split_ifs at hsec with hx
        cases hsec
        exact absurd rfl hx
      | begin | reorder => cases hsec
      | finish =>
        obtain ⟨r, hr, heq⟩ := Option.map_eq_some_iff.1 hsec
        cases heq
        exact h.named r (mem_of_getElem? hr) hterm.symm p.1 (mem_answered hp)

variable [LawfulLog N C L]

lemma ages_step (s : Replicator N C L) (e : ProgressEvent N C) : Ages s.node (s.step e).node := by
  unfold step
  cases s.section? e with
  | none =>
    cases e with
    | _ => exact .of_same (.of_view rfl)
  | some hd => exact hd.ages s.node

lemma mem_roundsAfter (h : r ∈ s.roundsAfter e) :
    r ∈ s.rounds ∨ (s.node.role = .leader ∧ (s.step e).node.role = .leader ∧ r.currentTerm = (s.step e).node.term ∧
      ∀ q ∈ r.requests, (s.step e).node.lastPeerIds[q.idx]? = some q.id) := by
  cases e with
  | handler | reorder => exact Or.inl h
  | finish => exact Or.inl (mem_of_mem_eraseIdx h)
  | begin =>
    have hnode : (s.step .begin).node = s.node.replicateStart.1 := rfl
    rw [hnode]
    simp only [roundsAfter] at h
    rcases replicateStart_spec s.node with he | ⟨hl, he, order, -, hreq⟩
    · rw [he] at h
      exact Or.inl h
    · rw [hreq] at h
      rcases mem_append.1 h with h | h
      · exact Or.inl h
      · rw [mem_singleton.1 h, he]
        refine Or.inr ⟨hl, hl, rfl, fun q hq => ?_⟩
        obtain ⟨i, -, hi⟩ := mem_filterMap.1 hq
        obtain ⟨id, hid, rfl⟩ := Option.map_eq_some_iff.1 hi
        obtain ⟨hqid, hqidx⟩ := buildPeerReq_id s.node.refreshPeers id i
        rw [hqid, hqidx]
        exact hid

lemma Attached.step (h : s.Attached) (hc : s.calm e) : (s.step e).Attached := by
  have hright := h.right hc
  have hages := ages_step s e
  have hslots : (s.step e).slots = Run.run Access.on s.slots (s.accesses e) := slots_step s e
  refine ⟨?_, ?_, ?_, ?_⟩
  · rw [hslots]
    exact Run.along_run Access.on (fun _ _ hi ha => hi.on ha) h.slots hright
  · intro r hr
    rcases mem_roundsAfter hr with hold | ⟨-, -, hterm, -⟩
    · exact (h.old r hold).trans hages.term
    · exact hterm.le
  · intro hrole r hr
    rcases mem_roundsAfter hr with hold | ⟨-, hl, -⟩
    · rcases hages.term.eq_or_lt with heq | hlt
      · rw [← heq]
        exact h.campaign (hages.candidate hrole heq.symm) r hold
      · exact (h.old r hold).trans_lt hlt
    · exact absurd (hl.symm.trans hrole) (by simp)
  · intro r hr hterm q hq
    rcases mem_roundsAfter hr with hold | ⟨-, -, -, hnamed⟩
    · -- the node is still in the round's term
      have hle := h.old r hold
      have hmono := hages.term
      have hsame : r.currentTerm = s.node.term := by omega
      have hids : (s.step e).node.lastPeerIds = (Run.run Access.on s.slots (s.accesses e)).arrays.ids := by
        rw [← hslots]
        rfl
      have hid := h.named r hold hsame q hq
      rw [hids]
      rcases ids_run (s.accesses e) s.slots with hkeep | ⟨fresh, hlead | hrefresh⟩
      · rw [hkeep]
        exact hid
      · -- it has not become leader in it
        cases hsec : s.section? e with
        | none =>
          rw [accesses, hsec] at hlead
          cases hlead
        | some hd =>
          have hacc : s.accesses e = hd.accesses s.node := by rw [accesses, hsec]; rfl
          have hon : (s.step e).node = hd.on s.node := by unfold Replicator.step; rw [hsec]; rfl
          rw [hacc] at hlead
          rcases hd.role_of_lead hlead with hcand | hlt
          · have := h.campaign hcand r hold
            omega
          · rw [← hon] at hlt
            omega
      · obtain ⟨hagree, hin⟩ := calm_refresh hc hrefresh
        set peers := (Run.run Access.on s.slots (s.accesses e)).arrays.ids
        have hlt : q.idx < s.node.lastPeerIds.length := (List.getElem?_eq_some_iff.1 hid).1
        have hlt' := hin r hold hsame q hq
        calc peers[q.idx]? = (peers.take s.node.lastPeerIds.length)[q.idx]? := by
              rw [getElem?_take, if_pos hlt]
          _ = (s.node.lastPeerIds.take peers.length)[q.idx]? := by rw [hagree]
          _ = s.node.lastPeerIds[q.idx]? := by rw [getElem?_take, if_pos hlt']
          _ = some q.id := hid
    · exact hnamed q hq

/-- **Peer progress stays attached to its peer.** -/
theorem progress_stays_attached (nd : RaftNode N C L) (hnd : nd.arrays = {}) (es : List (ProgressEvent N C))
    (hc : Run.along step calm { node := nd } es) : Run.along step Replicator.right { node := nd } es := by
  have hinit : Attached ({ node := nd } : Replicator N C L) := by
    refine ⟨⟨?_, ?_, ?_, ?_⟩, by simp, by simp, by simp⟩ <;> simp [slots, hnd]
  generalize ({ node := nd } : Replicator N C L) = s at hinit hc ⊢
  induction es generalizing s with
  | nil => rfl
  | cons _ _ ih =>
    obtain ⟨he, hes⟩ := Bool.and_eq_true_iff.1 hc
    exact Bool.and_eq_true_iff.2 ⟨hinit.right he, ih _ (hinit.step he) hes⟩

end Replicator

end MaxRedis.Raft

namespace MaxRedis.Raft.Replicator

def leadTwo : List (ProgressEvent (Fin 4) ℕ) :=
  [.handler .startElection, .handler (.finishElection ⟨1, 0, 0, 0⟩ ⟨2, 1⟩ [1] 1), .handler (.submitAppend (.client 7)),
    .begin, .finish 0 (fun q => if q.id = 1 then some ⟨true, 1, 1⟩ else none), .begin]

def leaderOfTwo : RaftNode (Fin 4) ℕ (CommandLog (Fin 4) ℕ) where
  nodeId := 0
  log := {}
  clusterConfig := { voters := ⟨[1, 2], by decide⟩ }

/-- node 3 joins at the end, and the round goes on -/
theorem progress_stays_attached_leadTwo :
    let es := leadTwo ++ [.handler (.addPeer 3), .begin, .finish 0 (fun _ => some ⟨true, 1, 1⟩)]
    (Run.run step { node := leaderOfTwo } es).node.arrays = ⟨[1, 2, 3], [2, 2, 2], [1, 1, 0]⟩ ∧
      Run.along step Replicator.right { node := leaderOfTwo } es :=
  ⟨by decide +kernel, progress_stays_attached leaderOfTwo rfl _ (by decide +kernel)⟩

/-- **A peer inherits the progress of one that was removed.** -/
theorem removed_peer_leaves_progress :
    let s := Run.run step { node := leaderOfTwo } (leadTwo ++ [.handler (.removePeer 1)])
    let s' := s.step .begin
    let late : ProgressEvent (Fin 4) ℕ := .finish 0 (fun q => if q.id = 2 then some ⟨true, 1, 1⟩ else none)
    s.right .begin = false ∧ s'.node.arrays = ⟨[2], [2], [1]⟩ ∧ s'.owners.lastLog = [1] ∧
      s'.right late = false ∧ .setLast 1 2 1 ∈ s'.accesses late ∧ s'.node.peerLastLogIndex.length = 1 := by
  decide +kernel

end MaxRedis.Raft.Replicator

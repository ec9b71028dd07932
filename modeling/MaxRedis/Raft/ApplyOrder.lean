/-
The order in which entries are applied.
-/
import MaxRedis.Raft.Handlers
import MaxRedis.Storage.Refinement

namespace MaxRedis.Raft

open LogStorage RaftNode Storage List

variable {N C L : Type}

/-! ## One call -/

namespace RaftNode

variable [LogStorage N C L] {w : List (LogEntry N C)} {P : L → Prop}

def handleBatch : RaftNode N C L → List (LogEntry N C) → List (LogEntry N C × ℕ)
  | _, [] => []
  | nd, e :: es => (e, nd.commitIndex) :: handleBatch (nd.applyEntry e) es

def handledLoop : ℕ → RaftNode N C L → List (LogEntry N C × ℕ)
  | 0, _ => []
  | fuel + 1, nd =>
    if nd.lastApplied < nd.commitIndex ∧ nd.lastApplied < lastIndex nd.log then
      let entries := getRange nd.log (nd.lastApplied + 1) (min applyBatchSize (nd.commitIndex - nd.lastApplied))
      if entries = [] then []
      else handleBatch nd entries ++ handledLoop fuel ((entries.foldl applyEntry nd).flushApplyProgress)
    else []

def handledEntries (nd : RaftNode N C L) : List (LogEntry N C × ℕ) := handledLoop (nd.commitIndex + 1) nd

lemma handleBatch_eq [LawfulLog N C L] (es : List (LogEntry N C)) (nd : RaftNode N C L) :
    handleBatch nd es = es.map (fun e => (e, nd.commitIndex)) := by
  induction es generalizing nd with
  | nil => rfl
  | cons e _ ih =>
    rw [handleBatch, ih, (applyEntry_applies nd e).commit]
    rfl

lemma map_index_stretch (hw : ∀ i e, w[i]? = some e → e.index = i + 1) {a b : ℕ}
    (hb : b ≤ w.length) : ((w.take b).drop a).map LogEntry.index = range' (a + 1) (b - a) := by
  apply ext_getElem
  · simp only [length_map, length_drop, length_take, length_range']
    omega
  · intro i h1 h2
    rw [length_range'] at h2
    have hidx := hw (a + i) w[a + i] (getElem?_eq_getElem (by omega))
    rw [getElem_map, getElem_drop, getElem_take, getElem_range']
    omega

lemma handledLoop_eq [LawfulLog N C L] {b : ℕ} (hs : Serves P b w)
    (fuel : ℕ) (nd : RaftNode N C L) (p : P nd.log) (hb : b ≤ nd.lastApplied)
    (hf : min nd.commitIndex w.length ≤ nd.lastApplied + fuel) : (handledLoop fuel nd).map (fun x => x.1.index) =
        range' (nd.lastApplied + 1) (min nd.commitIndex w.length - nd.lastApplied) ∧
      ∀ x ∈ handledLoop fuel nd, x.1.index ≤ x.2 := by
  induction fuel generalizing nd with
  | zero =>
    have hz : min nd.commitIndex w.length - nd.lastApplied = 0 := by omega
    rw [hz]
    exact ⟨rfl, by simp [handledLoop]⟩
  | succ _ ih =>
    simp only [handledLoop]
    rw [hs.last _ p]
    split_ifs with hlt hnil
    · -- a range that starts inside the log is not empty
      obtain ⟨m, -, -, hr, hl⟩ := applyBatch_eq hs nd p hb hlt.1 hlt.2
      rw [← hr, hnil] at hl
      simp at hl
    · obtain ⟨m, h1, h2, hr, hl⟩ := applyBatch_eq hs nd p hb hlt.1 hlt.2
      rw [hr, handleBatch_eq]
      set es := (w.take m).drop nd.lastApplied with hes
      obtain ⟨hnext, ha, hcommit⟩ := applyBatch_next hs nd p hl
      obtain ⟨hrest, hle⟩ := ih _ hnext (by rw [ha]; omega) (by rw [ha]; omega)
      rw [ha] at hrest
      have hfirst : (es.map (fun e => (e, nd.commitIndex))).map (fun x => x.1.index) =
          range' (nd.lastApplied + 1) (m - nd.lastApplied) := by
        rw [map_map]
        exact map_index_stretch hs.index (by omega)
      constructor
      · rw [map_append, hfirst, hrest, show m + 1 = nd.lastApplied + 1 + 1 * (m - nd.lastApplied) by omega,
          range'_append]
        congr 1; omega
      · intro x hx
        rcases mem_append.1 hx with hx | hx
        · obtain ⟨e, he, rfl⟩ := mem_map.1 hx
          have hidx : e.index ∈ range' (nd.lastApplied + 1) (m - nd.lastApplied) := by
            rw [← map_index_stretch hs.index (show m ≤ w.length by omega)]
            exact mem_map_of_mem he
          rw [mem_range'_1] at hidx
          dsimp only
          omega
        · exact hle x hx
    · have hz : min nd.commitIndex w.length - nd.lastApplied = 0 := by omega
      rw [hz]
      exact ⟨rfl, by simp⟩

lemma applyLoop_fuel [LawfulLog N C L] {b : ℕ} (hs : Serves P b w)
    (fuel : ℕ) (nd : RaftNode N C L) (p : P nd.log) (hb : b ≤ nd.lastApplied)
    (hf : min nd.commitIndex w.length ≤ nd.lastApplied + fuel) (more : ℕ) :
    applyLoop (fuel + more) nd = applyLoop fuel nd := by
  induction fuel generalizing nd with
  | zero =>
    cases more with
    | zero => rfl
    | succ =>
      simp only [applyLoop]
      rw [hs.last _ p, if_neg (by omega)]
  | succ _ ih =>
    rw [Nat.add_right_comm]
    simp only [applyLoop]
    rw [hs.last _ p]
    split_ifs with hlt hnil
    · rfl
    · obtain ⟨m, h1, h2, hr, hl⟩ := applyBatch_eq hs nd p hb hlt.1 hlt.2
      rw [hr]
      obtain ⟨hnext, ha, hcommit⟩ := applyBatch_next hs nd p hl
      exact ih _ hnext (by rw [ha]; omega) (by rw [ha]; omega)
    · rfl

end RaftNode

/-! ## Where handlers make the call -/

inductive Edit [LogStorage N C L] : L → L → Prop where
  | append (l : L) (e : LogEntry N C) (flush : Bool) : Edit l (LogStorage.append l e flush)
  | truncate (l : L) (i : ℕ) (hi : i ≤ lastIndex l) : Edit l (truncateFrom l i)
  | persist (l : L) : Edit l (LogStorage.persist l)

abbrev Edits [LogStorage N C L] (l l' : L) : Prop := Relation.ReflTransGen Edit l l'

section
variable [LogStorage N C L]

lemma appendLoop_edits (es : List (LogEntry N C)) (l : L) : Edits l (appendLoop l es).1 := by
  induction es generalizing l with
  | nil => exact .refl
  | cons e _ ih =>
    simp only [appendLoop]
    split_ifs with h1 h2 h3
    · exact ih l
    · have hcut : Edits l (truncateFrom l (e.index - 1)) := .single (.truncate l _ (by omega))
      exact (hcut.tail (.append _ e true)).trans (ih _)
    · exact (Relation.ReflTransGen.single (.append l e true)).trans (ih _)
    · exact .refl

lemma truncateTail_edits (l : L) (es : List (LogEntry N C)) : Edits l (truncateTail l es) := by
  unfold truncateTail
  split
  · exact .refl
  · split_ifs with h
    · exact .single (.truncate l _ h.le)
    · exact .refl

structure Prepares (nd nd' : RaftNode N C L) : Prop where
  log : Edits nd.log nd'.log
  applied : nd'.lastApplied = nd.lastApplied

lemma Prepares.refl (nd : RaftNode N C L) : Prepares nd nd := ⟨.refl, rfl⟩

lemma Prepares.trans {a b c : RaftNode N C L} (h : Prepares a b) (k : Prepares b c) : Prepares a c :=
  ⟨h.log.trans k.log, k.applied.trans h.applied⟩

lemma Prepares.of_data {nd nd' : RaftNode N C L} (h : SameData nd nd') : Prepares nd nd' :=
  ⟨by rw [h.log], h.applied⟩

def Splits (nd nd' : RaftNode N C L) : Option (RaftNode N C L) → Prop
  | none => Prepares nd nd'
  | some mid => Prepares nd mid ∧ nd' = mid.applyCommittedLogsLocked

end

namespace RaftNode

variable [LogStorage N C L]

def appendEntriesCall (nd : RaftNode N C L) (req : AppendEntriesRequest N C) : Option (RaftNode N C L) :=
  if req.term < nd.term then none
  else
    let nd := if nd.term < req.term then nd.becomeFollowerLocked req.term else nd
    if lastIndex nd.log < req.prevLogIndex then none
    else if 0 < req.prevLogIndex ∧ getTerm nd.log req.prevLogIndex ≠ req.prevLogTerm then none
    else
      match appendLoop nd.log (req.entries.take maxAppendBatch) with
      | (_, true) => none
      | (log, false) =>
        let log := truncateTail log req.entries
        if nd.commitIndex < req.leaderCommit then
          some { nd with log := log, commitIndex := min req.leaderCommit (lastIndex log) }
        else none

variable (nd : RaftNode N C L)

lemma onAppendEntries_splits (req : AppendEntriesRequest N C) :
    Splits nd (nd.onAppendEntries req).1 (nd.appendEntriesCall req) := by
  unfold onAppendEntries appendEntriesCall
  by_cases h1 : req.term < nd.term
  · rw [if_pos h1, if_pos h1]
    exact .refl nd
  rw [if_neg h1, if_neg h1]
  have hobs : Prepares nd (nd.observe req.term) := .of_data (observe_data nd req.term)
  unfold observe at hobs
  generalize (if nd.term < req.term then nd.becomeFollowerLocked req.term else nd) = mid at hobs ⊢
  by_cases h2 : lastIndex mid.log < req.prevLogIndex
  · rw [if_pos h2, if_pos h2]
    exact hobs
  by_cases h3 : 0 < req.prevLogIndex ∧ getTerm mid.log req.prevLogIndex ≠ req.prevLogTerm
  · rw [if_neg h2, if_neg h2, if_pos h3, if_pos h3]
    exact hobs
  rw [if_neg h2, if_neg h2, if_neg h3, if_neg h3]
  have hloop := appendLoop_edits (req.entries.take maxAppendBatch) mid.log
  rcases happ : appendLoop mid.log (req.entries.take maxAppendBatch) with ⟨log, gap⟩
  rw [happ] at hloop
  cases gap with
  | true => exact hobs.trans ⟨hloop, rfl⟩
  | false =>
    have hcut : Edits mid.log (truncateTail log req.entries) := hloop.trans (truncateTail_edits log req.entries)
    dsimp only [commitFromLeader]
    split_ifs
    · exact ⟨hobs.trans ⟨hcut, rfl⟩, rfl⟩
    · exact hobs.trans ⟨hcut, rfl⟩

def heartbeatCall (nd : RaftNode N C L) (req : HeartbeatRequest N) : Option (RaftNode N C L) :=
  if req.term < nd.term then none
  else if nd.term < req.term ∨ nd.role ≠ .leader then
    let nd := nd.becomeFollowerLocked req.term
    if nd.commitIndex < req.leaderCommit ∧ req.leaderCommit ≤ lastIndex nd.log then
      some { nd with commitIndex := req.leaderCommit }
    else none
  else none

lemma onHeartbeat_splits (req : HeartbeatRequest N) : Splits nd (nd.onHeartbeat req).1 (nd.heartbeatCall req) := by
  have hobs : Prepares nd (nd.becomeFollowerLocked req.term) := .of_data (becomeFollowerLocked_data nd req.term)
  unfold onHeartbeat heartbeatCall
  split_ifs
  · exact .refl nd
  · dsimp only
    split_ifs
    · exact ⟨hobs.trans ⟨.refl, rfl⟩, rfl⟩
    · exact hobs
  · exact .refl nd

variable [DecidableEq N]

lemma advanceCommitIndexLocked_prepares : Prepares nd nd.advanceCommitIndexLocked := by
  obtain ⟨c, h⟩ := advanceCommitIndexLocked_eq nd
  rw [h]
  exact ⟨.refl, rfl⟩

lemma finalize_prepares : Prepares nd nd.advanceCommitIndexLocked.maybeAutoFinalizeJointLocked := by
  refine (advanceCommitIndexLocked_prepares nd).trans ?_
  rcases maybeAutoFinalizeJointLocked_spec nd.advanceCommitIndexLocked with h | ⟨-, h⟩
  · rw [h]; exact .refl _
  · rw [h]; exact ⟨.single (.append _ _ _), rfl⟩

def aloneCall (nd : RaftNode N C L) : Option (RaftNode N C L) :=
  if nd.role ≠ .leader then none else some nd.advanceCommitIndexLocked.maybeAutoFinalizeJointLocked

lemma replicateAlone_splits : Splits nd nd.replicateAlone nd.aloneCall := by
  unfold replicateAlone aloneCall
  split_ifs
  · exact .refl nd
  · exact ⟨finalize_prepares nd, rfl⟩

def replicateCall (nd : RaftNode N C L) (currentTerm : ℕ) (rsps : List (PeerReq N C × PeerRsp)) :
    Option (RaftNode N C L) :=
  if nd.term < rsps.foldl (fun t p => max t p.2.term) currentTerm then none
  else if nd.role ≠ .leader ∨ nd.term ≠ currentTerm then none
  else some (rsps.foldl recordPeerRsp nd).advanceCommitIndexLocked.maybeAutoFinalizeJointLocked

lemma replicateFinish_splits (currentTerm : ℕ) (rsps : List (PeerReq N C × PeerRsp)) :
    Splits nd (nd.replicateFinish currentTerm rsps).1 (nd.replicateCall currentTerm rsps) := by
  unfold replicateFinish replicateCall
  dsimp only
  split_ifs
  · exact .of_data (becomeFollowerLocked_data nd _)
  · exact .refl nd
  · exact ⟨(Prepares.of_data (foldl_recordPeerRsp_only rsps nd).data).trans (finalize_prepares _), rfl⟩

def replayCall (nd : RaftNode N C L) : Option (RaftNode N C L) :=
  if lastIndex nd.log ≤ nd.lastApplied then none
  else if nd.role ≠ .leader ∧ nd.getPeerIdsLocked ≠ [] then none
  else some { nd with commitIndex := lastIndex nd.log }

lemma replayUnappliedLogs_splits : Splits nd nd.replayUnappliedLogs nd.replayCall := by
  unfold replayUnappliedLogs replayCall
  dsimp only
  split_ifs
  · exact .refl nd
  · exact .refl nd
  · exact ⟨⟨.refl, rfl⟩, rfl⟩

lemma heartbeatFinish_prepares (isLoop : Bool) (epoch ackCount : ℕ) (rspLastLog : List (N × ℕ)) (maxPeerTerm : ℕ) :
    Prepares nd (nd.heartbeatFinish isLoop epoch ackCount rspLastLog maxPeerTerm).1 := by
  rcases heartbeatFinish_spec nd isLoop epoch ackCount rspLastLog maxPeerTerm with h | ⟨-, h⟩ | ⟨-, -, h⟩
  · rw [h]; exact .refl nd
  · rw [h]; exact .of_data (becomeFollowerLocked_data nd _)
  · exact ((Prepares.of_data (recordHeartbeatAcks_only nd rspLastLog).data).trans
      (advanceCommitIndexLocked_prepares _)).trans (.of_data h.data)

lemma beginConfigChange_prepares (target : ClusterConfig N) : Prepares nd (nd.beginConfigChange target).1 := by
  unfold beginConfigChange
  split_ifs
  · exact .refl nd
  · split
    · dsimp only
      split_ifs
      · exact .refl nd
      · exact ⟨.single (.append _ _ _), rfl⟩
    · exact ⟨.single (.append _ _ _), rfl⟩

end RaftNode

namespace Handler

variable [DecidableEq N] [LogStorage N C L]

def call (nd : RaftNode N C L) : Handler N C → Option (RaftNode N C L)
  | .onAppendEntries req => nd.appendEntriesCall req
  | .onHeartbeat req => nd.heartbeatCall req
  | .replicateAlone => nd.aloneCall
  | .replicateFinish currentTerm rsps => nd.replicateCall currentTerm rsps
  | .applyCommittedLogs => some nd
  | .replayUnappliedLogs => nd.replayCall
  | _ => none

lemma splits (nd : RaftNode N C L) (h : Handler N C) (hs : h.snapshots = false) : Splits nd (h.on nd) (h.call nd) := by
  cases h with
  | onHeartbeat req => exact onHeartbeat_splits nd req
  | onAppendEntries req => exact onAppendEntries_splits nd req
  | onInstallSnapshot => cases hs
  | heartbeatFinish => exact heartbeatFinish_prepares nd _ _ _ _ _
  | replicateAlone => exact replicateAlone_splits nd
  | replicateFinish currentTerm rsps => exact replicateFinish_splits nd currentTerm rsps
  | submitAppend command =>
    show Prepares nd (nd.submitAppend command).1
    rcases submitAppend_spec nd command with he | ⟨-, he⟩
    · rw [he]; exact .refl nd
    · rw [he]; exact ⟨.single (.append _ _ _), rfl⟩
  | persist => exact ⟨.single (.persist _), rfl⟩
  | applyCommittedLogs => exact ⟨.refl nd, rfl⟩
  | replayUnappliedLogs => exact replayUnappliedLogs_splits nd
  | beginConfigChange target => exact beginConfigChange_prepares nd target
  | addPeer | removePeer | setClusterConfig => exact Prepares.mk .refl rfl
  | createSnapshotIfNeeded => cases hs
  | shutDown | tick => exact Prepares.mk .refl rfl
  | _ => exact Prepares.of_data (Handler.keepsData_spec nd _ rfl).1

def calls : RaftNode N C L → List (Handler N C) → List (RaftNode N C L)
  | _, [] => []
  | nd, h :: hs => (h.call nd).toList ++ calls (h.on nd) hs

def handled (nd : RaftNode N C L) (hs : List (Handler N C)) : List (LogEntry N C × ℕ) :=
  (calls nd hs).flatMap handledEntries

structure InOrder (nd : RaftNode N C L) (hs : List (Handler N C)) : Prop where
  grows : nd.lastApplied ≤ (run nd hs).lastApplied
  consecutive : (handled nd hs).map (fun x => x.1.index) =
    List.range' (nd.lastApplied + 1) ((run nd hs).lastApplied - nd.lastApplied)
  committed : ∀ x ∈ handled nd hs, x.1.index ≤ x.2
  ends : ∀ x ∈ calls nd hs, x.applyCommittedLogsLocked.lastApplied =
    max x.lastApplied (min x.applyCommittedLogsLocked.commitIndex (lastIndex x.applyCommittedLogsLocked.log))
  terminates : ∀ x ∈ calls nd hs, ∀ more, applyLoop (x.commitIndex + 1 + more) x = x.applyCommittedLogsLocked

end Handler

/-! ## Numbered logs -/

structure Sequential [LogStorage N C L] (Rep : L → BaseLog (LogEntry N C) → Prop) : Prop extends LogReading Rep where
  numbered : ∀ {l a}, Rep l a → a.Numbered LogEntry.index
  truncate : ∀ {l a i}, Rep l a → i ≤ LogStorage.lastIndex l → ∃ a', a'.base ≤ a.base ∧ Rep (truncateFrom l i) a'

section Numbered
variable [LogStorage N C L] {Rep : L → BaseLog (LogEntry N C) → Prop}

lemma Sequential.edits (hrep : Sequential Rep) {l l' : L} {a : BaseLog (LogEntry N C)} (h : Rep l a)
    (he : Edits l l') : ∃ a', a'.base ≤ a.base ∧ Rep l' a' := by
  induction he with
  | refl => exact ⟨a, le_rfl, h⟩
  | tail _ hlast ih =>
    obtain ⟨a', hbase, hrep'⟩ := ih
    cases hlast with
    | append e flush => exact ⟨a'.append (fun i => { e with index := i }), hbase, hrep.append e flush hrep'⟩
    | truncate _ hi =>
      obtain ⟨a'', hbase', hrep''⟩ := hrep.truncate hrep' hi
      exact ⟨a'', hbase'.trans hbase, hrep''⟩
    | persist => exact ⟨a', hbase, hrep.persist hrep'⟩

def ReadyToApply (Rep : L → BaseLog (LogEntry N C) → Prop) (nd : RaftNode N C L) : Prop :=
  ∃ a, Rep nd.log a ∧ a.base ≤ nd.lastApplied

lemma ReadyToApply.prepares (hrep : Sequential Rep) {nd nd' : RaftNode N C L} (h : ReadyToApply Rep nd)
    (hp : Prepares nd nd') : ReadyToApply Rep nd' := by
  obtain ⟨a, hl, hb⟩ := h
  obtain ⟨a', hb', hl'⟩ := hrep.edits hl hp.log
  exact ⟨a', hl', by rw [hp.applied]; exact hb'.trans hb⟩

variable [LawfulLog N C L]

theorem handledEntries_eq (hrep : Sequential Rep) {nd : RaftNode N C L} (h : ReadyToApply Rep nd) :
    let nd' := nd.applyCommittedLogsLocked
    nd'.lastApplied = max nd.lastApplied (min nd'.commitIndex (lastIndex nd'.log)) ∧
    nd.handledEntries.map (fun x => x.1.index) = range' (nd.lastApplied + 1) (nd'.lastApplied - nd.lastApplied) ∧
    (∀ x ∈ nd.handledEntries, x.1.index ≤ x.2) ∧
    (∀ more, applyLoop (nd.commitIndex + 1 + more) nd = nd') ∧ ReadyToApply Rep nd' := by
  intro nd'
  obtain ⟨a, hl, hb⟩ := h
  have hs := hrep.toLogReading.serves hl
  obtain ⟨hlog, hla, -⟩ := applyLoop_eq hs (nd.commitIndex + 1) nd hl hb (by omega)
  obtain ⟨hidx, hle⟩ := handledLoop_eq hs (nd.commitIndex + 1) nd hl hb (by omega)
  change nd'.lastApplied = _ at hla
  have hcommit : nd'.commitIndex = nd.commitIndex := (applyCommittedLogsLocked_applies nd).commit
  have hlast : lastIndex nd'.log = (padded a).length := hs.last _ hlog
  refine ⟨by rw [hcommit, hlast]; exact hla, ?_, hle, fun more => ?_, a, hlog, by rw [hla]; omega⟩
  · rw [handledEntries, hidx]
    congr 1; omega
  · exact applyLoop_fuel hs _ nd hl hb (by omega) more

variable [DecidableEq N]

theorem Handler.inOrder (hrep : Sequential Rep) (hs : List (Handler N C)) (hsnap : ∀ h ∈ hs, h.snapshots = false)
    (nd : RaftNode N C L) (h : ReadyToApply Rep nd) : Handler.InOrder nd hs := by
  induction hs generalizing nd with
  | nil => exact ⟨le_rfl, by simp [handled, calls, run], by simp [handled, calls], by simp [calls], by simp [calls]⟩
  | cons x hs ih =>
    have hsplit := x.splits nd (hsnap x (by simp))
    have hrest := fun nd' (h' : ReadyToApply Rep nd') => ih (fun y hy => hsnap y (mem_cons_of_mem x hy)) nd' h'
    cases hc : x.call nd with
    | none =>
      rw [hc] at hsplit
      have hin := hrest (x.on nd) (h.prepares hrep hsplit)
      have hcalls : calls nd (x :: hs) = calls (x.on nd) hs := by rw [calls, hc]; rfl
      have happ : (x.on nd).lastApplied = nd.lastApplied := hsplit.applied
      have hhand : handled nd (x :: hs) = handled (x.on nd) hs := by unfold handled; rw [hcalls]
      refine ⟨?_, ?_, ?_, ?_, ?_⟩
      · rw [← happ]; exact hin.grows
      · rw [hhand, ← happ]; exact hin.consecutive
      · rw [hhand]; exact hin.committed
      · rw [hcalls]; exact hin.ends
      · rw [hcalls]; exact hin.terminates
    | some mid =>
      rw [hc] at hsplit
      obtain ⟨hprep, hon⟩ := hsplit
      obtain ⟨hends, hidx, hle, hmore, hready⟩ := handledEntries_eq hrep (h.prepares hrep hprep)
      rw [← hon] at hready
      have hin := hrest (x.on nd) hready
      have hcalls : calls nd (x :: hs) = mid :: calls (x.on nd) hs := by rw [calls, hc]; rfl
      have hhand : handled nd (x :: hs) = mid.handledEntries ++ handled (x.on nd) hs := by
        unfold handled
        rw [hcalls]
        rfl
      have hstart : mid.lastApplied = nd.lastApplied := hprep.applied
      have hstep : mid.lastApplied ≤ (x.on nd).lastApplied := by rw [hon, hends]; exact le_max_left _ _
      have hrun : run nd (x :: hs) = run (x.on nd) hs := rfl
      have hgrows := hin.grows
      refine ⟨?_, ?_, ?_, ?_, ?_⟩
      · rw [hrun]; omega
      · rw [hhand, map_append, hidx, hin.consecutive, ← hon, hrun, hstart,
          show (x.on nd).lastApplied + 1 = nd.lastApplied + 1 + 1 * ((x.on nd).lastApplied - nd.lastApplied) by omega,
          range'_append]
        congr 1; omega
      · intro y hy
        rw [hhand] at hy
        rcases mem_append.1 hy with hy | hy
        · exact hle y hy
        · exact hin.committed y hy
      · intro y hy
        rw [hcalls] at hy
        rcases mem_cons.1 hy with rfl | hy
        · exact hends
        · exact hin.ends y hy
      · intro y hy
        rw [hcalls] at hy
        rcases mem_cons.1 hy with rfl | hy
        · exact hmore
        · exact hin.terminates y hy

end Numbered

/-! ## The two storages -/

section Storages

lemma commandLog_sequential :
    Sequential (fun (l : CommandLog N C) (a : BaseLog (LogEntry N C)) => CommandLogRep l a ∧ a.base = 0) where
  refines h := h.1.refines
  append e flush h := ⟨h.1.append e flush, h.2⟩
  persist h := ⟨commandLog_reading.persist h.1, h.2⟩
  flush h := ⟨commandLog_reading.flush h.1, h.2⟩
  get_persist := commandLog_reading.get_persist
  getTerm_persist := commandLog_reading.getTerm_persist
  first _ _ h _ hpos := absurd h.2 hpos.ne'
  numbered h := h.1.numbered
  truncate {_ a i} h _ := ⟨a.truncate i, le_rfl, h.1.truncateFrom (Or.inl h.2), h.2⟩

variable [CommandText N C]

lemma segmentLog_sequential : Sequential (SegmentLogRep (N := N) (C := C)) where
  toLogReading := segmentLog_reading
  numbered h := h.numbered
  truncate {l a i} h hi := by
    rw [h.refines.lastIndex] at hi
    by_cases hcut : a.base = 0 ∨ a.base < i
    · exact ⟨a.truncate i, le_rfl, h.truncateFrom (by omega) hi hcut⟩
    · -- a cut at or below the compaction point clears the log
      refine ⟨{}, Nat.zero_le _, ?_⟩
      show SegmentLogRep (l.truncateFrom i) {}
      rw [SegmentLog.truncateFrom, if_pos (by rw [h.base]; omega)]
      exact SegmentLogRep.clear l

variable [DecidableEq N]

/-- **Entries are applied in order, once, and only when committed.** -/
theorem applied_in_order (hs : List (Handler N C)) (hsnap : ∀ h ∈ hs, h.snapshots = false) :
    (∀ nd : RaftNode N C (CommandLog N C), (∃ a, CommandLogRep nd.log a ∧ a.base = 0) → Handler.InOrder nd hs) ∧
    (∀ nd : RaftNode N C (SegmentLog (LogEntry N C)), (∃ a, SegmentLogRep nd.log a ∧ a.base ≤ nd.lastApplied) →
      Handler.InOrder nd hs) := by
  constructor
  · rintro nd ⟨a, hrep, hbase⟩
    exact Handler.inOrder commandLog_sequential hs hsnap nd ⟨a, ⟨hrep, hbase⟩, by omega⟩
  · intro nd hready
    exact Handler.inOrder segmentLog_sequential hs hsnap nd hready

end Storages

def twoWrites : List (Handler Unit Unit) :=
  [.bootstrapSingleNode, .submitAppend (.client ()), .submitAppend (.client ()), .persist, .replicateStart,
    .replicateAlone, .applyCommittedLogs]

theorem applied_in_order_twoWrites :
    let nd : RaftNode Unit Unit (CommandLog Unit Unit) := { nodeId := (), log := {} }
    (Handler.handled nd twoWrites).length = 2 ∧ (Handler.handled nd twoWrites).map (fun x => x.1.index) = [1, 2] := by
  intro nd
  have hmain := (applied_in_order twoWrites (by decide)).1 nd
    ⟨{}, ⟨rfl, rfl, fun h => absurd h (lt_irrefl 0), le_rfl, nofun⟩, rfl⟩
  exact ⟨by decide +kernel, hmain.consecutive.trans (by decide +kernel)⟩

/-- **A lost record is skipped.** -/
theorem hole_skips_entry :
    let dir : WalDir := [(1, ⟨record (⟨1, 1, .client ()⟩ : LogEntry Unit Unit), 0⟩),
      (3, ⟨record (⟨1, 3, .client ()⟩ : LogEntry Unit Unit), 0⟩)]
    let start : RaftNode Unit Unit (SegmentLog (LogEntry Unit Unit)) :=
      { nodeId := (), log := SegmentLog.openDir dir, transport := false }
    let nd := (start.setStoragePath {}).resetApplyProgress 0
    (Handler.handled nd [.replayUnappliedLogs]).map (fun x => x.1.index) = [1, 3] := by
  decide +kernel

end MaxRedis.Raft

/-
Writes of a healthy cluster.

A leader is `Healthy` when its configuration is stable, its peers hold its log up to the last index and its term, their
next index is the one after, and no other write is under way.
-/
import MaxRedis.Raft.Submission
import MaxRedis.Storage.Refinement

namespace MaxRedis.Raft

open LogStorage LawfulLog RaftNode Storage List Function

variable {N C L : Type}

/-! ## Counting -/

lemma length_le_filter {l is : List ℕ} {x : ℕ} (hn : is.Nodup) (h : ∀ i ∈ is, ∃ v, l[i]? = some v ∧ x ≤ v) :
    is.length ≤ (l.filter (x ≤ ·)).length := by
  set places := (range l.length).filter (fun i => decide (x ≤ (l[i]?).getD 0)) with hp
  have hsub : is ⊆ places := by
    intro i hi
    obtain ⟨v, hv, hle⟩ := h i hi
    rw [mem_filter, mem_range]
    exact ⟨(List.getElem?_eq_some_iff.1 hv).1, by rw [hv]; exact decide_eq_true hle⟩
  have hmap : l = (range l.length).map (fun i => (l[i]?).getD 0) := by
    refine ext_getElem (by simp) (fun i h1 h2 => ?_)
    simp [h1]
  calc is.length ≤ places.length := (subperm_of_subset hn hsub).length_le
    _ = (((range l.length).map (fun i => (l[i]?).getD 0)).filter (x ≤ ·)).length := by
        rw [filter_map, length_map]; rfl
    _ = (l.filter (x ≤ ·)).length := by rw [← hmap]

/-! ## The leader -/

namespace RaftNode

section Leader
variable [DecidableEq N] [LogStorage N C L] [LawfulLog N C L] {Rep : L → BaseLog (LogEntry N C) → Prop}
variable {nd : RaftNode N C L} {a : BaseLog (LogEntry N C)}

/-- a leader in a stable configuration with the log `a`, whose last entry `e` is of its term and not applied; what has
been compacted has been applied -/
structure Pending (Rep : L → BaseLog (LogEntry N C) → Prop) (a : BaseLog (LogEntry N C)) (e : LogEntry N C)
    (nd : RaftNode N C L) : Prop where
  log : Rep nd.log a
  leader : nd.role = .leader
  stable : nd.configState = .stable
  base : a.base ≤ nd.lastApplied
  waits : nd.lastApplied < a.lastIndex
  term : getTerm nd.log a.lastIndex = nd.term
  last : a.get a.lastIndex = some e

variable {e : LogEntry N C} {l : L} (x currentTerm : ℕ)

lemma Pending.of_only {nd' : RaftNode N C L} (h : Pending Rep a e nd) (ho : OnlyPeers nd nd') :
    Pending Rep a e nd' where
  log := by rw [ho.data.log]; exact h.log
  leader := by rw [ho.same.role]; exact h.leader
  stable := by rw [ho.data.state]; exact h.stable
  base := by rw [ho.data.applied]; exact h.base
  waits := by rw [ho.data.applied]; exact h.waits
  term := by rw [ho.data.log, ho.same.term]; exact h.term
  last := h.last

/-- the entry `e`, the last one of the log `a`, is committed and applied -/
structure Written (Rep : L → BaseLog (LogEntry N C) → Prop) (a : BaseLog (LogEntry N C)) (e : LogEntry N C)
    (nd : RaftNode N C L) : Prop where
  commit : a.lastIndex ≤ nd.commitIndex
  applied : nd.lastApplied = a.lastIndex
  log : Rep nd.log a
  passed : isClient e → e ∈ nd.stateMachine

section
variable (hlog : LogReading Rep)
include hlog

lemma Written.apply (h : Written Rep a e nd) : nd.applyCommittedLogsLocked = nd := by
  unfold applyCommittedLogsLocked applyLoop
  rw [if_neg]
  rw [(hlog.refines h.log).lastIndex, h.applied]
  omega

lemma advanceCommitIndexLocked_reaches (h : Pending Rep a e nd)
    (hcount : (nd.clusterConfig.voters.ids.length + 1) / 2 + 1 ≤
      ((lastIndex nd.log :: nd.peerLastLogIndex).filter (a.lastIndex ≤ ·)).length) :
    ∃ c, a.lastIndex ≤ c ∧ nd.advanceCommitIndexLocked = { nd with commitIndex := c } := by
  obtain ⟨c, hc, hle⟩ := le_kthLargest hcount
  have hb := lt_of_le_of_lt h.base h.waits
  have heq : nd.advanceCommitIndexLocked = nd.commitTo c := by simp only [advanceCommitIndexLocked, h.stable, hc]
  rw [heq]
  unfold commitTo
  dsimp only
  -- an index past the log has no term, so the Figure 8 rule never applies
  have hfig : ¬ (getTerm nd.log c ≠ 0 ∧ getTerm nd.log c < nd.term) := by
    rcases hle.eq_or_lt with rfl | hlt
    · rw [h.term]; omega
    · rw [(hlog.refines h.log).getTerm c (by omega), BaseLog.get_eq_none hlt]
      simp
  split_ifs with h1
  · exact ⟨c, hle, rfl⟩
  · exact ⟨nd.commitIndex, by omega, rfl⟩

lemma commitAndApply_reaches (h : Pending Rep a e nd) (hcount : (nd.clusterConfig.voters.ids.length + 1) / 2 + 1 ≤
      ((lastIndex nd.log :: nd.peerLastLogIndex).filter (a.lastIndex ≤ ·)).length) :
    Written Rep a e nd.advanceCommitIndexLocked.maybeAutoFinalizeJointLocked.applyCommittedLogsLocked := by
  obtain ⟨c, hc, heq⟩ := advanceCommitIndexLocked_reaches hlog h hcount
  have hnd : nd.advanceCommitIndexLocked.maybeAutoFinalizeJointLocked.applyCommittedLogsLocked =
      applyLoop (c + 1) { nd with commitIndex := c } := by
    rw [commitAndApply_stable nd h.stable, heq]
    rfl
  have hb := h.base
  have hlt := h.waits
  have happ := applyLoop_applies (c + 1) { nd with commitIndex := c }
  obtain ⟨h1, h2, h3⟩ := applyLoop_eq (hlog.serves h.log) (c + 1) { nd with commitIndex := c } h.log h.base
    (by rw [length_padded]; show min c a.lastIndex ≤ nd.lastApplied + (c + 1); omega)
  have hmax : max nd.lastApplied (min c a.lastIndex) = a.lastIndex := by omega
  rw [length_padded] at h2 h3
  dsimp only at h2 h3
  rw [hmax] at h2 h3
  rw [hnd]
  refine ⟨by rw [happ.commit]; exact hc, h2, h1, fun hclient => ?_⟩
  rw [h3]
  refine mem_append_right _ (mem_filter.2 ⟨?_, hclient⟩)
  rw [take_of_length_le (length_padded a).le]
  have hplace : (padded a)[a.lastIndex - 1]? = some e := by
    rw [getElem?_padded (by omega), Nat.sub_add_cancel (by omega), h.last]
  refine mem_of_getElem? (i := a.lastIndex - 1 - nd.lastApplied) ?_
  rw [getElem?_drop, ← hplace]
  congr 1
  omega

/-! ### The peers -/

lemma onAppendEntries_accepts (hrep : Rep nd.log a) {prevTerm : ℕ}
    (hprev : 0 < a.lastIndex → getTerm nd.log a.lastIndex = prevTerm)
    (he : e.index = a.lastIndex + 1) (leader : N) (commit : ℕ) :
    (nd.onAppendEntries ⟨nd.term, leader, a.lastIndex, prevTerm, [e], commit⟩).2.success = true ∧
    (nd.onAppendEntries ⟨nd.term, leader, a.lastIndex, prevTerm, [e], commit⟩).2.term = nd.term := by
  have hlast : lastIndex nd.log = a.lastIndex := (hlog.refines hrep).lastIndex
  have hloop : appendLoop nd.log ([e].take maxAppendBatch) = (append nd.log e true, false) := by
    show appendLoop nd.log [e] = _
    simp only [appendLoop]
    rw [hlast, he, if_neg (by omega), if_pos rfl]
  have hcommit : ∀ m : RaftNode N C L, (m.commitFromLeader commit).term = m.term := by
    intro m
    unfold commitFromLeader
    split_ifs
    · exact (applyCommittedLogsLocked_applies _).same.term
    · rfl
  unfold onAppendEntries
  dsimp only
  rw [if_neg (lt_irrefl _), if_neg (lt_irrefl _), hlast, if_neg (lt_irrefl _), if_neg (fun h => h.2 (hprev h.1)), hloop]
  exact ⟨rfl, hcommit _⟩

end

/-! ### The requests -/

structure Ready (a : BaseLog (LogEntry N C)) (prevTerm : ℕ) (e : LogEntry N C) (p : PeerReq N C) : Prop where
  append : p.needSnapshot = false
  prev : p.prev.index = a.lastIndex
  term : 0 < a.lastIndex → p.prev.term = prevTerm
  entries : p.entries = [e]

lemma prev_reading (hlog : LogReading Rep) (h : Rep l a) (e : LogEntry N C) (flush : Bool) (hpos : 0 < a.lastIndex) :
    let prev := (get (persist (append l e flush)) a.lastIndex).getD
      ⟨getTerm (persist (append l e flush)) a.lastIndex, a.lastIndex, .empty⟩
    prev.index = a.lastIndex ∧ prev.term = getTerm l a.lastIndex := by
  rw [hlog.get_persist, hlog.getTerm_persist]
  rcases Nat.eq_or_lt_of_le (show a.base ≤ a.lastIndex from Nat.le_add_right _ _) with hb | hb
  · -- all of the log was compacted
    have hnil : a.kept = [] := eq_nil_of_length_eq_zero (by unfold BaseLog.lastIndex at hb; omega)
    obtain ⟨h1, h2⟩ := hlog.first e flush h hnil (by omega)
    rw [← hb, h1, h2]
    exact ⟨rfl, rfl⟩
  · have hnew := hlog.refines (hlog.append e flush h)
    obtain ⟨x, -, hx⟩ := BaseLog.exists_get hb le_rfl
    have hread : get (append l e flush) a.lastIndex = some x :=
      (hnew.get _ hb).trans ((BaseLog.get_append_of_le _ hb le_rfl).trans hx)
    rw [hread, (hlog.refines h).getTerm _ hb, hx]
    exact ⟨hnew.own _ x hb hread, rfl⟩

lemma buildPeerReq_ready (hlog : LogReading Rep) (h : Rep l a) (e : LogEntry N C) (flush : Bool)
    (hl : nd.log = persist (append l e flush)) (hsnap : nd.lastSnapshotIndex ≤ a.lastIndex) {i : ℕ}
    (hnext : nd.peerNextIndex[i]? = some (a.lastIndex + 1)) (id : N) :
    Ready a (getTerm l a.lastIndex) { e with index := a.lastIndex + 1 } (nd.buildPeerReq id i) := by
  have hrep := hlog.persist (hlog.append e flush h)
  have hrange : getRange nd.log (a.lastIndex + 1) maxAppendBatch = [{ e with index := a.lastIndex + 1 }] := by
    have hbase : a.base < a.lastIndex + 1 := Nat.lt_succ_of_le (Nat.le_add_right _ _)
    rw [hl, (hlog.refines hrep).getRange _ _ hbase trivial, BaseLog.since_append_last]
    rfl
  have hmax : max ((nd.peerNextIndex[i]?).getD 0) 1 = a.lastIndex + 1 := by rw [hnext]; simp
  have hinstall : shouldInstallSnapshot (a.lastIndex + 1) nd.lastSnapshotIndex = false := by
    unfold shouldInstallSnapshot
    simp only [decide_eq_false_iff_not]
    omega
  unfold buildPeerReq
  dsimp only
  rw [hmax, hinstall, if_neg Bool.false_ne_true]
  by_cases hpos : 0 < a.lastIndex
  · obtain ⟨h1, h2⟩ := prev_reading hlog h e flush hpos
    rw [← hl] at h1 h2
    refine ⟨rfl, ?_, fun _ => ?_, hrange⟩
    · rw [if_pos (by omega)]
      exact h1
    · rw [if_pos (by omega)]
      exact h2
  · refine ⟨rfl, ?_, fun h => absurd h hpos, hrange⟩
    rw [if_neg (by omega)]
    show 0 = a.lastIndex
    omega

lemma refreshPeers_next {i x : ℕ} (hi : i < nd.getPeerIdsLocked.length) (h : nd.peerNextIndex[i]? = some (x + 1)) :
    nd.refreshPeers.peerNextIndex[i]? = some (x + 1) := by
  have hlt : i < nd.peerNextIndex.length := (List.getElem?_eq_some_iff.1 h).1
  show ((resize nd.peerNextIndex nd.getPeerIdsLocked.length 0).map _)[i]? = _
  unfold resize
  rw [getElem?_map, getElem?_append_left (by rw [length_take]; omega), getElem?_take_of_lt hi, h]
  rfl

lemma replicateStart_ready (hlog : LogReading Rep) (h : Rep l a) (e : LogEntry N C) (flush : Bool)
    (hl : nd.log = persist (append l e flush)) (hsnap : nd.lastSnapshotIndex ≤ a.lastIndex) (hrole : nd.role = .leader)
    (hnext : ∀ i < nd.getPeerIdsLocked.length, nd.peerNextIndex[i]? = some (a.lastIndex + 1)) :
    ∃ preq : List (PeerReq N C),
      nd.replicateStart = (nd.refreshPeers,
      some (nd.term, nd.clusterConfig.voters.ids.length / 2 + 1, lastIndex nd.log, preq)) ∧
      preq.length = nd.getPeerIdsLocked.length ∧ (preq.map PeerReq.idx).Nodup ∧ (preq.map PeerReq.id).Nodup ∧
      ∀ p ∈ preq, p.idx < nd.getPeerIdsLocked.length ∧ p.id ∈ nd.getPeerIdsLocked ∧
        Ready a (getTerm l a.lastIndex) { e with index := a.lastIndex + 1 } p := by
  set peers := nd.getPeerIdsLocked with hpeers
  set order := nd.refreshPeers.sendOrder peers.length with horder
  have hperm : order.Perm (range peers.length) := by
    exact filter_append_perm _ _
  have hlt : ∀ i ∈ order, i < peers.length := fun i hi => mem_range.1 (hperm.mem_iff.1 hi)
  set f := fun i => (peers[i]?).map (fun id => nd.refreshPeers.buildPeerReq id i) with hf
  have hidx : ∀ (id : N) (i : ℕ), (nd.refreshPeers.buildPeerReq id i).idx = i ∧
    (nd.refreshPeers.buildPeerReq id i).id = id := by
    intro id i
    unfold buildPeerReq
    dsimp only
    split_ifs <;> exact ⟨rfl, rfl⟩
  have hplaces : (order.filterMap f).map PeerReq.idx = order := by
    rw [map_filterMap, filterMap_congr (g := some) (fun i hi => ?_), filterMap_some]
    simp [hf, hlt i hi, hidx]
  have hnodup : order.Nodup := hperm.nodup_iff.2 nodup_range
  refine ⟨order.filterMap f, ?_, ?_, hplaces.symm ▸ hnodup, ?_, ?_⟩
  · unfold replicateStart
    rw [if_neg (not_not.2 hrole)]
    rfl
  · rw [← length_map PeerReq.idx, hplaces, hperm.length_eq, length_range]
  · rw [map_filterMap]
    refine hnodup.filterMap (fun i j x hi hj => ?_)
    simp only [hf, Option.map_map, Option.mem_def, Option.map_eq_some_iff, comp_apply, hidx] at hi hj
    obtain ⟨_, hi, rfl⟩ := hi
    obtain ⟨_, hj, rfl⟩ := hj
    obtain ⟨h1, he⟩ := List.getElem?_eq_some_iff.1 hi
    exact (getElem?_inj h1 (nodup_getPeerIdsLocked nd)).1 (hi.trans hj.symm)
  · intro p hp
    obtain ⟨i, hi, he⟩ := mem_filterMap.1 hp
    simp only [hf, Option.map_eq_some_iff] at he
    obtain ⟨id, hid, rfl⟩ := he
    refine ⟨by rw [(hidx id i).1]; exact hlt i hi, by rw [(hidx id i).2]; exact mem_of_getElem? hid, ?_⟩
    have hl' : nd.refreshPeers.log = persist (append l e flush) := hl
    have hnext' := refreshPeers_next (hlt i hi) (hnext i (hlt i hi))
    exact buildPeerReq_ready hlog h e flush hl' hsnap hnext' id

lemma voters_le_peers (hs : nd.configState = .stable) :
    nd.clusterConfig.voters.ids.length ≤ nd.getPeerIdsLocked.length + 1 := by
  have hpeers : nd.peerSet = nd.clusterConfig.voters.ids.erase nd.nodeId := by
    rw [List.Nodup.erase_eq_filter nd.clusterConfig.voters.nodup]
    simp only [peerSet, hs]
    congr 1
    funext v
    by_cases hv : v = nd.nodeId <;> simp [hv]
  rw [nd.getPeerIdsLocked_perm.length_eq, hpeers, length_erase]
  split_ifs <;> omega

/-! ### The answers -/

def answers (x currentTerm : ℕ) (done : List (PeerReq N C)) : List (PeerReq N C × PeerRsp) :=
  done.map (fun p => (p, ⟨true, x, currentTerm⟩))

lemma foldl_recordPeerRsp_get (done : List (PeerReq N C)) (nd : RaftNode N C L) :
    ((answers x currentTerm done).foldl recordPeerRsp nd).peerLastLogIndex.length = nd.peerLastLogIndex.length ∧
    ∀ i < nd.peerLastLogIndex.length, nd.peerLastLogIndex[i]? = some x ∨ i ∈ done.map PeerReq.idx →
      ((answers x currentTerm done).foldl recordPeerRsp nd).peerLastLogIndex[i]? = some x := by
  induction done generalizing nd with
  | nil => exact ⟨rfl, fun i _ h => h.resolve_right (by simp)⟩
  | cons p _ ih =>
    have hone : (nd.recordPeerRsp (p, ⟨true, x, currentTerm⟩)).peerLastLogIndex = nd.peerLastLogIndex.set p.idx x := rfl
    obtain ⟨hlen, hget⟩ := ih (nd.recordPeerRsp (p, ⟨true, x, currentTerm⟩))
    rw [hone, length_set] at hlen hget
    refine ⟨hlen, fun i hi h => hget i hi ?_⟩
    by_cases hip : p.idx = i
    · left; rw [hip, getElem?_set_self hi]
    · rw [getElem?_set_ne hip]
      rcases h with h | h
      · exact Or.inl h
      · rw [map_cons, mem_cons] at h
        exact Or.inr (h.resolve_left (fun he => hip he.symm))

lemma foldl_max_answers (done : List (PeerReq N C)) :
    (answers x currentTerm done).foldl (fun t p => max t p.2.term) currentTerm = currentTerm := by
  induction done with
  | nil => rfl
  | cons p done ih =>
    show (answers x currentTerm done).foldl (fun t p => max t p.2.term) (max currentTerm currentTerm) = currentTerm
    rw [max_self]
    exact ih

lemma replicateFinish_written (hlog : LogReading Rep) (h : Pending Rep a e nd)
    {done : List (PeerReq N C)} (hnodup : (done.map PeerReq.idx).Nodup)
    (hin : ∀ p ∈ done, p.idx < nd.peerLastLogIndex.length)
    (hcount : (nd.clusterConfig.voters.ids.length + 1) / 2 ≤ done.length) :
    ∃ nd', nd.replicateFinish nd.term (answers a.lastIndex nd.term done) = (nd', some false) ∧ Written Rep a e nd' := by
  have honly := foldl_recordPeerRsp_only (answers a.lastIndex nd.term done) nd
  obtain ⟨hlen, hget⟩ := foldl_recordPeerRsp_get a.lastIndex nd.term done nd
  have hany : (answers a.lastIndex nd.term done).any (fun p => !p.2.ok) = false := by
    rw [any_eq_false]
    intro p hp
    obtain ⟨q, -, rfl⟩ := mem_map.1 hp
    simp
  set nd1 := (answers a.lastIndex nd.term done).foldl recordPeerRsp nd with hnd1
  refine ⟨nd1.advanceCommitIndexLocked.maybeAutoFinalizeJointLocked.applyCommittedLogsLocked, ?_, ?_⟩
  · unfold replicateFinish
    rw [foldl_max_answers, if_neg (lt_irrefl _), if_neg (by simp [h.leader]), hany]
  · have hpend : Pending Rep a e nd1 := h.of_only honly
    have hlast1 : lastIndex nd1.log = a.lastIndex := (hlog.refines hpend.log).lastIndex
    -- the leader and every peer that has answered reach the last index
    have hpeers : done.length ≤ (nd1.peerLastLogIndex.filter (a.lastIndex ≤ ·)).length := by
      have hle := length_le_filter (l := nd1.peerLastLogIndex) (x := a.lastIndex) hnodup (fun i hi => ?_)
      · rwa [length_map] at hle
      · obtain ⟨p, hp, rfl⟩ := mem_map.1 hi
        exact ⟨_, hget p.idx (hin p hp) (Or.inr hi), le_rfl⟩
    refine commitAndApply_reaches hlog hpend ?_
    rw [hlast1, filter_cons_of_pos (by simp), length_cons, honly.data.config]
    omega

lemma replicateAlone_written (hlog : LogReading Rep) (h : Pending Rep a e nd)
    (hv : nd.clusterConfig.voters.ids.length = 0) : Written Rep a e nd.replicateAlone := by
  have hlast : lastIndex nd.log = a.lastIndex := (hlog.refines h.log).lastIndex
  unfold replicateAlone
  rw [if_neg (not_not.2 h.leader)]
  refine commitAndApply_reaches hlog h ?_
  rw [hlast, filter_cons_of_pos (by simp), length_cons]
  omega

end Leader

end RaftNode

/-! ## One call, with every request answered -/

namespace Cluster

variable [DecidableEq N] [LogStorage N C L]

def nextStep (s : Cluster N C L) (k : ℕ) : Action N C L :=
  match (s.fibers[k]?).bind Fiber.rpc with
  | none => .advance k
  | some env => if env.response = none then .deliver k else .recv k

def drive (k : ℕ) (s : Cluster N C L) : Cluster N C L := s.step (s.nextStep k)

def Drives (k : ℕ) (s t : Cluster N C L) : Prop := ∃ m, (drive k)^[m] s = t

section
variable {s t u : Cluster N C L} {k : ℕ} {f : Fiber N C} {req : Request N C}

lemma Drives.refl (k : ℕ) (s : Cluster N C L) : Drives k s s := ⟨0, rfl⟩

lemma Drives.trans (h : Drives k s t) (h' : Drives k t u) : Drives k s u := by
  obtain ⟨m, rfl⟩ := h
  obtain ⟨m', rfl⟩ := h'
  exact ⟨m' + m, iterate_add_apply _ m' m s⟩

lemma Drives.single (h : drive k s = t) : Drives k s t := ⟨1, h⟩

section
variable (hk : s.fibers[k]? = some f)
include hk

lemma drives_advance (hr : f.rpc = none) : Drives k s (s.advance k f) := by
  refine .single ?_
  simp only [drive, nextStep, hk, Option.bind_some, hr, step, if_true]

lemma drives_deliver {dst : N} (hr : f.rpc = some ⟨dst, req, none⟩) (hup : (s.nodes dst).shutdown = false) :
    Drives k s ((s.handle dst req).1.setFiber k { f with rpc := some ⟨dst, req, some (s.handle dst req).2⟩ }) := by
  refine .single ?_
  simp [drive, nextStep, hk, hr, step, deliver, hup]

lemma drives_recv {dst : N} {rsp : Response} (hr : f.rpc = some ⟨dst, req, some rsp⟩) :
    Drives k s (s.setFiber k { f with pc := f.pc.onRsp dst rsp, rpc := none }) := by
  refine .single ?_
  simp [drive, nextStep, hk, hr, step]

lemma setFiber_get (g : Fiber N C) : (s.setFiber k g).fibers[k]? = some g := by
  rw [setFiber_fibers, getElem?_set_self (List.getElem?_eq_some_iff.1 hk).1]

lemma drives_to (hr : f.rpc = none) {g : Fiber N C} (hadv : s.advance k f = u.setFiber k g)
    (hu : u.fibers = s.fibers) : ∃ t, Drives k s t ∧ t.fibers[k]? = some g ∧ t.nodes = u.nodes ∧ t.groups = u.groups :=
  ⟨_, drives_advance hk hr, by rw [hadv]; exact setFiber_get (hu ▸ hk) g, by rw [hadv]; rfl, by rw [hadv]; rfl⟩

lemma drives_append {dst : N} {req : AppendEntriesRequest N C} (hr : f.rpc = none)
    (hadv : s.advance k f = s.setFiber k { f with rpc := some ⟨dst, .appendEntries req, none⟩ })
    (hup : (s.nodes dst).shutdown = false) :
    Drives k s ((s.setNode dst ((s.nodes dst).onAppendEntries req).1).setFiber k
      { f with pc := f.pc.onRsp dst (.appendEntries ((s.nodes dst).onAppendEntries req).2), rpc := none }) := by
  set f1 : Fiber N C := { f with rpc := some ⟨dst, .appendEntries req, none⟩ } with hf1
  set rsp : Response := .appendEntries ((s.nodes dst).onAppendEntries req).2 with hrsp
  have h1 : Drives k s (s.setFiber k f1) := by rw [← hadv]; exact drives_advance hk hr
  have k1 : (s.setFiber k f1).fibers[k]? = some f1 := setFiber_get hk f1
  have h2 := drives_deliver k1 rfl hup
  set f2 : Fiber N C := { f1 with rpc := some ⟨dst, .appendEntries req, some rsp⟩ } with hf2
  have h2 : Drives k (s.setFiber k f1)
    (((s.setFiber k f1).setNode dst ((s.nodes dst).onAppendEntries req).1).setFiber k f2) := h2
  have k1 : ((s.setFiber k f1).setNode dst ((s.nodes dst).onAppendEntries req).1).fibers[k]? = some f1 := k1
  have h3 := drives_recv (setFiber_get k1 f2) rfl
  have h := h1.trans (h2.trans h3)
  simpa only [setFiber, setNode, set_set] using h

end

end

/-! ### The round -/

variable {Rep : L → BaseLog (LogEntry N C) → Prop} {a : BaseLog (LogEntry N C)}

structure PeerUp (Rep : L → BaseLog (LogEntry N C) → Prop) (a : BaseLog (LogEntry N C)) (lastTerm term : ℕ)
    (nd : RaftNode N C L) : Prop where
  up : nd.shutdown = false
  term : nd.term = term
  log : ∃ b, Rep nd.log b ∧ b.lastIndex = a.lastIndex ∧ (0 < a.lastIndex → getTerm nd.log a.lastIndex = lastTerm)

variable [LawfulLog N C L] {n : N}

/-- **A low-latency round.** -/
theorem sends_reach (hlog : LogReading Rep) {e : LogEntry N C} (he : e.index = a.lastIndex + 1) {k lastTerm : ℕ}
    {w : Option (RaftWaiter N C)} {after : After N} {round T majority myLast : ℕ} (todo : List (PeerReq N C)) (c : ℕ)
    (rsps : List (PeerReq N C × PeerRsp)) (s : Cluster N C L) (hk : s.fibers[k]? = some
      { owner := n, pc := .replicate ⟨true, after, round, T, majority, myLast, todo, c, rsps⟩, waiter := w })
    (htr : (s.nodes n).transport = true) (hids : (todo.map PeerReq.id).Nodup)
    (hpeers : ∀ p ∈ todo, p.id ≠ n ∧ Ready a lastTerm e p ∧ PeerUp Rep a lastTerm T (s.nodes p.id)) :
    ∃ t done, Drives k s t ∧ done <+: todo ∧ (majority ≤ c + done.length ∨ done = todo) ∧
      t.fibers[k]? = some
        { owner := n
          pc := .replicate ⟨true, after, round, T, majority, myLast, [], c + done.length,
            rsps ++ answers (a.lastIndex + 1) T done⟩
          waiter := w } ∧
      t.nodes n = s.nodes n ∧ t.groups = s.groups := by
  induction todo generalizing c rsps s with
  | nil => exact ⟨s, [], .refl k s, nil_prefix, Or.inr rfl, by simpa [answers] using hk, rfl, rfl⟩
  | cons p rest ih =>
    by_cases hdone : majority ≤ c
    · -- enough answers: the rest is not asked
      refine ⟨_, [], drives_advance hk rfl, nil_prefix, Or.inl hdone, ?_⟩
      simp only [advance, advanceReplicate, hdone, true_and, or_true, if_true]
      exact ⟨by rw [setFiber_get hk]; simp [answers], rfl, rfl⟩
    · obtain ⟨hne, hready, hup⟩ := hpeers p mem_cons_self
      obtain ⟨b, hrep, hlast, hterm⟩ := hup.log
      -- the request, and what the peer makes of it
      set req : AppendEntriesRequest N C :=
        ⟨T, (s.nodes n).nodeId, a.lastIndex, p.prev.term, [e], (s.nodes n).commitIndex⟩ with hreq
      have hbuild : buildRequest (s.nodes n) T p = some (.appendEntries req) := by
        simp only [buildRequest, hready.append, Bool.false_eq_true, if_false, hready.prev, hready.entries, hreq]
      have hacc : ((s.nodes p.id).onAppendEntries req).2.success = true ∧
          ((s.nodes p.id).onAppendEntries req).2.term = T := by
        have hprev : 0 < b.lastIndex → getTerm (s.nodes p.id).log b.lastIndex = p.prev.term := by
          rw [hlast]
          intro hpos
          rw [hterm hpos, hready.term hpos]
        have h := onAppendEntries_accepts hlog hrep hprev
          (he.trans (by rw [hlast])) (s.nodes n).nodeId (s.nodes n).commitIndex
        rwa [hlast, hup.term] at h
      have hrsp : p.onAppend ((s.nodes p.id).onAppendEntries req).2 = ⟨true, a.lastIndex + 1, T⟩ := by
        rw [PeerReq.onAppend, if_pos hacc.1, hacc.2, hready.prev, hready.entries]
        rfl
      -- it is sent, taken and answered, and the round goes on with one answer more
      set f : Fiber N C :=
        { owner := n, pc := .replicate ⟨true, after, round, T, majority, myLast, p :: rest, c,
          rsps⟩, waiter := w } with hf
      have hadv : s.advance k f = s.setFiber k { f with rpc := some ⟨p.id, .appendEntries req, none⟩ } := by
        simp only [hf, advance, advanceReplicate, htr, hdone, hbuild, Bool.not_true, Bool.false_eq_true, and_false,
          or_self,
          false_and, if_false]
      have hsend := drives_append hk rfl hadv hup.up
      set s' := (s.setNode p.id ((s.nodes p.id).onAppendEntries req).1).setFiber k
        { f with pc := f.pc.onRsp p.id (.appendEntries ((s.nodes p.id).onAppendEntries req).2), rpc := none } with hs'
      have hnodes : ∀ m, m ≠ p.id → s'.nodes m = s.nodes m := fun m hm => setNode_ne s _ hm
      have hk' : s'.fibers[k]? = some
          { owner := n
            pc := .replicate ⟨true, after, round, T, majority, myLast, rest, c + 1,
              rsps ++ [(p, ⟨true, a.lastIndex + 1, T⟩)]⟩
            waiter := w } := by
        have hset : (s.setNode p.id ((s.nodes p.id).onAppendEntries req).1).fibers[k]? = some f := hk
        rw [setFiber_get hset]
        simp only [hf, Pc.onRsp, ReplicateRound.onRsp, hrsp, if_true]
      rw [map_cons, nodup_cons] at hids
      have hpeers' : ∀ q ∈ rest, q.id ≠ n ∧ Ready a lastTerm e q ∧ PeerUp Rep a lastTerm T (s'.nodes q.id) := by
        intro q hq
        obtain ⟨h1, h2, h3⟩ := hpeers q (mem_cons_of_mem _ hq)
        rw [hnodes q.id (fun h => hids.1 (by rw [← h]; exact mem_map_of_mem hq))]
        exact ⟨h1, h2, h3⟩
      obtain ⟨t, done, h1, h2, h3, h4, h5, h6⟩ :=
        ih (c + 1) _ s' hk' (by rw [hnodes n hne.symm]; exact htr) hids.2 hpeers'
      refine ⟨t, p :: done, hsend.trans h1, cons_prefix_cons.2 ⟨rfl, h2⟩, ?_, ?_, h5.trans (hnodes n hne.symm), h6⟩
      · rw [length_cons]
        rcases h3 with h3 | h3
        · left; omega
        · right; rw [h3]
      · have hc : c + 1 + done.length = c + (done.length + 1) := by omega
        rw [h4, append_assoc, hc]
        rfl

/-! ## A healthy leader -/

/-- node `n` leads in a stable configuration and has the log `a`; no other call is in the group commit; every peer
answers, has the leader's term, its log up to the last index, and the next index after it. The log is not behind the
leader's snapshot, and what has been compacted has been applied. -/
structure Healthy (Rep : L → BaseLog (LogEntry N C) → Prop) (s : Cluster N C L) (n : N) (a : BaseLog (LogEntry N C)) :
    Prop where
  id : (s.nodes n).nodeId = n
  leader : (s.nodes n).role = .leader
  stable : (s.nodes n).configState = .stable
  transport : (s.nodes n).transport = true
  idle : s.groups n = {}
  log : Rep (s.nodes n).log a
  snapshot : (s.nodes n).lastSnapshotIndex ≤ a.lastIndex
  base : a.base ≤ (s.nodes n).lastApplied
  applied : (s.nodes n).lastApplied ≤ a.lastIndex
  next : ∀ i < (s.nodes n).getPeerIdsLocked.length, (s.nodes n).peerNextIndex[i]? = some (a.lastIndex + 1)
  peers : ∀ m ∈ (s.nodes n).getPeerIdsLocked,
    PeerUp Rep a (getTerm (s.nodes n).log a.lastIndex) (s.nodes n).term (s.nodes m)

def appended (nd : RaftNode N C L) (command : Command N C) : RaftNode N C L :=
  { nd with log := persist (append nd.log ⟨nd.term, 0, command⟩ false) }

lemma drives_submit {s : Cluster N C L} (hlog : LogReading Rep) (h : Healthy Rep s n a) (command : Command N C) :
    ∃ t, Drives s.fibers.length (s.step (.call n (.submitEntry command))) t ∧
      t.fibers[s.fibers.length]? = some
        { owner := n
          pc := .replicateBegin true (.coordinate 0 [s.fibers.length] 0) 0
          waiter := some ⟨a.lastIndex + 1, ⟨(s.nodes n).term, a.lastIndex + 1, command⟩, none⟩ } ∧
      t.nodes n = appended (s.nodes n) command ∧ ∀ m, m ≠ n → t.nodes m = s.nodes m := by
  set k := s.fibers.length with hkdef
  set nd := s.nodes n with hnd
  have hlast : lastIndex (append nd.log ⟨nd.term, 0, command⟩ false) = a.lastIndex + 1 := by
    rw [(hlog.refines (hlog.append ⟨nd.term, 0, command⟩ false h.log)).lastIndex, BaseLog.lastIndex_append]
  let w : RaftWaiter N C := ⟨a.lastIndex + 1, ⟨nd.term, a.lastIndex + 1, command⟩, none⟩
  let f1 : Fiber N C := { owner := n, pc := .submitEnter 0, waiter := some w }
  let s1 := (s.setNode n { nd with log := append nd.log ⟨nd.term, 0, command⟩ false }).spawn f1
  have happend : nd.submitAppend command =
      ({ nd with log := append nd.log ⟨nd.term, 0, command⟩ false }, some (a.lastIndex + 1)) := by
    unfold submitAppend
    rw [if_neg (not_not.2 h.leader)]
    dsimp only
    rw [hlast]
  have h1 : s.step (.call n (.submitEntry command)) = s1 := by
    simp only [step, call, ← hnd, happend]
    rfl
  have hk1 : s1.fibers[k]? = some f1 := getElem?_concat_length
  have hgroup : s1.groups n = {} := h.idle
  obtain ⟨s2, hd1, hk2, hn2, hg2⟩ := drives_to (u := s1.setGroup n ⟨true, [k]⟩)
    (g := ⟨n, .coordinatorTake 0, none, some w⟩) hk1 rfl (by simp only [f1, advance, hgroup]; rfl) rfl
  have hwait : (s2.groups n).waiters = [k] := by rw [hg2]; simp [setGroup]
  set nd2 : RaftNode N C L := { s2.nodes n with log := persist (s2.nodes n).log } with hnd2
  obtain ⟨t, hd2, hk3, hn3, -⟩ := drives_to (u := (s2.setNode n nd2).setGroup n {})
    (g := ⟨n, .replicateBegin true (.coordinate 0 [k] 0) 0, none,
      some w⟩) hk2 rfl (by simp only [advance, hwait, hnd2]) rfl
  refine ⟨t, by rw [h1]; exact hd1.trans hd2, hk3, ?_, fun m hm => ?_⟩
  · have hnode : s2.nodes n = { nd with log := append nd.log ⟨nd.term, 0, command⟩ false } := by
      rw [hn2]
      exact setNode_self s n _
    rw [hn3]
    show (s2.setNode n nd2).nodes n = _
    rw [setNode_self, hnd2, hnode]
    rfl
  · rw [hn3]
    show (s2.setNode n nd2).nodes m = _
    rw [setNode_ne _ _ hm, hn2]
    exact setNode_ne s _ hm

section Round
variable {s t : Cluster N C L} {n : N} {k : ℕ} {w : Option (RaftWaiter N C)} {after : After N}

section
variable (hlog : LogReading Rep)
include hlog

lemma appended_pending (h : Healthy Rep s n a) (command : Command N C) :
    Pending Rep (a.append (fun i => ⟨(s.nodes n).term, i, command⟩)) ⟨(s.nodes n).term, a.lastIndex + 1, command⟩
      (appended (s.nodes n) command) := by
  set a' := a.append (fun i => (⟨(s.nodes n).term, i, command⟩ : LogEntry N C)) with ha'
  have hrep : Rep (appended (s.nodes n) command).log a' :=
    hlog.persist (hlog.append ⟨(s.nodes n).term, 0, command⟩ false h.log)
  have hlast : a'.lastIndex = a.lastIndex + 1 := BaseLog.lastIndex_append a _
  have hget : a'.get a'.lastIndex = some ⟨(s.nodes n).term, a.lastIndex + 1, command⟩ := by
    rw [hlast]
    exact BaseLog.get_append_last a _
  have hbase : a'.base < a'.lastIndex := by
    rw [hlast]
    exact Nat.lt_succ_of_le (Nat.le_add_right _ _)
  refine ⟨hrep, h.leader, h.stable, h.base, ?_, ?_, hget⟩
  · rw [hlast]
    exact Nat.lt_succ_of_le h.applied
  · rw [(hlog.refines hrep).getTerm _ hbase, hget]
    rfl

lemma drives_alone {e : LogEntry N C}
    (hk : t.fibers[k]? = some { owner := n, pc := .replicateAlone after, waiter := w })
    (hp : Pending Rep a e (t.nodes n)) (heven : Even (t.nodes n).clusterConfig.voters.ids.length)
    (hnone : (t.nodes n).getPeerIdsLocked.length = 0) :
    ∃ u, Drives k t u ∧ u.fibers[k]? = some { owner := n, pc := afterReplicate after, waiter := w } ∧
      Written Rep a e (u.nodes n) := by
  refine ⟨_, drives_advance hk rfl, setFiber_get hk _, ?_⟩
  have hvoters := voters_le_peers hp.stable
  have hzero : (t.nodes n).clusterConfig.voters.ids.length = 0 := by
    obtain ⟨c, hc⟩ := heven
    omega
  show Written Rep a e ((t.setNode n (t.nodes n).replicateAlone).nodes n)
  rw [setNode_self]
  exact replicateAlone_written hlog hp hzero

lemma drives_finish {e : LogEntry N C} {round T majority myLast c : ℕ}
    {done : List (PeerReq N C)} (hk : t.fibers[k]? = some
      { owner := n
        pc := .replicate ⟨true, after, round, T, majority, myLast, [], c, answers a.lastIndex T done⟩
        waiter := w })
    (hT : (t.nodes n).term = T) (hp : Pending Rep a e (t.nodes n)) (hnodup : (done.map PeerReq.idx).Nodup)
    (hin : ∀ p ∈ done, p.idx < (t.nodes n).peerLastLogIndex.length)
    (hcount : ((t.nodes n).clusterConfig.voters.ids.length + 1) / 2 ≤ done.length) :
    ∃ u, Drives k t u ∧ u.fibers[k]? = some { owner := n, pc := afterReplicate after, waiter := w } ∧
      Written Rep a e (u.nodes n) := by
  subst hT
  obtain ⟨nd', hfin, hw⟩ := replicateFinish_written hlog hp hnodup hin hcount
  refine ⟨_, drives_advance hk rfl, ?_⟩
  simp only [advance, advanceReplicate, hfin]
  refine ⟨setFiber_get (s := t.setNode n nd') hk _, ?_⟩
  rw [setFiber_nodes, setNode_self]
  exact hw

lemma drives_round (h : Healthy Rep s n a) (command : Command N C)
    (heven : Even (s.nodes n).clusterConfig.voters.ids.length)
    (hk : t.fibers[k]? = some { owner := n, pc := .replicateBegin true after 0, waiter := w })
    (hn : t.nodes n = appended (s.nodes n) command) (hm : ∀ m, m ≠ n → t.nodes m = s.nodes m) :
    ∃ u, Drives k t u ∧ u.fibers[k]? = some { owner := n, pc := afterReplicate after, waiter := w } ∧
      Written Rep (a.append (fun i => ⟨(s.nodes n).term, i, command⟩)) ⟨(s.nodes n).term, a.lastIndex + 1, command⟩
      (u.nodes n) := by
  set nd := s.nodes n with hnd
  set e : LogEntry N C := ⟨nd.term, a.lastIndex + 1, command⟩ with he
  obtain ⟨preq, hstart, hlen, hidx, hids, hready⟩ := replicateStart_ready hlog h.log ⟨nd.term, 0, command⟩ false
    (show (appended nd command).log = _ from rfl) h.snapshot h.leader h.next
  set nd2 := (appended nd command).refreshPeers with hnd2
  have hpend := (appended_pending hlog h command).of_only (refreshPeers_only _)
  have hbegin := drives_advance hk rfl
  by_cases hempty : preq = []
  · simp only [advance, beginReplicate, hn, hstart, hempty] at hbegin
    set t1 := (t.setNode n nd2).setFiber k { owner := n, pc := .replicateAlone after, waiter := w } with ht1
    have hk1 : t1.fibers[k]? = some { owner := n, pc := .replicateAlone after, waiter := w } :=
      setFiber_get (s := t.setNode n nd2) hk _
    have hnode : t1.nodes n = nd2 := setNode_self t n nd2
    rw [hempty] at hlen
    obtain ⟨u, hd, hku, hw⟩ := drives_alone hlog hk1 (by rw [hnode]; exact hpend) (by rw [hnode]; exact heven)
      (by rw [hnode]; exact hlen.symm)
    exact ⟨u, hbegin.trans hd, hku, hw⟩
  · simp only [advance, beginReplicate, hn, hstart, if_neg hempty] at hbegin
    set majority := nd.clusterConfig.voters.ids.length / 2 + 1 with hmaj
    set f1 : Fiber N C :=
      { owner := n
        pc := .replicate ⟨true, after, 0, nd.term, majority, lastIndex (appended nd command).log, preq, 1, []⟩
        waiter := w } with hf1
    set t1 := (t.setNode n nd2).setFiber k f1 with ht1
    have hk1 : t1.fibers[k]? = some f1 := setFiber_get (s := t.setNode n nd2) hk f1
    have hnode : t1.nodes n = nd2 := setNode_self t n nd2
    have hpeers : ∀ p ∈ preq, p.id ≠ n ∧ Ready a (getTerm nd.log a.lastIndex) e p ∧
        PeerUp Rep a (getTerm nd.log a.lastIndex) nd.term (t1.nodes p.id) := by
      intro p hp
      obtain ⟨-, hmem, hr⟩ := hready p hp
      have hself := self_notMem_getPeerIdsLocked nd
      rw [show nd.nodeId = n from h.id] at hself
      have hne : p.id ≠ n := fun heq => hself (by rw [← heq]; exact hmem)
      refine ⟨hne, hr, ?_⟩
      rw [setFiber_nodes, setNode_ne _ _ hne, hm _ hne]
      exact h.peers p.id hmem
    obtain ⟨v, done, hd, hsub, hdone, hkv, hnv, -⟩ := sends_reach hlog rfl preq 1 [] t1 hk1
      (by rw [hnode]; exact h.transport) hids hpeers
    have hnv : v.nodes n = nd2 := hnv.trans hnode
    -- the round stops at a majority of the voters, or when all peers have answered
    have hcount : (nd.clusterConfig.voters.ids.length + 1) / 2 ≤ done.length := by
      have hvoters := voters_le_peers (show nd.configState = .stable from h.stable)
      have hlen : preq.length = nd.getPeerIdsLocked.length := hlen
      have hpos : 0 < preq.length := length_pos_iff.2 hempty
      obtain ⟨c, hc⟩ := heven
      rcases hdone with hdone | rfl <;> omega
    have hplaces : nd2.peerLastLogIndex.length = nd.getPeerIdsLocked.length := by
      show (resize nd.peerLastLogIndex nd.getPeerIdsLocked.length 0).length = _
      simp only [resize, length_append, length_take, length_replicate]
      omega
    have hlast : (a.append (fun i => (⟨nd.term, i, command⟩ : LogEntry N C))).lastIndex = a.lastIndex + 1 :=
      BaseLog.lastIndex_append a _
    rw [← hlast] at hkv
    obtain ⟨u, hd', hku, hw⟩ := drives_finish hlog hkv (by rw [hnv]; rfl) (by rw [hnv]; exact hpend)
      (hidx.sublist (hsub.sublist.map _))
      (fun p hp => by rw [hnv, hplaces]; exact (hready p (hsub.subset hp)).1)
      (by rw [hnv]; exact hcount)
    exact ⟨u, hbegin.trans (hd.trans hd'), hku, hw⟩

end

end Round

lemma drives_return (hlog : LogReading Rep) {e : LogEntry N C} {t : Cluster N C L} {k idx : ℕ}
    {x : LogEntry N C} (hk : t.fibers[k]? =
      some { owner := n, pc := .coordinatorApply 0 [k] 0, waiter := some ⟨idx, x, none⟩ })
    (hw : Written Rep a e (t.nodes n)) (hidx : idx = a.lastIndex) :
    ∃ u, Drives k t u ∧ u.returned k = some (.submitted ⟨.ok, 1⟩) ∧ u.nodes n = t.nodes n := by
  have hle : idx ≤ (t.nodes n).lastApplied := by rw [hw.applied, hidx]
  have hadv : t.advance k ⟨n, .coordinatorApply 0 [k] 0, none, some ⟨idx, x, none⟩⟩ =
      (t.setNode n (t.nodes n)).setFiber k
      ⟨n, .coordinatorFulfil 0 [k] (t.nodes n).lastApplied, none, some ⟨idx, x, none⟩⟩ := by
    have hmax : [k].foldl (fun m w => max m (t.waiterIdx w)) 0 = idx := by simp [waiterIdx, hk]
    simp only [advance, hw.apply hlog, hmax, hle, true_or, if_true]
  obtain ⟨t1, hd1, hk1, hn1, -⟩ := drives_to hk rfl hadv rfl
  have hadv1 : t1.advance k ⟨n, .coordinatorFulfil 0 [k] (t.nodes n).lastApplied, none, some ⟨idx, x, none⟩⟩ =
      t1.setFiber k ⟨n, .coordinatorFulfil 0 [] (t.nodes n).lastApplied, none, some ⟨idx, x, some ⟨.ok, 1⟩⟩⟩ := by
    simp only [advance, fulfil, setFiber_get hk1, Option.map_some, waiterResult, hle, if_true]
    simp only [setFiber, set_set]
  obtain ⟨t2, hd2, hk2, hn2, -⟩ := drives_to hk1 rfl hadv1 rfl
  obtain ⟨t3, hd3, hk3, hn3, -⟩ := drives_to hk2 rfl (u := t2) rfl rfl
  obtain ⟨t4, hd4, hk4, hn4, -⟩ := drives_to hk3 rfl (u := t3) rfl rfl
  refine ⟨t4, hd1.trans (hd2.trans (hd3.trans hd4)), by rw [returned, hk4]; rfl, ?_⟩
  rw [hn4, hn3, hn2, hn1]
  exact setNode_self t n _

lemma Healthy.of_empty {s : Cluster N C (CommandLog N C)} (hlog : ∀ m, (s.nodes m).log = {})
    (hup : ∀ m, (s.nodes m).shutdown = false ∧ (s.nodes m).term = (s.nodes n).term) (hid : (s.nodes n).nodeId = n)
    (hlead : (s.nodes n).role = .leader ∧ (s.nodes n).configState = .stable ∧ (s.nodes n).transport = true)
    (hfresh : (s.nodes n).lastSnapshotIndex = 0 ∧ (s.nodes n).lastApplied = 0) (hidle : s.groups n = {})
    (hnext : (s.nodes n).peerNextIndex = replicate (s.nodes n).getPeerIdsLocked.length 1) :
    Healthy CommandLogRep s n {} := by
  have hrep : ∀ m, CommandLogRep (s.nodes m).log {} := by
    intro m
    rw [hlog m]
    exact ⟨rfl, rfl, fun h => absurd h (lt_irrefl 0), le_rfl, nofun⟩
  refine ⟨hid, hlead.1, hlead.2.1, hlead.2.2, hidle, hrep n, hfresh.1.le, Nat.zero_le _, hfresh.2.le, fun i hi => ?_,
    fun m _ => ?_⟩
  · rw [hnext, getElem?_replicate_of_lt hi]
    rfl
  · exact ⟨(hup m).1, (hup m).2, {}, hrep m, rfl, fun h => absurd h (lt_irrefl 0)⟩

def elected (n : ℕ) [NeZero n] : Cluster (Fin n) ℕ (CommandLog (Fin n) ℕ) :=
  (drive 0)^[3 * n - 2] ((init (othersConfig n)).step (.call 0 .startElection))

end Cluster

end MaxRedis.Raft

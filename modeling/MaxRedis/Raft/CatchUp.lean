/-
What heartbeat rounds do for followers that are behind.

A heartbeat round finds out which followers are behind and then runs ReplicateLog on the catch-up path, which skips
every peer whose next index is past the leader's log.
-/
import MaxRedis.Raft.Writes

namespace MaxRedis.Raft

open LogStorage LawfulLog RaftNode List

variable {N C L : Type} [DecidableEq N] [LogStorage N C L] [LawfulLog N C L]

/-! ## Leaders with every next index past the log -/

namespace RaftNode

structure PastEnd (nd : RaftNode N C L) : Prop where
  plain : Plain nd.log
  next : ∀ x ∈ nd.peerNextIndex, lastIndex nd.log < x
  transfer : nd.transferCtx.isActive = false
  pos : 0 < nd.term
  older : ∀ e ∈ entries nd.log, e.term < nd.term

def Ahead (nd : RaftNode N C L) : Prop := nd.role = .leader → PastEnd nd

variable {nd nd' : RaftNode N C L}

lemma becomeLeaderLocked_pastEnd (hp : Plain nd.log) (hpos : 0 < nd.term)
    (ho : ∀ e ∈ entries nd.log, e.term < nd.term) : PastEnd nd.becomeLeaderLocked := by
  have hidle : (nd.setRoleLocked .leader).transferCtx.isActive = false := by
    have hcancel : ∀ m : RaftNode N C L, m.cancelTransferLocked.transferCtx.isActive = false := by
      intro m
      unfold cancelTransferLocked
      split_ifs with hm
      · rfl
      · exact Bool.not_eq_true _ ▸ hm
    have hstart : ∀ m : RaftNode N C L, (if m.shutdown then m else m.startHeartbeat).transferCtx = m.transferCtx := by
      intro m
      split_ifs <;> rfl
    simp only [setRoleLocked]
    rw [hstart]
    exact hcancel _
  have hlast : nd.becomeLeaderLocked.log = nd.log := (becomeLeaderLocked_leads nd).data.log
  have hterm : nd.becomeLeaderLocked.term = nd.term := (becomeLeaderLocked_leads nd).term_eq
  refine ⟨by rw [hlast]; exact hp, fun x hx => ?_, ?_, by rw [hterm]; exact hpos, by rw [hlast, hterm]; exact ho⟩
  · rw [eq_of_mem_replicate hx, hlast, (setRoleLocked_data nd .leader).log]
    exact Nat.lt_succ_self _
  · exact hidle

lemma PastEnd.of_same (h : PastEnd nd) (hlog : SameLog nd.log nd'.log) (hterm : nd'.term = nd.term)
    (htr : nd'.transferCtx.isActive = nd.transferCtx.isActive)
    (hnext : ∀ x ∈ nd'.peerNextIndex, x ∈ nd.peerNextIndex ∨ x = lastIndex nd.log + 1) : PastEnd nd' := by
  have hplain := hlog.plain h.plain
  have hlast : lastIndex nd'.log = lastIndex nd.log := by
    rw [lastIndex_eq _ hplain.whole, lastIndex_eq _ h.plain.whole, hlog.entries]
  refine ⟨hplain, fun x hx => ?_, by rw [htr]; exact h.transfer, by rw [hterm]; exact h.pos,
    by rw [hlog.entries, hterm]; exact h.older⟩
  rw [hlast]
  rcases hnext x hx with hx | rfl
  · exact h.next x hx
  · exact Nat.lt_succ_self _

lemma mem_refreshPeers_next {x : ℕ} (hx : x ∈ nd.refreshPeers.peerNextIndex) :
    x ∈ nd.peerNextIndex ∨ x = lastIndex nd.log + 1 := by
  obtain ⟨y, hy, rfl⟩ := mem_map.1 hx
  split_ifs with h
  · exact Or.inr rfl
  · rcases mem_append.1 hy with hy | hy
    · exact Or.inl (mem_of_mem_take hy)
    · exact absurd (eq_of_mem_replicate hy) h

lemma applyLoop_next (fuel : ℕ) (nd : RaftNode N C L) :
    (applyLoop fuel nd).peerNextIndex = nd.peerNextIndex ∧ (applyLoop fuel nd).transferCtx = nd.transferCtx := by
  induction fuel generalizing nd with
  | zero => exact ⟨rfl, rfl⟩
  | succ _ ih =>
    have hentry : ∀ (es : List (LogEntry N C)) (m : RaftNode N C L), (es.foldl applyEntry m).peerNextIndex =
      m.peerNextIndex ∧
        (es.foldl applyEntry m).transferCtx = m.transferCtx := by
      intro es
      induction es with
      | nil => exact fun m => ⟨rfl, rfl⟩
      | cons e _ ihe =>
        intro m
        have hone : (m.applyEntry e).peerNextIndex = m.peerNextIndex ∧
          (m.applyEntry e).transferCtx = m.transferCtx := by
          unfold applyEntry
          split
          · split <;> exact ⟨rfl, rfl⟩
          · exact ⟨rfl, rfl⟩
        exact ⟨(ihe _).1.trans hone.1, (ihe _).2.trans hone.2⟩
    have hflush : ∀ m : RaftNode N C L, m.flushApplyProgress.peerNextIndex = m.peerNextIndex ∧
        m.flushApplyProgress.transferCtx = m.transferCtx := by
      intro m
      unfold flushApplyProgress
      dsimp only
      split_ifs <;> exact ⟨rfl, rfl⟩
    simp only [applyLoop]
    split_ifs
    · exact ⟨rfl, rfl⟩
    · set es := getRange nd.log (nd.lastApplied + 1) (min applyBatchSize (nd.commitIndex - nd.lastApplied))
      exact ⟨(ih _).1.trans ((hflush _).1.trans (hentry es nd).1), (ih _).2.trans ((hflush _).2.trans (hentry es nd).2)⟩
    · exact ⟨rfl, rfl⟩

/-! ### The sections of a round -/

structure Beaten (nd nd' : RaftNode N C L) : Prop where
  log : SameLog nd.log nd'.log
  ahead : Ahead nd'

lemma Beaten.refl (h : Ahead nd) : Beaten nd nd := ⟨SameLog.refl _, h⟩

lemma Beaten.trans {mid : RaftNode N C L} (h : Beaten nd mid) (k : Beaten mid nd') : Beaten nd nd' :=
  ⟨h.log.trans k.log, k.ahead⟩

lemma Beaten.follower (hlog : SameLog nd.log nd'.log) (hr : nd'.role ≠ .leader) : Beaten nd nd' :=
  ⟨hlog, fun h => absurd h hr⟩

lemma Beaten.of_same (h : Ahead nd) (hlog : SameLog nd.log nd'.log) (hrole : nd'.role = nd.role)
    (hterm : nd'.term = nd.term) (htr : nd'.transferCtx.isActive = nd.transferCtx.isActive)
    (hnext : ∀ x ∈ nd'.peerNextIndex, x ∈ nd.peerNextIndex ∨ x = lastIndex nd.log + 1) : Beaten nd nd' :=
  ⟨hlog, fun hl => (h (hrole ▸ hl)).of_same hlog hterm htr hnext⟩

lemma SameData.sameLog {nd nd' : RaftNode N C L} (h : SameData nd nd') : SameLog nd.log nd'.log := by
  rw [h.log]
  exact SameLog.refl _

lemma becomeFollowerLocked_beaten (nd : RaftNode N C L) (t : ℕ) : Beaten nd (nd.becomeFollowerLocked t) :=
  .follower (becomeFollowerLocked_data nd t).sameLog (by rw [becomeFollowerLocked_role]; exact RaftRole.noConfusion)

section
variable (h : Ahead nd)
include h

lemma apply_beaten : Beaten nd nd.applyCommittedLogsLocked :=
  .of_same h (applyCommittedLogsLocked_applies nd).log (applyCommittedLogsLocked_applies nd).same.role
    (applyCommittedLogsLocked_applies nd).same.term
    (by rw [applyCommittedLogsLocked, (applyLoop_next _ nd).2])
    (fun x hx => Or.inl (by rwa [applyCommittedLogsLocked, (applyLoop_next _ nd).1] at hx))

lemma commitIndex_beaten (c : ℕ) : Beaten nd { nd with commitIndex := c } :=
  .of_same h (SameLog.refl _) rfl rfl rfl (fun _ hx => Or.inl hx)

lemma commit_beaten : Beaten nd nd.advanceCommitIndexLocked := by
  obtain ⟨c, hc⟩ := advanceCommitIndexLocked_eq nd
  rw [hc]
  exact commitIndex_beaten h c

lemma maybeAutoFinalizeJointLocked_ahead : nd.maybeAutoFinalizeJointLocked = nd := by
  unfold maybeAutoFinalizeJointLocked
  split_ifs with h1 h2 h3
  · rfl
  · rfl
  · rfl
  · push Not at h1 h2
    have hl := h h1.2.1
    exfalso
    obtain ⟨i, hi⟩ := Nat.exists_eq_succ_of_ne_zero h2.1
    rw [hi, getTerm_eq _ hl.plain] at h3
    rcases he : (entries nd.log)[i]? with _ | e
    · rw [he] at h3
      exact h3 (fun h0 => absurd h0.symm (Nat.pos_iff_ne_zero.1 hl.pos))
    · rw [he] at h3
      exact h3 (fun h0 => absurd h0 (hl.older e (mem_of_getElem? he)).ne)

lemma commitAndApply_beaten :
    Beaten nd nd.advanceCommitIndexLocked.maybeAutoFinalizeJointLocked.applyCommittedLogsLocked := by
  have hc := commit_beaten h
  rw [maybeAutoFinalizeJointLocked_ahead hc.ahead]
  exact hc.trans (apply_beaten hc.ahead)

lemma refreshPeers_beaten : Beaten nd nd.refreshPeers :=
  .of_same h (refreshPeers_only nd).data.sameLog rfl rfl rfl (fun _ hx => mem_refreshPeers_next hx)

lemma recordHeartbeatAcks_beaten (ps : List (N × ℕ)) : Beaten nd (nd.recordHeartbeatAcks ps) := by
  have htr : (nd.recordHeartbeatAcks ps).transferCtx = nd.transferCtx := (foldl_recordHeartbeatAck_kept ps _).2
  have hnext : (nd.recordHeartbeatAcks ps).peerNextIndex = nd.refreshPeers.peerNextIndex :=
    (foldl_recordHeartbeatAck_kept ps _).1
  exact .of_same h (recordHeartbeatAcks_only nd ps).data.sameLog (recordHeartbeatAcks_only nd ps).same.role
    (recordHeartbeatAcks_only nd ps).same.term (by rw [htr])
    (fun x hx => mem_refreshPeers_next (by rw [← hnext]; exact hx))

lemma heartbeatFinish_beaten (isLoop : Bool) (epoch ackCount : ℕ) (ps : List (N × ℕ))
    (maxPeerTerm : ℕ) : Beaten nd (nd.heartbeatFinish isLoop epoch ackCount ps maxPeerTerm).1 ∧
    ∀ send replicate, (nd.heartbeatFinish isLoop epoch ackCount ps maxPeerTerm).2 = some (send, replicate) →
    send = false := by
  have hacks := recordHeartbeatAcks_beaten h ps
  have hmid := hacks.trans (commit_beaten hacks.ahead)
  unfold heartbeatFinish
  split_ifs with h1 h2 h3
  · exact ⟨.refl h, nofun⟩
  · exact ⟨.refl h, nofun⟩
  · exact ⟨becomeFollowerLocked_beaten nd _, nofun⟩
  · have hlead : PastEnd (nd.recordHeartbeatAcks ps).advanceCommitIndexLocked := hmid.ahead (by
      rw [(advanceCommitIndexLocked_same _).role, (recordHeartbeatAcks_only nd ps).same.role]
      exact not_not.1 h2)
    generalize (nd.recordHeartbeatAcks ps).advanceCommitIndexLocked = mid at hmid hlead
    -- no transfer is under way
    have htick : ∀ m : RaftNode N C L, m.transferCtx.isActive = false → m.transferTick = (m, false, false) := by
      intro m hm
      unfold transferTick
      rw [if_neg (by rw [hm]; exact Bool.false_ne_true)]
    dsimp only
    split_ifs
    · rw [htick (extendLeaderLeaseLocked { mid with lastMajorityAckMs := mid.nowMs }) hlead.transfer]
      refine ⟨hmid.trans (.of_same hmid.ahead (SameLog.refl _) rfl rfl rfl (fun x hx => Or.inl hx)), ?_⟩
      intro send replicate he
      exact (congrArg Prod.fst (Option.some.inj he)).symm
    · refine ⟨hmid.trans ?_, nofun⟩
      unfold stepDownLocked
      split_ifs with h4
      · exact .refl hmid.ahead
      · exact becomeFollowerLocked_beaten mid _
    · rw [htick _ hlead.transfer]
      refine ⟨hmid, ?_⟩
      intro send replicate he
      exact (congrArg Prod.fst (Option.some.inj he)).symm

lemma replicateFinish_beaten (currentTerm : ℕ) : Beaten nd (nd.replicateFinish currentTerm []).1 := by
  rcases replicateFinish_spec nd currentTerm [] with he | ⟨t, -, he⟩ | ⟨-, -, he⟩
  · rw [he]; exact .refl h
  · rw [he]; exact becomeFollowerLocked_beaten nd t
  · rw [he]; exact commitAndApply_beaten h

lemma replicateAlone_beaten : Beaten nd nd.replicateAlone := by
  unfold replicateAlone
  split_ifs
  · exact .refl h
  · exact commitAndApply_beaten h

lemma onHeartbeat_beaten (req : HeartbeatRequest N) : Beaten nd (nd.onHeartbeat req).1 := by
  unfold onHeartbeat
  split_ifs
  · exact .refl h
  · have hf := becomeFollowerLocked_beaten nd req.term
    dsimp only
    split_ifs
    · have hc := commitIndex_beaten hf.ahead req.leaderCommit
      exact hf.trans (hc.trans (apply_beaten hc.ahead))
    · exact hf
  · exact .refl h

end

lemma replicateStart_pastEnd (h : PastEnd nd) {order : List ℕ} (ho : ∀ i ∈ order, i < nd.getPeerIdsLocked.length) :
    ∀ p ∈ order.filterMap (fun i => (nd.getPeerIdsLocked[i]?).map (fun id => nd.refreshPeers.buildPeerReq id i)),
      lastIndex nd.log < p.next := by
  intro p hp
  obtain ⟨i, hi, he⟩ := mem_filterMap.1 hp
  obtain ⟨id, -, rfl⟩ := Option.map_eq_some_iff.1 he
  have hlen : nd.refreshPeers.peerNextIndex.length = nd.getPeerIdsLocked.length := by
    show ((resize nd.peerNextIndex nd.getPeerIdsLocked.length 0).map _).length = _
    simp only [resize, length_map, length_append, length_take, length_replicate]
    omega
  have hlt : i < nd.refreshPeers.peerNextIndex.length := by rw [hlen]; exact ho i hi
  have hnext : lastIndex nd.log < nd.refreshPeers.peerNextIndex[i] := by
    rcases mem_refreshPeers_next (getElem_mem hlt) with hx | hx
    · exact h.next _ hx
    · rw [hx]; exact Nat.lt_succ_self _
  have hmax : lastIndex nd.log < max ((nd.refreshPeers.peerNextIndex[i]?).getD 0) 1 := by
    rw [getElem?_eq_getElem hlt]
    exact lt_of_lt_of_le hnext (le_max_left _ _)
  unfold buildPeerReq
  dsimp only
  split_ifs <;> exact hmax

lemma Settles.sameLog (h : Settles nd nd') : SameLog nd.log nd'.log := by
  induction h with
  | refl => exact SameLog.refl _
  | tail _ hlast ih =>
    refine ih.trans ?_
    cases hlast with
    | keep h => rw [h.log]; exact SameLog.refl _
    | commit => exact SameLog.refl _
    | persist => exact ⟨persist_eq _, persist_whole _, persist_anchor _⟩
    | apply => exact (applyCommittedLogsLocked_applies _).log

end RaftNode

/-! ## Runs of heartbeat rounds -/

def Pc.Beating : Pc N C → Prop
  | .heartbeat _ => True
  | .replicateBegin lowLatency after _ => lowLatency = false ∧ after = .finish
  | .replicateAlone after => after = .finish
  | .replicate r => r.lowLatency = false ∧ r.after = .finish ∧ r.rsps = [] ∧ ∀ p ∈ r.todo, r.myLast < p.next
  | .returned _ => True
  | _ => False

structure Fiber.Beating (n : N) (f : Fiber N C) : Prop where
  owner : f.owner = n
  pc : f.pc.Beating
  rpc : ∀ env, f.rpc = some env → (∃ req, env.request = .heartbeat req) ∧ ∃ h, f.pc = .heartbeat h

lemma Fiber.Beating.free {n : N} {pc : Pc N C} {w : Option (RaftWaiter N C)} (h : pc.Beating) :
    Fiber.Beating n { owner := n, pc := pc, waiter := w } :=
  ⟨rfl, h, nofun⟩

/-- a step of a heartbeat round of node `n`, by a call at place `k₀` or later; the clocks run -/
def Action.Beats (n : N) (k₀ : ℕ) : Action N C L → Prop
  | .call m (.heartbeatTick _) => m = n
  | .advance k | .recv k | .fail k | .deliver k => k₀ ≤ k
  | .tick _ _ => True
  | _ => False

namespace Cluster

structure Beats (s₀ : Cluster N C L) (n : N) (s : Cluster N C L) : Prop where
  logs : ∀ m, SameLog (s₀.nodes m).log (s.nodes m).log
  ahead : Ahead (s.nodes n)
  fibers : ∀ k f, s₀.fibers.length ≤ k → s.fibers[k]? = some f → f.Beating n

variable {s₀ s : Cluster N C L} {n : N} {k : ℕ} {f : Fiber N C} {g : Fiber N C}

section
variable (h : Beats s₀ n s)
include h

lemma Beats.set (m : N) {nd' : RaftNode N C L} (hlog : SameLog (s.nodes m).log nd'.log)
    (hn : m = n → Ahead nd') : Beats s₀ n (s.setNode m nd') := by
  refine ⟨fun j => ?_, ?_, h.fibers⟩
  · by_cases hj : j = m
    · subst hj
      rw [setNode_self]
      exact (h.logs j).trans hlog
    · rw [setNode_ne s nd' hj]
      exact h.logs j
  · by_cases hm : n = m
    · subst hm
      rw [setNode_self]
      exact hn rfl
    · rw [setNode_ne s nd' hm]
      exact h.ahead

lemma Beats.node {nd' : RaftNode N C L} (hb : Beaten (s.nodes n) nd') : Beats s₀ n (s.setNode n nd') :=
  h.set n hb.log (fun _ => hb.ahead)

lemma Beats.fiber (hg : g.Beating n) : Beats s₀ n (s.setFiber k g) := by
  refine ⟨h.logs, h.ahead, fun j f hj hf => ?_⟩
  rw [setFiber_fibers, getElem?_set] at hf
  split_ifs at hf with hjk
  · cases hf
    exact hg
  · exact h.fibers j f hj hf

lemma Beats.spawn (hg : g.Beating n) : Beats s₀ n (s.spawn g) := by
  refine ⟨h.logs, h.ahead, fun j f hj hf => ?_⟩
  rcases mem_append.1 (mem_of_getElem? hf) with hmem | hmem
  · by_cases hlt : j < s.fibers.length
    · exact h.fibers j f hj (by rwa [Cluster.spawn, getElem?_append_left hlt] at hf)
    · rw [Cluster.spawn, getElem?_append_right (Nat.le_of_not_lt hlt)] at hf
      exact (mem_singleton.1 (mem_of_getElem? hf)) ▸ hg
  · exact (mem_singleton.1 hmem) ▸ hg

lemma Beats.heartbeat (dst : N) (req : HeartbeatRequest N) :
    Beats s₀ n (s.setNode dst ((s.nodes dst).onHeartbeat req).1) := by
  refine h.set dst (onHeartbeat_calms _ req).settles.sameLog (fun hd => ?_)
  subst hd
  exact (onHeartbeat_beaten h.ahead req).ahead

lemma advance_beats (hf : f.Beating n) (hr : f.rpc = none) : Beats s₀ n (s.advance k f) := by
  obtain ⟨owner, pc, rpc, w⟩ := f
  obtain ⟨howner, hpc, -⟩ := hf
  subst howner hr
  cases pc with
  | heartbeat b =>
    cases ht : b.todo with
    | cons =>
      simp only [advance, ht]
      split_ifs
      · exact h.fiber (.free trivial)
      · refine h.fiber ⟨rfl, trivial, fun env he => ?_⟩
        cases he
        exact ⟨⟨_, rfl⟩, ⟨_, rfl⟩⟩
    | nil =>
      obtain ⟨hb, hsend⟩ := heartbeatFinish_beaten h.ahead b.isLoop b.epoch b.ackCount b.rspLastLog b.maxPeerTerm
      simp only [advance, ht]
      split
      · rename_i nd heq
        rw [heq] at hb
        exact (h.node hb).fiber (.free trivial)
      · rename_i nd sendTimeoutNow needReplicate heq
        rw [heq] at hb hsend
        have hno : sendTimeoutNow = false := hsend _ _ rfl
        subst hno
        refine (h.node hb).fiber (.free ?_)
        cases needReplicate with
        | true => exact ⟨rfl, rfl⟩
        | false => trivial
  | replicateBegin =>
    obtain ⟨rfl, rfl⟩ := hpc
    simp only [advance, beginReplicate]
    rcases replicateStart_spec (s.nodes owner) with he | ⟨hl, h1, order, ho, h2⟩
    · rw [he]
      exact (h.node (.refl h.ahead)).fiber (.free trivial)
    · have hnext := replicateStart_pastEnd (h.ahead hl) ho
      generalize (s.nodes owner).replicateStart = x at h1 h2 ⊢
      obtain ⟨nd, o⟩ := x
      subst h1 h2
      refine (h.node (refreshPeers_beaten h.ahead)).fiber (.free ?_)
      split_ifs
      · exact rfl
      · exact ⟨rfl, rfl, rfl, hnext⟩
  | replicateAlone =>
    cases hpc
    exact (h.node (replicateAlone_beaten h.ahead)).fiber (.free trivial)
  | replicate r =>
    obtain ⟨h1, h2, h3, h4⟩ := hpc
    simp only [advance, advanceReplicate]
    cases ht : r.todo with
    | cons p =>
      have hp : r.myLast < p.next := h4 p (by rw [ht]; exact mem_cons_self)
      dsimp only
      split_ifs with h5 h6
      · exact h.fiber (.free ⟨h1, h2, h3, fun _ h => by cases h⟩)
      · exact h.fiber (.free ⟨h1, h2, h3, fun q hq => h4 q (by rw [ht]; exact mem_cons_of_mem _ hq)⟩)
      · exact absurd ⟨by rw [h1]; rfl, Or.inr hp⟩ h6
    | nil =>
      have hb := replicateFinish_beaten h.ahead r.currentTerm
      rw [h3]
      refine (h.node hb).fiber (.free ?_)
      unfold replicateNext
      split
      · split_ifs
        · exact ⟨h1, h2⟩
        · rw [h2]; trivial
      · rw [h2]; trivial
  | returned => exact h
  | _ => exact absurd hpc id

end

lemma onRsp_heartbeat (b : HeartbeatRound N) (dst : N) (rsp : Response) :
    ∃ b', (Pc.heartbeat b : Pc N C).onRsp dst rsp = .heartbeat b' := by
  cases rsp with
  | heartbeat => exact ⟨_, rfl⟩
  | _ => exact ⟨b, rfl⟩

lemma step_beats (h : Beats s₀ n s) {a : Action N C L} (ha : a.Beats n s₀.fibers.length) : Beats s₀ n (s.step a) := by
  -- the call takes in an answer to its heartbeat
  have htakes : ∀ {k f} (env : Envelope N C) (rsp : Response), s₀.fibers.length ≤ k → s.fibers[k]? = some f →
    f.rpc = some env →
      Fiber.Beating n { f with pc := f.pc.onRsp env.dst rsp, rpc := none } := by
    intro k f env rsp hk hf hr
    obtain ⟨howner, -, hrpc⟩ := h.fibers k f hk hf
    obtain ⟨-, b, hb⟩ := hrpc env hr
    obtain ⟨b', hb'⟩ := onRsp_heartbeat (C := C) b env.dst rsp
    refine ⟨howner, ?_, fun _ h => by cases h⟩
    rw [hb, hb']
    trivial
  have hw := step_way s a
  generalize s.step a = t at hw ⊢
  cases hw with
  | idle => exact h
  | call _ c =>
    cases c with
    | heartbeatTick =>
      cases ha
      simp only [call]
      split_ifs
      · exact h
      · split
        · exact h
        · exact h.spawn (.free trivial)
    | _ => exact absurd ha id
  | advance k f hf hr => exact advance_beats h (h.fibers k f ha hf) hr
  | recv _ _ hf _ _ rsp hr => exact h.fiber (htakes _ rsp ha hf hr)
  | fail _ _ hf env hr =>
    have hgive : Beats s₀ n (s.giveUp env) := by
      unfold giveUp
      split_ifs
      · exact ⟨h.logs, h.ahead, h.fibers⟩
      · exact h
    exact hgive.fiber (htakes env _ ha hf hr)
  | deliver k f hf dst _ hr =>
    obtain ⟨howner, hpc, hrpc⟩ := h.fibers k f ha hf
    obtain ⟨⟨r, rfl⟩, hb⟩ := hrpc _ hr
    refine (h.heartbeat dst r).fiber ⟨howner, hpc, fun env' he => ?_⟩
    cases he
    exact ⟨⟨r, rfl⟩, hb⟩
  | tick m =>
    refine h.set m (SameLog.refl _) (fun hm hl => ?_)
    subst hm
    exact (h.ahead hl).of_same (SameLog.refl _) rfl rfl (fun x hx => Or.inl hx)
  | late | drop | restart => exact absurd ha id

theorem run_beats (h : Ahead (s₀.nodes n)) (as : List (Action N C L)) (ha : ∀ a ∈ as, a.Beats n s₀.fibers.length) :
    Beats s₀ n (run s₀ as) := by
  induction as using reverseRecOn with
  | nil =>
    refine ⟨fun m => SameLog.refl _, h, fun k f hk hf => ?_⟩
    exact absurd (List.getElem?_eq_some_iff.1 hf).1 (Nat.not_lt.2 hk)
  | append_singleton _ a ih =>
    rw [run_append]
    exact step_beats (ih (fun b hb => ha b (mem_append_left _ hb)))
      (ha a (mem_append_right _ mem_cons_self))

/-! ## Rounds of SendHeartbeatToPeers -/

def Round (n : N) (s t : Cluster N C L) : Prop :=
  Drives s.fibers.length (s.step (.call n (.heartbeatTick false))) t ∧ t.returned s.fibers.length = some .done

abbrev Rounds (n : N) (s t : Cluster N C L) : Prop := Relation.ReflTransGen (Round n) s t

lemma step_length (s : Cluster N C L) (a : Action N C L) : s.fibers.length ≤ (s.step a).fibers.length := by
  by_contra hlt
  obtain ⟨f', hf', -⟩ := step_stays a (getElem?_eq_getElem (Nat.not_le.1 hlt))
  exact absurd (List.getElem?_eq_some_iff.1 hf').1 (lt_irrefl _)

lemma drive_beats (h : Beats s₀ n s) (hk : s₀.fibers.length ≤ k) (m : ℕ) : Beats s₀ n ((drive k)^[m] s) := by
  induction m with
  | zero => exact h
  | succ _ ih =>
    rw [Function.iterate_succ_apply']
    refine step_beats ih ?_
    unfold nextStep
    split
    · exact hk
    · split_ifs
      · exact hk
      · exact hk

lemma rounds_beats {t : Cluster N C L} (h : Ahead (s₀.nodes n)) (hr : Rounds n s₀ t) :
    Beats s₀ n t ∧ s₀.fibers.length ≤ t.fibers.length := by
  induction hr with
  | refl => exact ⟨run_beats h [] (fun _ h => by cases h), le_rfl⟩
  | tail _ hlast ih =>
    obtain ⟨hb, hlen⟩ := ih
    obtain ⟨⟨m, rfl⟩, -⟩ := hlast
    have hcall := step_beats (a := .call n (.heartbeatTick false)) hb rfl
    refine ⟨drive_beats hcall hlen m, hlen.trans ?_⟩
    have hdrive : ∀ (k m : ℕ) (u : Cluster N C L), u.fibers.length ≤ ((drive k)^[m] u).fibers.length := by
      intro k m u
      induction m with
      | zero => exact le_rfl
      | succ _ ih =>
        rw [Function.iterate_succ_apply']
        exact ih.trans (step_length _ _)
    exact (step_length _ _).trans (hdrive _ m _)

/-- **Catch-up.** -/
theorem catchUp_iff (s : Cluster N C L) (n m : N) (nd : RaftNode N C L) (hnew : s.nodes n = nd.becomeLeaderLocked)
    (hp : Plain nd.log) (hpos : 0 < nd.term) (ho : ∀ e ∈ entries nd.log, e.term < nd.term) :
    (∃ t, Rounds n s t ∧ entries (t.nodes m).log = entries (t.nodes n).log) ↔
      entries (s.nodes m).log = entries (s.nodes n).log := by
  constructor
  · rintro ⟨t, hr, heq⟩
    have hb := (rounds_beats (fun _ => by rw [hnew]; exact becomeLeaderLocked_pastEnd hp hpos ho) hr).1
    rwa [(hb.logs m).entries, (hb.logs n).entries] at heq
  · intro heq
    exact ⟨s, .refl, heq⟩

/-- a candidate of term 2 with an entry of term 1 that nobody else has -/
def lonelyCandidate : RaftNode (Fin 3) ℕ (CommandLog (Fin 3) ℕ) :=
  RaftNode.becomeCandidateLocked
    { nodeId := 0, log := ⟨0, [⟨1, 1, .client 10⟩], {}⟩, storage := { currentTerm := 1 },
      clusterConfig := othersConfig 3 0 }

theorem catchUp_iff_lonely :
    let s := (init (othersConfig 3)).setNode 0 lonelyCandidate.becomeLeaderLocked
    entries (s.nodes 0).log = [⟨1, 1, .client 10⟩] ∧
      ¬∃ t, Rounds 0 s t ∧ entries (t.nodes 1).log = entries (t.nodes 0).log := by
  intro s
  have hplain : Plain lonelyCandidate.log := by
    refine ⟨⟨rfl, fun i e he => ?_⟩, rfl⟩
    rcases i with _ | i
    · cases he; rfl
    · cases he
  refine ⟨rfl, fun h => ?_⟩
  have heq := (catchUp_iff s 0 1 lonelyCandidate (setNode_self _ _ _) hplain (by decide) (by decide)).1 h
  cases heq

/-- Node 0 leads term 1 and has an entry that no other node has; node 1 makes it step down, and its write returns. Now
it campaigns for term 3. -/
def campaigns : Cluster (Fin 3) ℕ (CommandLog (Fin 3) ℕ) :=
  ((drive 1)^[37] (run (init (othersConfig 3)) (electZero ++ ([.call 0 (.submitEntry (.client 10)),
    .call 1 .startElection, .advance 2, .deliver 2, .recv 2, .advance 2, .fail 2, .advance 2] : Steps3)))).step
    (.call 0 .startElection)

def behind : Cluster (Fin 3) ℕ (CommandLog (Fin 3) ℕ) := (drive 3)^[7] campaigns

/-- Node 1 has nothing of the leader's log. Heartbeat rounds end, and after any number of them it still has nothing. -/
theorem catchUp_stalls : (((drive 3)^[6] campaigns).nodes 0).role = .candidate ∧ (behind.nodes 0).role = .leader ∧
    entries (behind.nodes 0).log = [⟨1, 1, .client 10⟩] ∧ entries (behind.nodes 1).log = [] ∧ (∃ t, Round 0 behind t) ∧
    ∀ t, Rounds 0 behind t → entries (t.nodes 1).log ≠ entries (t.nodes 0).log := by
  have h0 : (behind.nodes 0).log = ⟨0, [⟨1, 1, .client 10⟩], {}⟩ := by decide +kernel
  have h1 : (behind.nodes 1).log = {} := by decide +kernel
  have hnext : (behind.nodes 0).peerNextIndex = [2, 2] := by decide +kernel
  have hterm : (behind.nodes 0).term = 3 := by decide +kernel
  have hahead : Ahead (behind.nodes 0) := by
    refine fun _ => ⟨?_, ?_, by decide +kernel, by rw [hterm]; decide, ?_⟩
    · rw [h0]
      refine ⟨⟨rfl, fun i e he => ?_⟩, rfl⟩
      rcases i with _ | i
      · cases he; rfl
      · cases he
    · rw [h0, hnext]
      decide
    · rw [h0, hterm]
      intro e he
      cases mem_singleton.1 he
      decide
  refine ⟨by decide +kernel, by decide +kernel, by rw [h0]; rfl, by rw [h1]; rfl, ⟨_, ⟨11, rfl⟩, by decide +kernel⟩, ?_⟩
  intro t ht
  have hb := (rounds_beats hahead ht).1
  rw [(hb.logs 0).entries, (hb.logs 1).entries, h0, h1]
  intro h
  cases h

end Cluster

end MaxRedis.Raft

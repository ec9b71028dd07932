/-
The transfer of leadership.

`StartTransfer` brings a target up to date, `IsTransferReadyLocked` compares the counter of the target's log with the
end of the leader's own, and TimeoutNow tells the target to stand for election.
-/
import MaxRedis.Raft.CommitSoundness
import MaxRedis.Raft.CallSteps

namespace MaxRedis.Raft

open List

open LogStorage LawfulLog RaftNode TermLog

variable {N C L : Type}

/-! ## Deciding and sending -/

/-- a decision to hand over, or a TimeoutNow request: the leader, the node meant, and the term -/
structure Handover (N : Type) where
  leader : N
  target : N
  term : ℕ
  deriving DecidableEq

namespace RaftNode

variable [DecidableEq N] [LogStorage N C L]

def asksReady (nd : RaftNode N C L) : Pc N C → Option N
  | .transferCheck target => some target
  | .heartbeat b => if b.todo = [] then nd.transferCtx.target else none
  | _ => none

structure FoundReady (nd : RaftNode N C L) (target : N) : Prop where
  role : nd.role = .leader
  ready : nd.isTransferReadyLocked target

variable (nd : RaftNode N C L)

lemma transferTick_sends (h : nd.transferTick.2.1) :
    ∃ target, nd.transferCtx.target = some target ∧ FoundReady nd.transferTick.1 target := by
  have hctx : nd.checkTransferTimeoutLocked.transferCtx.state = .waitingCatchUp →
      nd.checkTransferTimeoutLocked = nd := by
    intro hw
    unfold checkTransferTimeoutLocked at hw ⊢
    split_ifs at hw ⊢ with hlate
    · rw [cancelTransferLocked, if_pos hlate.1] at hw; cases hw
    · rfl
  unfold transferTick at h ⊢
  split_ifs at h ⊢ with hact
  dsimp only at h ⊢
  split_ifs at h ⊢ with hw
  have hrole := hw.2
  rw [hctx hw.1] at h hrole ⊢
  split at h
  · cases h
  · rename_i target ht
    split_ifs at h with hready
    refine ⟨target, ht, ?_⟩
    rw [if_pos hready]
    exact ⟨hrole, hready⟩

lemma heartbeatFinish_sends {isLoop : Bool} {epoch ackCount : ℕ} {rspLastLog : List (N × ℕ)}
    {maxPeerTerm : ℕ} {needReplicate : Bool}
    (h : (nd.heartbeatFinish isLoop epoch ackCount rspLastLog maxPeerTerm).2 = some (true, needReplicate)) :
    ∃ target, nd.transferCtx.target = some target ∧
      FoundReady (nd.heartbeatFinish isLoop epoch ackCount rspLastLog maxPeerTerm).1 target := by
  have hmid : (nd.recordHeartbeatAcks rspLastLog).advanceCommitIndexLocked.transferCtx = nd.transferCtx := by
    obtain ⟨c, hc⟩ := advanceCommitIndexLocked_eq (nd.recordHeartbeatAcks rspLastLog)
    rw [hc]
    exact (foldl_recordHeartbeatAck_kept rspLastLog _).2
  unfold heartbeatFinish at h ⊢
  split_ifs at h ⊢
  generalize (nd.recordHeartbeatAcks rspLastLog).advanceCommitIndexLocked = mid at h hmid ⊢
  dsimp only at h ⊢
  rw [← hmid]
  split_ifs at h ⊢
  · obtain ⟨target, ht, hr⟩ := transferTick_sends (extendLeaderLeaseLocked { mid with lastMajorityAckMs := mid.nowMs })
      (Prod.mk.inj (Option.some.inj h)).1
    exact ⟨target, ht, hr⟩
  · exact transferTick_sends mid (Prod.mk.inj (Option.some.inj h)).1

lemma transferCheck_sends (target : N) (h : (nd.transferCheck target).2 = some true) :
    FoundReady (nd.transferCheck target).1 target := by
  unfold transferCheck at h ⊢
  split_ifs at h ⊢ with hno hready
  · push Not at hno
    exact ⟨hno.1, hready⟩
  · cases h

lemma heartbeatFinish_log (isLoop : Bool) (epoch ackCount : ℕ) (rspLastLog : List (N × ℕ))
    (maxPeerTerm : ℕ) : (nd.heartbeatFinish isLoop epoch ackCount rspLastLog maxPeerTerm).1.log = nd.log := by
  rcases heartbeatFinish_spec nd isLoop epoch ackCount rspLastLog maxPeerTerm with he | ⟨-, he⟩ | ⟨-, -, hkept⟩
  · rw [he]
  · rw [he]; exact (becomeFollowerLocked_data nd _).log
  · obtain ⟨c, hc⟩ := advanceCommitIndexLocked_eq (nd.recordHeartbeatAcks rspLastLog)
    rw [hkept.data.log, hc]
    exact (recordHeartbeatAcks_only nd rspLastLog).data.log

end RaftNode

lemma Pc.handing_onRsp {pc : Pc N C} {peer : N} {rsp : Response} (h : (pc.onRsp peer rsp).handing) : pc.handing := by
  cases pc with
  | timeoutSend => rfl
  | election => cases rsp with | _ => cases h
  | heartbeat => cases rsp with | _ => cases h
  | replicate => cases rsp with | _ => cases h
  | readIndex => cases rsp with | _ => cases h
  | _ => exact h

lemma Pc.Flow.handing {pc pc' : Pc N C} (h : pc.Flow pc') (hh : pc'.handing) :
    pc.handing ∨ ∃ b, pc' = .timeoutStart b ∧ ((∃ h, pc = .heartbeat h) ∨ ∃ target, pc = .transferCheck target) := by
  have hafter : ∀ after : After N, (Cluster.afterReplicate after : Pc N C).handing = false := by
    intro after
    cases after <;> rfl
  cases h with
  | beatenTransfer h b => exact Or.inr ⟨b, rfl, Or.inl ⟨h, rfl⟩⟩
  | hands target => exact Or.inr ⟨false, rfl, Or.inr ⟨target, rfl⟩⟩
  | tells => exact Or.inl rfl
  | refused _ after | alone after => rw [hafter] at hh; cases hh
  | replicated r => rw [hafter] at hh; cases hh
  | _ => cases hh

namespace Cluster

variable [DecidableEq N] [LogStorage N C L]

def decides (s : Cluster N C L) (k : ℕ) : Option (Handover N) :=
  match s.fibers[k]?, (s.step (.advance k)).fibers[k]? with
  | some ⟨n, pc, none, _⟩, some ⟨_, .timeoutStart _, _, _⟩ =>
    ((s.nodes n).asksReady pc).map (⟨n, ·, ((s.step (.advance k)).nodes n).term⟩)
  | _, _ => none

def hands (s : Cluster N C L) (k : ℕ) : Option (Handover N) :=
  match s.fibers[k]?, (s.step (.advance k)).fibers[k]? with
  | some ⟨n, _, none, _⟩, some ⟨_, _, some ⟨target, .timeoutNow req, none⟩, _⟩ => some ⟨n, target, req.term⟩
  | _, _ => none

variable {s : Cluster N C L} {a : Action N C L} {k : ℕ} {f f' : Fiber N C}

lemma advance_own (hk : s.fibers[k]? = some f) (hf' : (s.advance k f).fibers[k]? = some f') : Section.Own f f' := by
  rcases advance_fiber hk hf' with ⟨-, hown⟩ | ⟨hne, -⟩
  · exact hown
  · exact absurd rfl hne

lemma advance_leaves (hk : s.fibers[k]? = some f) (hf' : (s.advance k f).fibers[k]? = some f')
    (nd : RaftNode N C L) (pc : Pc N C) (he : s.advance k f = (s.setNode f.owner nd).setFiber k { f with pc := pc }) :
    f'.pc = pc ∧ (s.advance k f).nodes f.owner = nd := by
  rw [he, setFiber_fibers, setNode_fibers, getElem?_set_self (List.getElem?_eq_some_iff.1 hk).1] at hf'
  rw [← Option.some.inj hf', he, setFiber_nodes, setNode_self]
  exact ⟨rfl, rfl⟩

section Deciding
variable (hk : s.fibers[k]? = some f) (hf' : (s.advance k f).fibers[k]? = some f')
  {b : Bool} (hpc : f'.pc = .timeoutStart b)
include hk hf' hpc

lemma heartbeat_foundReady {h : HeartbeatRound N} (hf : f.pc = .heartbeat h) :
    ∃ target, (s.nodes f.owner).asksReady f.pc = some target ∧
      FoundReady ((s.advance k f).nodes f.owner) target ∧
      ((s.advance k f).nodes f.owner).log = (s.nodes f.owner).log := by
  cases htodo : h.todo with
  | cons =>
    -- the round is not over
    simp only [advance, hf, htodo] at hf'
    split_ifs at hf'
    all_goals
      rw [setFiber_fibers, getElem?_set_self (List.getElem?_eq_some_iff.1 hk).1] at hf'
      rw [← Option.some.inj hf'] at hpc
      cases hpc
  | nil =>
    have hlog := heartbeatFinish_log (s.nodes f.owner) h.isLoop h.epoch h.ackCount h.rspLastLog h.maxPeerTerm
    rcases hfin : (s.nodes f.owner).heartbeatFinish h.isLoop h.epoch h.ackCount h.rspLastLog h.maxPeerTerm with
      ⟨nd, _ | ⟨sendTimeoutNow, needReplicate⟩⟩
    · obtain ⟨he, -⟩ := advance_leaves hk hf' nd (.returned .done)
        (by simp only [advance, hf, htodo, hfin])
      cases he.symm.trans hpc
    obtain ⟨he, hnd⟩ := advance_leaves hk hf' nd _ (by simp only [advance, hf, htodo, hfin]; rfl)
    rw [he] at hpc
    rw [hfin] at hlog
    cases sendTimeoutNow with
    | false =>
      simp only [Bool.false_eq_true, if_false] at hpc
      split_ifs at hpc
    | true =>
      obtain ⟨target, ht, hready⟩ := heartbeatFinish_sends (s.nodes f.owner) (by rw [hfin])
      rw [hfin] at hready
      rw [hnd]
      refine ⟨target, ?_, hready, hlog⟩
      rw [hf, asksReady, if_pos htodo, ht]

lemma transferCheck_foundReady {target : N} (hf : f.pc = .transferCheck target) :
    FoundReady ((s.advance k f).nodes f.owner) target ∧
      ((s.advance k f).nodes f.owner).log = (s.nodes f.owner).log := by
  have hlog := (transferCheck_kept (s.nodes f.owner) target).data.log
  rcases hfin : (s.nodes f.owner).transferCheck target with ⟨nd, o⟩
  rw [hfin] at hlog
  by_cases ho : o = some true
  · subst ho
    obtain ⟨-, hnd⟩ := advance_leaves hk hf' nd (.timeoutStart false) (by simp only [advance, hf, hfin])
    have hready := transferCheck_sends (s.nodes f.owner) target (by rw [hfin])
    rw [hfin] at hready
    rw [hnd]
    exact ⟨hready, hlog⟩
  · obtain ⟨he, -⟩ := advance_leaves hk hf' nd (.returned .done) (by simp only [advance, hf, hfin])
    cases he.symm.trans hpc

lemma advance_foundReady (hf : (∃ h, f.pc = .heartbeat h) ∨ ∃ target, f.pc = .transferCheck target) :
    ∃ target, (s.nodes f.owner).asksReady f.pc = some target ∧
      FoundReady ((s.advance k f).nodes f.owner) target ∧
      ((s.advance k f).nodes f.owner).log = (s.nodes f.owner).log := by
  rcases hf with ⟨h, hf⟩ | ⟨target, hf⟩
  · exact heartbeat_foundReady hk hf' hpc hf
  · exact ⟨target, by rw [hf]; rfl, transferCheck_foundReady hk hf' hpc hf⟩

end Deciding

variable {o : Handover N}

lemma decides_eq (hk : s.fibers[k]? = some f) (hr : f.rpc = none)
    (hf' : (s.advance k f).fibers[k]? = some f') {b : Bool}
    (hpc : f'.pc = .timeoutStart b) : s.decides k =
      ((s.nodes f.owner).asksReady f.pc).map (⟨f.owner, ·, ((s.step (.advance k)).nodes f.owner).term⟩) := by
  obtain ⟨owner, pc, rpc, w⟩ := f
  obtain ⟨owner', pc', rpc', w'⟩ := f'
  subst hr hpc
  simp only [decides, step_advance hk rfl, hk, hf']

lemma advance_handing (hk : s.fibers[k]? = some f) (hr : f.rpc = none) (hf' : (s.advance k f).fibers[k]? = some f')
    (hh : f'.pc.handing) : f.pc.handing ∨ ∃ target term, s.decides k = some ⟨f.owner, target, term⟩ := by
  cases advance_own hk hf' with
  | asks _ _ _ pc | stays _ pc => exact Or.inl (pc ▸ hh)
  | flows _ pc =>
    rcases pc.handing hh with hf | ⟨b, hpc, hf⟩
    · exact Or.inl hf
    · obtain ⟨target, hask, -⟩ := advance_foundReady hk hf' hpc hf
      exact Or.inr ⟨target, _, by rw [decides_eq hk hr hf' hpc, hask]; rfl⟩
  | other _ pc => rw [pc] at hh; cases hh

/-- **Readiness is decided by a leader that counts the target's log as long as its own.** -/
lemma decides_spec (h : s.decides k = some o) :
    FoundReady ((s.step (.advance k)).nodes o.leader) o.target ∧
      ((s.step (.advance k)).nodes o.leader).term = o.term ∧
      ((s.step (.advance k)).nodes o.leader).log = (s.nodes o.leader).log := by
  unfold decides at h
  split at h
  · rename_i n pc w n' b rpc' w' hk hf'
    obtain ⟨target, hask, ho⟩ := Option.map_eq_some_iff.1 h
    subst ho
    rw [step_advance hk rfl] at hf' ⊢
    have hpc : (∃ b, pc = .heartbeat b) ∨ ∃ target, pc = .transferCheck target := by
      cases pc with
      | heartbeat b => exact Or.inl ⟨b, rfl⟩
      | transferCheck target => exact Or.inr ⟨target, rfl⟩
      | _ => cases hask
    obtain ⟨target', hask', hfound, hlog⟩ := advance_foundReady hk hf' rfl hpc
    rw [hask] at hask'
    obtain rfl := Option.some.inj hask'
    exact ⟨hfound, rfl, hlog⟩
  · cases h

lemma buildRequest_ne {nd : RaftNode N C L} {currentTerm : ℕ} {p : PeerReq N C} {req : TimeoutNowRequest N} :
    buildRequest nd currentTerm p ≠ some (.timeoutNow req) := by
  unfold buildRequest
  split_ifs
  · cases nd.snapshotBin with
    | _ => simp
  · simp

lemma advanceReplicate_ne (hk : s.fibers[k]? = some f) (hr : f.rpc = none) (r : ReplicateRound N C)
    (hf' : (s.advanceReplicate k f r).fibers[k]? = some f') (target : N) (req : TimeoutNowRequest N) :
    f'.rpc ≠ some ⟨target, .timeoutNow req, none⟩ := by
  have hlt := (List.getElem?_eq_some_iff.1 hk).1
  have hone : ∀ (t : Cluster N C L) (g : Fiber N C), t.fibers = s.fibers.set k g → t.fibers[k]? = some f' →
      g.rpc ≠ some ⟨target, .timeoutNow req, none⟩ → f'.rpc ≠ some ⟨target, .timeoutNow req, none⟩ := by
    intro t g ht hj hg
    rw [ht, getElem?_set_self hlt] at hj
    rwa [← Option.some.inj hj]
  unfold advanceReplicate at hf'
  dsimp only at hf'
  split at hf'
  · split_ifs at hf'
    · exact hone _ _ rfl hf' (by simp [hr])
    · exact hone _ _ rfl hf' (by simp [hr])
    · split at hf'
      · rename_i req' hreq
        refine hone _ _ rfl hf' (fun he => ?_)
        have hq : req' = .timeoutNow req := (Envelope.mk.inj (Option.some.inj he)).2.1
        exact buildRequest_ne (hreq.trans (congrArg some hq))
      · exact hone _ _ rfl hf' (by simp [hr])
  · exact hone _ _ rfl hf' (by simp [hr])

lemma hands_spec (h : s.hands k = some o) : ∃ f, s.fibers[k]? = some f ∧ f.owner = o.leader ∧ f.pc.handing := by
  unfold hands at h
  split at h
  · rename_i n pc w n' pc' target req w' hk hf'
    obtain rfl := Option.some.inj h
    rw [step_advance hk rfl] at hf'
    refine ⟨_, hk, rfl, ?_⟩
    cases advance_own hk hf' with
    | asks _ hasks rpc =>
      obtain rfl := Option.some.inj rpc
      cases hasks with
      | timeoutNow => rfl
      | replicate r =>
        exact absurd rfl (advanceReplicate_ne hk rfl r hf' target req)
    | stays rpc | flows rpc | other rpc => cases rpc
  · cases h

/-! ## The decision before a send -/

lemma handing_step (hf' : (s.step a).fibers[k]? = some f') (hh : f'.pc.handing) :
    (∃ f, s.fibers[k]? = some f ∧ f'.owner = f.owner ∧ f.pc.handing) ∨
    (a = .advance k ∧ ∃ target term, s.decides k = some ⟨f'.owner, target, term⟩) := by
  cases step_call hf' with
  | old h => exact Or.inl ⟨f', h, rfl, hh⟩
  | started _ hs =>
    -- no call begins between the decision and the send
    cases hs with
    | leaseRead =>
      split_ifs at hh <;> cases hh
    | _ => cases hh
  | asks g h _ _ _ eq | told g h _ _ eq => subst eq; exact Or.inl ⟨g, h, rfl, hh⟩
  | takes g h _ _ _ _ eq => subst eq; exact Or.inl ⟨g, h, rfl, Pc.handing_onRsp hh⟩
  | goes g h hr _ ha _ hg eq =>
    subst ha
    have howner : f'.owner = g.owner := by rw [eq]
    rw [step_advance h hr] at hf'
    rcases advance_handing h hr hf' hh with hg | hd
    · exact Or.inl ⟨g, h, howner, hg⟩
    · exact Or.inr ⟨rfl, by rw [howner]; exact hd⟩
  | fulfils _ _ _ _ _ _ _ _ eq => rw [eq] at hh; cases hh
  | fulfilled g h _ _ _ _ _ _ _ _ hpc' eq =>
    subst eq
    rcases hpc' with rfl | ⟨-, rfl⟩
    · exact Or.inl ⟨g, h, rfl, hh⟩
    · cases hh
  | killed _ _ _ _ eq => rw [eq] at hh; cases hh

/-- **No TimeoutNow without a decision**: the call that is about to send has found some peer ready before. -/
lemma sends_decided (config : N → ClusterConfig N) (as : List (Action N C L))
    (hf : (run (init config) as).fibers[k]? = some f) (hh : f.pc.handing) :
    ∃ i target term, as[i]? = some (.advance k) ∧
      (run (init config) (as.take i)).decides k = some ⟨f.owner, target, term⟩ := by
  induction as using reverseRecOn generalizing f with
  | nil => simp [run, init] at hf
  | append_singleton as _ ih =>
    rw [run_append] at hf
    rcases handing_step hf hh with ⟨g, hg, howner, hgpc⟩ | ⟨rfl, target, term, hd⟩
    · obtain ⟨i, target, term, hi, hd⟩ := ih hg hgpc
      have hlt := (List.getElem?_eq_some_iff.1 hi).1
      refine ⟨i, target, term, by rw [getElem?_append_left hlt, hi], ?_⟩
      rw [take_append_of_le_length hlt.le, howner, hd]
    · exact ⟨as.length, target, term, by simp, by simpa using hd⟩

/-! ## The target's log -/

section Logs
variable [LawfulLog N C L] [Fintype N] {h h' : History N C} {s' : Cluster N C L}

lemma ready_acked {nd : RaftNode N C L} (hk : NodeAck h nd) {target : N} (hr : nd.isTransferReadyLocked target) :
    lastIndex nd.log ≤ h.acked target nd.term := by
  unfold isTransferReadyLocked at hr
  split at hr
  · rename_i p hp
    have htarget : p.1 = target := by simpa using find?_some hp
    obtain ⟨i, hi⟩ := getElem?_of_mem (mem_of_find?_eq_some hp)
    rw [getElem?_zip_eq_some] at hi
    rw [← htarget]
    exact (of_decide_eq_true hr).trans (hk.acked i p.1 p.2 hi.1 hi.2)
  · cases hr

/-- **What a leader counts on when it finds a peer ready, the peer has, as long as neither is in a later term.** -/
lemma foundReady_held (rep : AckRep h s) (hh : Holds h) {n target : N} {term : ℕ}
    (hfound : FoundReady (s.nodes n) target) (hterm : (s.nodes n).term = term) (path : Path majorities True h h')
    (rep' : AckRep h' s') (hn : (s'.nodes n).term ≤ term) (ht : (s'.nodes target).term ≤ term) :
    entries (s.nodes n).log <+: entries (s'.nodes target).log := by
  have hlead := (rep.log.nodes n).lead hfound.role
  have hack := ready_acked (rep.nodes n hfound.role) hfound.ready
  rw [lastIndex_eq _ (rep.log.nodes n).plain.whole] at hack
  have hlog : entries (s.nodes n).log = h.tlog (s.nodes n).term := by
    rw [← (rep.log.nodes n).log, ← (rep.log.nodes n).term]
    exact rep.log.base.lead_log n (by rw [(rep.log.nodes n).term]; exact hlead)
  rw [hterm] at hlead hack hlog
  have hgrow := path.grows rep.log.base
  have hkept : (h'.tlog term).take (h'.acked target term) <+: h'.log target :=
    path.holds trivial rep.log.base rep.safe hh term n target (hgrow.leader _ _ hlead)
      (by rw [(rep'.log.nodes n).term]; exact hn) (by rw [(rep'.log.nodes target).term]; exact ht)
  rw [← (rep'.log.nodes target).log]
  refine List.IsPrefix.trans ?_ hkept
  rw [prefix_take_iff, hlog]
  refine ⟨hgrow.tlog _ (by rw [hlead]; simp), ?_⟩
  rw [← hlog]
  exact hack.trans (path.acked trivial rep.log.base rep.safe target term)

/-- **Leadership is handed to a caught-up node.** -/
theorem handover_caught_up (config : N → ClusterConfig N) (hc : ∀ n m, m ∈ (config n).voters.ids ↔ m ≠ n)
    (as : List (Action N C L)) (ha : ∀ a ∈ as, a.Steady) (hs : along countsRight (init config) as) (k : ℕ)
    (o : Handover N) (hsend : (run (init config) as).hands k = some o)
    (hsame : ∀ i o', as[i]? = some (.advance k) → (run (init config) (as.take i)).decides k = some o' →
      o'.target = o.target ∧ o'.term = o.term) (hleader : ((run (init config) as).nodes o.leader).term ≤ o.term)
    (htarget : ((run (init config) as).nodes o.target).term ≤ o.term) :
    (∃ i, as[i]? = some (.advance k) ∧ (run (init config) (as.take i)).decides k = some o) ∧
    ∀ i, as[i]? = some (.advance k) → (run (init config) (as.take i)).decides k = some o → ∀ j e,
      get ((run (init config) (as.take i)).nodes o.leader).log (j + 1) = some e →
      get ((run (init config) as).nodes o.target).log (j + 1) = some e := by
  refine ⟨?_, fun i hi hd j e he => ?_⟩
  · obtain ⟨f, hk, howner, hpc⟩ := hands_spec hsend
    obtain ⟨i, target, term, hi, hd⟩ := sends_decided config as hk hpc
    obtain ⟨rfl, rfl⟩ : target = o.target ∧ term = o.term := hsame i _ hi hd
    exact ⟨i, hi, by rw [hd, howner]⟩
  · -- the run up to the decision, the decision, and the run from there to the send
    obtain ⟨hlt, hget⟩ := List.getElem?_eq_some_iff.1 hi
    have hsplit : as = (as.take i ++ [.advance k]) ++ as.drop (i + 1) := by
      rw [← hget, take_concat_get', take_append_drop]
    obtain ⟨hfound, hterm, hlog⟩ := decides_spec hd
    rw [hsplit, along_append, Bool.and_eq_true] at hs
    obtain ⟨h, path, rep⟩ := ack_run (as.take i ++ [.advance k])
      (fun a h => ha a (by rw [hsplit]; exact mem_append_left _ h)) hs.1 (ackRep_init (L := L) config hc)
    obtain ⟨h', path', rep'⟩ := ack_run (as.drop (i + 1)) (fun a h => ha a (mem_of_mem_drop h)) hs.2 rep
    have hrun : run (run (init config) (as.take i ++ [.advance k])) (as.drop (i + 1)) = run (init config) as := by
      rw [← run_append, ← hsplit]
    have hstep : run (init config) (as.take i ++ [.advance k]) = (run (init config) (as.take i)).step (.advance k) := by
      rw [run_append]; rfl
    rw [hrun] at rep'
    rw [hstep] at rep
    have hpre := foundReady_held rep (path.holds trivial (base_init _) (safe_init _) holds_init) hfound hterm path' rep'
      hleader htarget
    rw [hlog] at hpre
    have hplain := (rep.log.nodes o.leader).plain
    rw [hlog] at hplain
    rw [get_eq _ hplain.whole] at he
    rw [get_eq _ (rep'.log.nodes o.target).plain.whole]
    obtain ⟨rest, hrest⟩ := hpre
    rw [← hrest, getElem?_append_left (List.getElem?_eq_some_iff.1 he).1, he]

end Logs

def transferOne : Steps3 :=
  replicateOne ++ ([.recv 1, .advance 1, .advance 1,
    .call 0 (.heartbeatTick false), .advance 2, .deliver 2, .recv 2, .advance 2, .fail 2, .advance 2,
    .call 0 (.startTransfer 1), .advance 3, .advance 3, .advance 3, .advance 3, .advance 3, .advance 3] : Steps3)

theorem handover_caught_up_transferOne :
    let s := run (init (othersConfig 3)) transferOne
    s.hands 3 = some ⟨0, 1, 1⟩ ∧ (∃ i, transferOne[i]? = some (.advance 3) ∧
      (run (init (othersConfig 3)) (transferOne.take i)).decides 3 = some ⟨0, 1, 1⟩) ∧
    get (s.nodes 1).log 1 = some ⟨1, 1, .client 10⟩ := by
  have hsame : ∀ i o', transferOne[i]? = some (.advance 3) →
      (run (init (othersConfig 3)) (transferOne.take i)).decides 3 = some o' → o'.target = 1 ∧ o'.term = 1 := by
    have hall : ∀ i < transferOne.length, ∀ o' ∈ (run (init (othersConfig 3)) (transferOne.take i)).decides 3,
        o'.target = 1 ∧ o'.term = 1 := by decide +kernel
    intro i o' hi hd
    exact hall i (List.getElem?_eq_some_iff.1 hi).1 o' hd
  have h := handover_caught_up (othersConfig 3) (by decide) transferOne
    (by simp [transferOne, replicateOne, electZero, Action.Steady, Command.isClient]) (by decide +kernel) 3
    ⟨0, 1, 1⟩ (by decide +kernel) hsame (by decide +kernel) (by decide +kernel)
  exact ⟨by decide +kernel, h.1, h.2 29 rfl (by decide +kernel) 0 _ (by decide +kernel)⟩

/-! ## Targets that are not caught up -/

def divergingTarget : Steps3 :=
  electZero ++ ([.call 0 (.submitEntry (.client 10)),
    .call 1 .startElection, .advance 2, .fail 2, .advance 2, .deliver 2, .recv 2, .advance 2,
    .call 1 (.submitEntry (.client 20)),
    .call 1 (.heartbeatTick false), .advance 4, .fail 4, .advance 4, .fail 4, .advance 4,
    .call 1 (.startTransfer 0), .advance 5, .advance 5, .advance 5, .advance 5, .advance 5,
    .call 1 (.heartbeatTick false), .advance 6, .deliver 6, .recv 6, .advance 6, .fail 6] : Steps3)

/-- node 1 finds node 0 ready and tells it to stand for election, although node 0 has another entry at index 1 -/
theorem diverging_target :
    let s := run (init (othersConfig 3)) divergingTarget
    let s' := (s.step (.advance 6)).step (.advance 6)
    s.decides 6 = some ⟨1, 0, 2⟩ ∧ s'.hands 6 = some ⟨1, 0, 2⟩ ∧
    (s'.nodes 1).term = 2 ∧ (s'.nodes 0).term = 2 ∧
    get (s.nodes 1).log 1 = some ⟨2, 1, .client 20⟩ ∧ get (s'.nodes 0).log 1 = some ⟨1, 1, .client 10⟩ := by
  decide +kernel

end Cluster

end MaxRedis.Raft

/-
What a leader knows of its peers' logs.

A leader counts, per peer, the length of the log that the peer has acknowledged.
-/
import MaxRedis.Raft.LogMatching

namespace MaxRedis.Raft

open LogStorage LawfulLog RaftNode TermLog List Option

variable {N C L : Type}

/-! ## The counters of a node -/

structure NodeAck [DecidableEq N] (h : History N C) (nd : RaftNode N C L) : Prop where
  peers : nd.lastPeerIds = nd.getPeerIdsLocked
  len : nd.peerLastLogIndex.length ≤ nd.lastPeerIds.length
  acked : ∀ (i : ℕ) (p : N) (x : ℕ), nd.lastPeerIds[i]? = some p → nd.peerLastLogIndex[i]? = some x →
    x ≤ h.acked p nd.term

section
variable [DecidableEq N] {h h' : History N C} {nd nd' : RaftNode N C L}

lemma NodeAck.of_same (hk : NodeAck h nd) (hs : nd'.arrays = nd.arrays)
    (hp : nd'.getPeerIdsLocked = nd.getPeerIdsLocked)
    (ht : nd'.term = nd.term) (hm : ∀ n t, h.acked n t ≤ h'.acked n t) : NodeAck h' nd' := by
  have hpeers : nd'.lastPeerIds = nd.lastPeerIds := congrArg PeerArrays.ids hs
  have hlast : nd'.peerLastLogIndex = nd.peerLastLogIndex := congrArg PeerArrays.lastLog hs
  refine ⟨by rw [hpeers, hp]; exact hk.peers, by rw [hpeers, hlast]; exact hk.len, fun i p x h1 h2 => ?_⟩
  rw [hpeers] at h1
  rw [hlast] at h2
  rw [ht]
  exact (hk.acked i p x h1 h2).trans (hm _ _)

lemma NodeAck.set (hk : NodeAck h nd) {i : ℕ} {p : N} {x : ℕ} (hi : nd.lastPeerIds[i]? = some p)
    (hx : x ≤ h.acked p nd.term) (hpe : nd'.lastPeerIds = nd.lastPeerIds)
    (hl : nd'.peerLastLogIndex = nd.peerLastLogIndex.set i x) (hp : nd'.getPeerIdsLocked = nd.getPeerIdsLocked)
    (ht : nd'.term = nd.term) : NodeAck h nd' := by
  refine ⟨by rw [hpe, hp]; exact hk.peers, by rw [hpe, hl, length_set]; exact hk.len, fun j q y h1 h2 => ?_⟩
  rw [hpe] at h1
  rw [hl, getElem?_set] at h2
  rw [ht]
  split_ifs at h2 with hij hlt
  · subst hij
    rw [hi] at h1
    rw [← some.inj h1, ← some.inj h2]
    exact hx
  · exact hk.acked j q y h1 h2

variable [LogStorage N C L]

lemma NodeAck.of_leads {mid : RaftNode N C L} (hl : Leads mid nd') : NodeAck h nd' := by
  have hp := getPeerIdsLocked_eq hl.data
  refine ⟨by rw [hl.peers, hp], by rw [hl.lastLog, hl.peers, length_replicate], fun i p x _ h2 => ?_⟩
  rw [hl.lastLog] at h2
  have := eq_of_mem_replicate (mem_of_getElem? h2)
  omega

lemma NodeAck.refresh (hk : NodeAck h nd) : NodeAck h nd.refreshPeers := by
  have hp := getPeerIdsLocked_eq (refreshPeers_only nd).data
  refine ⟨hp.symm, ?_, fun i p x h1 h2 => ?_⟩
  · show (resize nd.peerLastLogIndex nd.getPeerIdsLocked.length 0).length ≤ nd.getPeerIdsLocked.length
    simp [resize]
    omega
  · have h1' : nd.lastPeerIds[i]? = some p := by rw [hk.peers]; exact h1
    have h2' : (resize nd.peerLastLogIndex nd.getPeerIdsLocked.length 0)[i]? = some x := h2
    unfold resize at h2'
    rw [getElem?_append] at h2'
    split_ifs at h2' with hi
    · rw [getElem?_take_of_lt (by simp at hi; omega)] at h2'
      exact hk.acked i p x h1' h2'
    · have := eq_of_mem_replicate (mem_of_getElem? h2')
      omega

lemma NodeAck.recordHeartbeatAcks (hk : NodeAck h nd) (ps : List (N × ℕ))
    (hps : ∀ x ∈ ps, x.2 ≤ h.acked x.1 nd.term) : NodeAck h (nd.recordHeartbeatAcks ps) := by
  have hstart : NodeAck h { nd.refreshPeers with peerHbOk := nd.refreshPeers.peerHbOk.map (fun _ => false) } :=
    hk.refresh.of_same rfl rfl rfl (fun _ _ => le_rfl)
  have hfold : ∀ (l : List (N × ℕ)) (x : RaftNode N C L), x.term = nd.term → (∀ y ∈ l, y.2 ≤ h.acked y.1 nd.term) →
      NodeAck h x → NodeAck h (l.foldl recordHeartbeatAck x) := by
    intro l
    induction l with
    | nil => exact fun _ _ _ hx => hx
    | cons y _ ih =>
      intro x hx hy hax
      have ho := recordHeartbeatAck_only x y
      refine ih _ (ho.same.term.trans hx) (fun z hz => hy z (mem_cons_of_mem _ hz)) ?_
      unfold recordHeartbeatAck
      dsimp only
      split_ifs with hi
      · refine hax.set (i := x.lastPeerIds.idxOf y.1) (x := y.2) (getElem?_idxOf (idxOf_lt_length_iff.1 hi))
          (by rw [hx]; exact hy y mem_cons_self) rfl rfl rfl rfl
      · exact hax
  exact hfold ps _ rfl hps hstart

lemma NodeAck.recordPeerRsps (ps : List (PeerReq N C × PeerRsp)) (hk : NodeAck h nd) (hsn : nd.lastSnapshotIndex = 0)
    (hps : ∀ x ∈ ps, nd.getPeerIdsLocked[x.1.idx]? = some x.1.id ∧
      (x.2.ok → x.2.matchIndex ≤ h.acked x.1.id nd.term)) : NodeAck h (ps.foldl recordPeerRsp nd) := by
  induction ps generalizing nd with
  | nil => exact hk
  | cons y _ ih =>
    obtain ⟨h1, h2⟩ := hps y mem_cons_self
    have ho := recordPeerRsp_only nd y
    have hpe := getPeerIdsLocked_eq ho.data
    refine ih ?_ (ho.data.snap.trans hsn) (fun x hx => ?_)
    · unfold recordPeerRsp
      dsimp only
      split_ifs with hok hb
      · exact hk.set (by rw [hk.peers]; exact h1) (h2 hok) rfl rfl rfl rfl
      · rw [hsn] at hb; omega
      · -- only the next index moves back
        exact ⟨hk.peers, hk.len, hk.acked⟩
    · rw [hpe, ho.same.term]
      exact hps x (mem_cons_of_mem _ hx)

variable [LawfulLog N C L]

lemma NodeAck.of_heartbeatFinish {nd : RaftNode N C L} (hk : nd.role = .leader → NodeAck h nd) {isLoop : Bool}
    {epoch ackCount : ℕ} {rspLastLog : List (N × ℕ)} {maxPeerTerm : ℕ}
    (hps : ¬ (isLoop ∧ nd.heartbeatEpoch ≠ epoch) → nd.role = .leader → ∀ x ∈ rspLastLog, x.2 ≤ h.acked x.1 nd.term)
    (hr : (nd.heartbeatFinish isLoop epoch ackCount rspLastLog maxPeerTerm).1.role = .leader) :
    NodeAck h (nd.heartbeatFinish isLoop epoch ackCount rspLastLog maxPeerTerm).1 := by
  rcases heartbeatFinish_spec nd isLoop epoch ackCount rspLastLog maxPeerTerm with he | ⟨-, he⟩ | ⟨hloop, hl, hkept⟩
  · rw [he] at hr ⊢; exact hk hr
  · rw [he, becomeFollowerLocked_role] at hr; cases hr
  · obtain ⟨c, hc⟩ := advanceCommitIndexLocked_eq (nd.recordHeartbeatAcks rspLastLog)
    have hacks := (hk hl).recordHeartbeatAcks rspLastLog (hps hloop hl)
    have hadv : NodeAck h (nd.recordHeartbeatAcks rspLastLog).advanceCommitIndexLocked := by
      rw [hc]; exact hacks.of_same rfl rfl rfl (fun _ _ => le_rfl)
    exact hadv.of_same hkept.arrays (getPeerIdsLocked_eq hkept.data) (hkept.quiet.role (by rw [hr]; simp)).2
      (fun _ _ => le_rfl)

lemma NodeAck.commitAndApply {nd : RaftNode N C L} (hk : NodeAck h nd)
    (hp : nd.advanceCommitIndexLocked.maybeAutoFinalizeJointLocked.applyCommittedLogsLocked.getPeerIdsLocked =
      nd.getPeerIdsLocked) :
    NodeAck h nd.advanceCommitIndexLocked.maybeAutoFinalizeJointLocked.applyCommittedLogsLocked :=
  hk.of_same (commitAndApply_arrays nd) hp (commitAndApply_same nd).term (fun _ _ => le_rfl)

lemma NodeAck.of_replicateFinish {nd : RaftNode N C L} (hk : nd.role = .leader → NodeAck h nd)
    (hsn : nd.lastSnapshotIndex = 0) {currentTerm : ℕ} {rsps : List (PeerReq N C × PeerRsp)}
    (hp : (nd.replicateFinish currentTerm rsps).1.getPeerIdsLocked = nd.getPeerIdsLocked)
    (hps : ∀ x ∈ rsps, nd.getPeerIdsLocked[x.1.idx]? = some x.1.id ∧
      (x.2.ok → x.2.matchIndex ≤ h.acked x.1.id currentTerm))
    (hr : (nd.replicateFinish currentTerm rsps).1.role = .leader) :
    NodeAck h (nd.replicateFinish currentTerm rsps).1 := by
  rcases replicateFinish_spec nd currentTerm rsps with he | ⟨t, -, he⟩ | ⟨hl, hterm, he⟩
  · rw [he] at hr ⊢; exact hk hr
  · rw [he, becomeFollowerLocked_role] at hr; cases hr
  · have ho := foldl_recordPeerRsp_only rsps nd
    rw [he] at hp ⊢
    rw [← hterm] at hps
    exact ((hk hl).recordPeerRsps rsps hsn hps).commitAndApply
      (hp.trans (getPeerIdsLocked_eq ho.data).symm)

end

/-! ## The answers on their way -/

def Asked (pc : Pc N C) (dst : N) (req : Request N C) : Prop :=
  match pc with
  | .heartbeat b => req = .heartbeat b.req
  | .replicate r => ∃ p rest leader commit, r.todo = p :: rest ∧ dst = p.id ∧
      req = .appendEntries ⟨r.currentTerm, leader, p.prev.index, p.prev.term, p.entries, commit⟩
  | _ => True

def Answered (h : History N C) (owner : N) (pc : Pc N C) (dst : N) (rsp : Response) : Prop :=
  match pc, rsp with
  | .heartbeat b, .heartbeat a =>
    a.success → a.term = b.req.term → h.term owner = b.req.term → a.lastLogIndex ≤ h.acked dst b.req.term
  | .replicate r, .appendEntries a =>
    ∀ p rest, r.todo = p :: rest → a.success → p.prev.index + p.entries.length ≤ h.acked p.id r.currentTerm
  | .replicate _, .installSnapshot a => a.success = false
  | _, _ => True

structure AckOk (h : History N C) (peers : N → List N) (f : Fiber N C) : Prop where
  beat : ∀ b, f.pc = .heartbeat b → b.req.term ≤ h.term f.owner ∧
    (h.term f.owner = b.req.term → ∀ x ∈ b.rspLastLog, x.2 ≤ h.acked x.1 b.req.term)
  round : ∀ r, f.pc = .replicate r → (∀ p ∈ r.todo, (peers f.owner)[p.idx]? = some p.id) ∧
    ∀ x ∈ r.rsps, (peers f.owner)[x.1.idx]? = some x.1.id ∧ (x.2.ok → x.2.matchIndex ≤ h.acked x.1.id r.currentTerm)
  asked : ∀ env, f.rpc = some env → Asked f.pc env.dst env.request
  answered : ∀ env rsp, f.rpc = some env → env.response = some rsp → Answered h f.owner f.pc env.dst rsp

structure More (h h' : History N C) : Prop where
  term : ∀ n, h.term n ≤ h'.term n
  acked : ∀ n t, h.acked n t ≤ h'.acked n t

section
variable {h h' : History N C} {peers : N → List N} {f g : Fiber N C} {rsp : Response}

lemma Answered.mono {owner dst : N} {pc : Pc N C} (ha : Answered h owner pc dst rsp) (hm : More h h')
    (hb : ∀ b, pc = .heartbeat b → b.req.term ≤ h.term owner) : Answered h' owner pc dst rsp := by
  cases pc with
  | heartbeat b =>
    cases rsp with
    | heartbeat =>
      intro h1 h2 h3
      have hle := hb b rfl
      have hle' := hm.term owner
      exact (ha h1 h2 (by omega)).trans (hm.acked _ _)
    | _ => trivial
  | replicate =>
    cases rsp with
    | appendEntries => exact fun p rest ht hs => (ha p rest ht hs).trans (hm.acked _ _)
    | installSnapshot => exact ha
    | _ => trivial
  | _ => trivial

lemma AckOk.mono (hf : AckOk h peers f) (hm : More h h') : AckOk h' peers f := by
  refine ⟨fun b hb => ⟨(hf.beat b hb).1.trans (hm.term _), fun ht x hx => ?_⟩,
    fun r hr => ⟨(hf.round r hr).1, fun x hx => ?_⟩,
    hf.asked, fun env rsp he hr => (hf.answered env rsp he hr).mono hm (fun b hb => (hf.beat b hb).1)⟩
  · have hle := (hf.beat b hb).1
    have hle' := hm.term f.owner
    exact ((hf.beat b hb).2 (by omega) x hx).trans (hm.acked _ _)
  · obtain ⟨h1, h2⟩ := (hf.round r hr).2 x hx
    exact ⟨h1, fun hok => (h2 hok).trans (hm.acked _ _)⟩

lemma AckOk.like (hl : f.Like g) (hg : AckOk h peers g) : AckOk h peers f := by
  refine ⟨fun b hb => ?_, fun r hr => ?_, fun env he => ?_, fun env rsp he hr => ?_⟩
  · rw [hl.owner]; exact hg.beat b (by rw [← hl.pc]; exact hb)
  · rw [hl.owner]; exact hg.round r (by rw [← hl.pc]; exact hr)
  · rw [hl.pc]; exact hg.asked env (by rw [← hl.rpc]; exact he)
  · rw [hl.owner, hl.pc]; exact hg.answered env rsp (by rw [← hl.rpc]; exact he) hr

lemma AckOk.of_pc (hpc : (∀ b, f.pc ≠ .heartbeat b) ∧ ∀ r, f.pc ≠ .replicate r) : AckOk h peers f := by
  refine ⟨fun b hb => absurd hb (hpc.1 b), fun r hr => absurd hr (hpc.2 r), fun env _ => ?_, fun env rsp _ _ => ?_⟩
  · unfold Asked
    split
    · rename_i b hb; exact absurd hb (hpc.1 b)
    · rename_i r hr; exact absurd hr (hpc.2 r)
    · trivial
  · unfold Answered
    split
    · exact absurd ‹f.pc = _› (hpc.1 _)
    · exact absurd ‹f.pc = _› (hpc.2 _)
    · exact absurd ‹f.pc = _› (hpc.2 _)
    · trivial

lemma AckOk.of_inert (hpc : f.pc.inert) : AckOk h peers f :=
  .of_pc ⟨fun b hb => by rw [hb] at hpc; exact hpc, fun r hr => by rw [hr] at hpc; exact hpc⟩

section
variable (hf : AckOk h peers f)
include hf

lemma AckOk.idle (hr : f.rpc = none) {pc : Pc N C}
    (hb : ∀ b', pc = .heartbeat b' → ∃ b, f.pc = .heartbeat b ∧ b'.req = b.req ∧ b'.rspLastLog = b.rspLastLog)
    (hrd : ∀ r', pc = .replicate r' → ∃ r, f.pc = .replicate r ∧ r'.currentTerm = r.currentTerm ∧ r'.todo <:+ r.todo ∧
      ∀ x ∈ r'.rsps, x ∈ r.rsps ∨ (x.1 ∈ r.todo ∧ x.2.ok = false)) : AckOk h peers { f with pc := pc } := by
  refine ⟨fun b' hb' => ?_, fun r' hr' => ?_, fun env he => ?_, fun env rsp he => ?_⟩
  · obtain ⟨b, h1, h2, h3⟩ := hb b' hb'
    rw [h2, h3]; exact hf.beat b h1
  · obtain ⟨r, h1, h2, h3, h4⟩ := hrd r' hr'
    obtain ⟨g1, g2⟩ := hf.round r h1
    refine ⟨fun p hp => g1 p (h3.subset hp), fun x hx => ?_⟩
    rw [h2]
    rcases h4 x hx with hx | ⟨hx, hno⟩
    · exact g2 x hx
    · exact ⟨g1 _ hx, fun hok => by rw [hno] at hok; cases hok⟩
  · exact absurd he (by simp [hr])
  · exact absurd he (by simp [hr])

lemma AckOk.answer {dst : N} (ha : Answered h f.owner f.pc dst rsp) :
    AckOk h peers { f with pc := f.pc.onRsp dst rsp, rpc := none } := by
  cases hp : f.pc with
  | heartbeat b =>
    obtain ⟨h1, h2⟩ := hf.beat b hp
    rw [hp] at ha
    cases rsp with
    | heartbeat =>
      refine ⟨fun b' hb' => ?_,
        fun r hr => by simp [Pc.onRsp] at hr, fun _ h => by simp at h, fun _ _ h => by simp at h⟩
      simp only [Pc.onRsp, Pc.heartbeat.injEq] at hb'
      subst hb'
      refine ⟨h1, fun ht x hx => ?_⟩
      simp only [HeartbeatRound.onRsp] at hx
      split_ifs at hx with hc
      · rcases mem_append.1 hx with hx | hx
        · exact h2 ht x hx
        · simp only [Bool.and_eq_true, decide_eq_true_eq] at hc
          rw [mem_singleton.1 hx]
          exact ha hc.1 hc.2 ht
      · exact h2 ht x hx
    | _ =>
      refine ⟨fun b' hb' => ?_,
        fun r hr => by simp [Pc.onRsp] at hr, fun _ h => by simp at h, fun _ _ h => by simp at h⟩
      simp only [Pc.onRsp, Pc.heartbeat.injEq] at hb'
      subst hb'
      exact ⟨h1, h2⟩
  | replicate r =>
    obtain ⟨h1, h2⟩ := hf.round r hp
    rw [hp] at ha
    -- one more answer: of the first peer that was still to be asked
    have hone : ∀ rsp : PeerReq N C → PeerRsp, (∀ p rest, r.todo = p :: rest → (rsp p).ok →
        (rsp p).matchIndex ≤ h.acked p.id r.currentTerm) →
        AckOk h peers { f with pc := .replicate (r.onRsp rsp), rpc := none } := by
      intro rsp hrsp
      refine ⟨fun _ h => by simp at h, fun r' hr' => ?_, fun _ h => by simp at h, fun _ _ h => by simp at h⟩
      cases hr'
      unfold ReplicateRound.onRsp
      split
      · exact ⟨h1, h2⟩
      · rename_i p rest ht
        refine ⟨fun q hq => h1 q (by rw [ht]; exact mem_cons_of_mem _ hq), fun x hx => ?_⟩
        rcases mem_append.1 hx with hx | hx
        · exact h2 x hx
        · rw [mem_singleton.1 hx]
          exact ⟨h1 p (by rw [ht]; exact mem_cons_self), hrsp p rest ht⟩
    cases rsp with
    | appendEntries =>
      refine hone _ (fun p rest ht hok => ?_)
      unfold PeerReq.onAppend at hok ⊢
      split_ifs at hok ⊢ with hs
      exact ha p rest ht hs
    | installSnapshot a =>
      refine hone _ (fun p rest ht hok => ?_)
      have hno : a.success = false := ha
      simp [PeerReq.onSnapshot, hno] at hok
    | _ =>
      refine ⟨fun b hb => by simp [Pc.onRsp] at hb, fun r' hr' => ?_, fun _ h => by simp at h,
        fun _ _ h => by simp at h⟩
      simp only [Pc.onRsp, Pc.replicate.injEq] at hr'
      subst hr'
      exact ⟨h1, h2⟩
  | _ => refine .of_pc ⟨fun b hb => ?_, fun r hr => ?_⟩ <;> cases rsp <;> simp_all [Pc.onRsp]

lemma AckOk.sent (env : Envelope N C) (ha : Asked f.pc env.dst env.request)
    (hr : ∀ rsp, env.response = some rsp → Answered h f.owner f.pc env.dst rsp) :
    AckOk h peers { f with rpc := some env } := by
  refine ⟨hf.beat, hf.round, fun env' he => ?_, fun env' rsp he hrsp => ?_⟩
  · rw [← some.inj he]; exact ha
  · rw [← some.inj he] at hrsp ⊢; exact hr rsp hrsp

lemma answered_failed {env : Envelope N C}
    (he : f.rpc = some env) : Answered h f.owner f.pc env.dst env.request.failed := by
  have ha := hf.asked env he
  cases hp : f.pc with
  | heartbeat b =>
    rw [hp] at ha
    rw [show env.request = .heartbeat b.req from ha]
    exact fun h => by cases h
  | replicate =>
    rw [hp] at ha
    obtain ⟨p, rest, leader, commit, -, -, hreq⟩ := ha
    rw [hreq]
    exact fun _ _ _ h => by cases h
  | _ => trivial

end

end

/-! ## A step -/

namespace Cluster

/-- the length that a heartbeat's answer reports is right: while the sender is in the request's term, the receiver's
last entry is the sender's as well -/
def ackSound [LogStorage N C L] (s : Cluster N C L) (a : Action N C L) : Bool :=
  match a, s.delivered a with
  | .deliver _, some (dst, .heartbeat r) =>
    let leader := s.nodes r.leaderId
    let nd := s.nodes dst
    decide (leader.term ≠ r.term) || decide (r.term < nd.term) || decide (lastIndex nd.log = 0) ||
    decide ((get leader.log (lastIndex nd.log)).map LogEntry.term = some (LogStorage.lastTerm nd.log))
  | _, _ => true

def countSound (s : Cluster N C L) (a : Action N C L) : Bool :=
  match a with
  | .advance k =>
    match s.fibers[k]? with
    | some ⟨n, .heartbeat b, none, _⟩ =>
      !b.todo.isEmpty || (b.isLoop && decide ((s.nodes n).heartbeatEpoch ≠ b.epoch)) ||
      decide ((s.nodes n).role ≠ .leader) || decide ((s.nodes n).term = b.req.term)
    | _ => true
  | _ => true

variable [DecidableEq N] [LogStorage N C L] [LawfulLog N C L] [Fintype N]
variable {h h' : History N C} {s s' : Cluster N C L} {a : Action N C L}

structure AckRep (h : History N C) (s : Cluster N C L) : Prop where
  log : LogRep h s
  safe : Safe majorities h
  nodes : ∀ n, (s.nodes n).role = .leader → NodeAck h (s.nodes n)
  fibers : ∀ f ∈ s.fibers, AckOk h (fun n => (s.nodes n).getPeerIdsLocked) f

lemma peers_const (rep : LogRep h s) (rep' : LogRep h' s') (ha : a.Steady) (ht : Trans s a s') (n : N) :
    (s'.nodes n).getPeerIdsLocked = (s.nodes n).getPeerIdsLocked := by
  have hconf : (s'.nodes n).clusterConfig = (s.nodes n).clusterConfig ∧ (s'.nodes n).idOrder = (s.nodes n).idOrder := by
    rcases trans_clean rep.fixed (Steady.fixed ha) ht n with hm | ⟨r, rfl, -⟩
    · exact (hm (rep.fixed.nodes n).clean).2
    · exact ha.elim
  unfold getPeerIdsLocked peerSet
  rw [hconf.2, (rep.fixed.nodes n).clean.state, (rep'.fixed.nodes n).clean.state, hconf.1, rep.votes.id, rep'.votes.id]

def StillCounts (nd nd' : RaftNode N C L) : Prop :=
  nd'.role = .leader → nd.role = .leader ∧ nd'.term = nd.term ∧ nd'.arrays = nd.arrays

variable {nd nd' : RaftNode N C L} {b : HeartbeatRound N} {h1 : History N C}

lemma StillCounts.of_role (h : nd'.role ≠ .follower → nd'.role = nd.role ∧ nd'.term = nd.term)
    (ha : nd'.arrays = nd.arrays) : StillCounts nd nd' := by
  intro hr
  obtain ⟨h1, h2⟩ := h (by rw [hr]; simp)
  exact ⟨h1.symm.trans hr, h2, ha⟩

lemma beat_acks (rep : AckRep h s) {k : ℕ} {f : Fiber N C} (hk : s.fibers[k]? = some f) (hr : f.rpc = none)
    (hf : f.pc = .heartbeat b) (ht : b.todo = []) (hc : s.countSound (.advance k))
    (hloop : ¬ (b.isLoop ∧ (s.nodes f.owner).heartbeatEpoch ≠ b.epoch)) (hl : (s.nodes f.owner).role = .leader) :
    ∀ x ∈ b.rspLastLog, x.2 ≤ h.acked x.1 (s.nodes f.owner).term := by
  have hterm : (s.nodes f.owner).term = b.req.term := by
    obtain ⟨owner, pc, rpc, w⟩ := f
    subst hf hr
    simp only [countSound, hk, ht, Bool.or_eq_true, Bool.and_eq_true, decide_eq_true_eq] at hc
    tauto
  rw [hterm]
  exact ((rep.fibers f (mem_of_getElem? hk)).beat b hf).2 (by rw [(rep.log.nodes f.owner).term, hterm])

lemma ack_nodes (rep : AckRep h s) (hm : More h h') (ha : a.Steady) (hc : s.countSound a)
    (hp : ∀ n, (s'.nodes n).getPeerIdsLocked = (s.nodes n).getPeerIdsLocked)
    (hs : ∀ dst r, s.delivered a ≠ some (dst, .installSnapshot r)) (ht : Trans s a s') (n : N)
    (hr : (s'.nodes n).role = .leader) : NodeAck h' (s'.nodes n) := by
  have hold : (s.nodes n).role = .leader → NodeAck h' (s.nodes n) :=
    fun hr => (rep.nodes n hr).of_same rfl rfl rfl hm.acked
  have hstill : StillCounts (s.nodes n) (s'.nodes n) → NodeAck h' (s'.nodes n) := by
    intro hst
    obtain ⟨h1, h2, h3⟩ := hst hr
    exact (hold h1).of_same h3 (hp n) h2 (fun _ _ => le_rfl)
  have hpn := hp n
  cases ht.node n with
  | kept _ hk => exact hstill (.of_role hk.quiet.role hk.arrays)
  | applied _ _ _ _ _ eq =>
    have happ := applyCommittedLogsLocked_applies (s.nodes n)
    exact hstill (by rw [eq]; exact .of_role happ.same.quiet.role happ.arrays)
  | persisted _ _ _ _ _ eq => exact hstill (by rw [eq]; exact fun hr => ⟨hr, rfl, rfl⟩)
  | campaign _ hcamp => rw [hcamp.role] at hr; cases hr
  | boot _ _ _ _ _ hl => exact .of_leads hl
  | wins _ _ _ _ _ _ _ _ hw => exact .of_leads hw.leads
  | countBeats _ _ hk hrpc ho _ hf htodo eq =>
    subst ho
    rw [eq] at hr ⊢
    exact NodeAck.of_heartbeatFinish hold (fun hloop hl x hx =>
      (beat_acks rep hk hrpc hf htodo hc hloop hl x hx).trans (hm.acked _ _)) hr
  | append _ _ eq => exact hstill (by rw [eq]; exact fun hr => ⟨hr, rfl, rfl⟩)
  | refresh _ eq => rw [eq] at hr ⊢; exact (hold hr).refresh
  | countAppends _ f hk ho r hf eq =>
    subst ho
    rw [eq] at hr hpn ⊢
    exact NodeAck.of_replicateFinish hold (rep.log.nodes f.owner).snap hpn
      (((rep.fibers f (mem_of_getElem? hk)).mono hm).round r hf).2 hr
  | alone _ _ _ _ eq =>
    rw [eq] at hr hpn ⊢
    unfold replicateAlone at hr hpn ⊢
    split_ifs at hr hpn ⊢ with hl
    · exact hold hr
    · exact (hold (not_not.1 hl)).commitAndApply hpn
  | config | snapshot => exact ha.elim
  | grants _ _ _ hg => exact hstill (.of_role hg.role hg.arrays)
  | beaten _ req _ eq =>
      exact hstill (by rw [eq]; exact .of_role (onHeartbeat_quiet _ req).role (onHeartbeat_arrays _ req))
  | adopts _ req _ eq =>
    exact hstill (by rw [eq]; exact .of_role (onAppendEntries_quiet _ req).role (onAppendEntries_arrays _ req))
  | installs _ req hd => exact absurd hd (hs n req)
  | restart => exact ha.elim

lemma ack_fibers (rep : AckRep h s) (hm : More h h')
    (hp : ∀ n, (s'.nodes n).getPeerIdsLocked = (s.nodes n).getPeerIdsLocked)
    (hans : ∀ k f dst req, a = .deliver k → s.fibers[k]? = some f → f.rpc = some ⟨dst, req, none⟩ →
      s'.nodes dst = (s.handle dst req).1.nodes dst → Answered h' f.owner f.pc dst (s.handle dst req).2)
      (ht : Trans s a s') : ∀ f ∈ s'.fibers, AckOk h' (fun n => (s'.nodes n).getPeerIdsLocked) f := by
  rw [show (fun n => (s'.nodes n).getPeerIdsLocked) = fun n => (s.nodes n).getPeerIdsLocked from funext hp]
  set peers := fun n => (s.nodes n).getPeerIdsLocked
  have hold : ∀ f ∈ s.fibers, AckOk h' peers f := fun f hf => (rep.fibers f hf).mono hm
  have hmem : ∀ {k : ℕ} {f : Fiber N C}, s.fibers[k]? = some f → AckOk h' peers f :=
    fun hk => hold _ (mem_of_getElem? hk)
  intro f hf
  replace hf := ht.fiber f hf
  cases hf with
  | like _ _ g hg hl => exact (hold g hg).like hl
  | inert _ _ hi => exact .of_inert hi.pc
  | elect => exact .of_pc ⟨fun b hb => by simp [electionFiber] at hb, fun r hr => by simp [electionFiber] at hr⟩
  | sendVote _ _ _ _ he => exact .of_pc ⟨fun b hb => by simp [he] at hb, fun r hr => by simp [he] at hr⟩
  | stopVotes _ _ _ hr => exact .of_pc ⟨fun _ h => by simp at h, fun _ h => by simp at h⟩
  | beat n =>
    refine ⟨fun b hb => ?_, fun _ h => by simp at h, fun _ h => by simp at h, fun _ _ h => by simp at h⟩
    cases hb
    exact ⟨by rw [← (rep.log.nodes n).term]; exact hm.term n, fun _ _ h => by simp at h⟩
  | sendBeat _ _ hk _ he => exact (hmem hk).sent _ (by rw [he]; rfl) (fun _ h => by simp at h)
  | stopBeats _ _ hk hr b he =>
    refine (hmem hk).idle hr (fun b' hb' => ?_) (fun _ h => by simp at h)
    cases hb'
    exact ⟨b, he, rfl, rfl⟩
  | round _ f _ hr =>
    refine ⟨fun _ h => by simp at h, fun r hr' => ?_, fun env he => by simp [hr] at he,
      fun env rsp he => by simp [hr] at he⟩
    cases hr'
    refine ⟨fun p hpm => ?_, fun _ h => by simp at h⟩
    simp only [mem_filterMap, map_eq_some_iff] at hpm
    obtain ⟨i, -, id, hid, rfl⟩ := hpm
    obtain ⟨h1, h2⟩ := buildPeerReq_id (s.nodes f.owner).refreshPeers id i
    rw [h1, h2]
    exact hid
  | sendAppend _ f hk _ r he p rest htodo _ hreq =>
    obtain ⟨-, hsnap, -⟩ :=
      ((rep.log.fibers f (mem_of_getElem? hk)).round r he).2 p (by rw [htodo]; exact mem_cons_self)
    unfold buildRequest at hreq
    rw [hsnap] at hreq
    refine (hmem hk).sent _ ?_ (fun _ h => by simp at h)
    rw [he]
    exact ⟨p, rest, (s.nodes f.owner).nodeId, (s.nodes f.owner).commitIndex, htodo, rfl, (some.inj hreq).symm⟩
  | skipPeers _ _ hk hr r he _ htodo =>
    refine (hmem hk).idle hr (fun _ h => by simp at h) (fun r' hr' => ?_)
    cases hr'
    exact ⟨r, he, rfl, htodo, fun x hx => Or.inl hx⟩
  | noSnapshot _ _ hk hr r he p rest htodo =>
    refine (hmem hk).idle hr (fun _ h => by simp at h) (fun r' hr' => ?_)
    cases hr'
    refine ⟨r, he, rfl, by rw [htodo]; exact suffix_cons p rest, fun x hx => ?_⟩
    rcases mem_append.1 hx with hx | hx
    · exact Or.inl hx
    · rw [mem_singleton.1 hx, htodo]; exact Or.inr ⟨mem_cons_self, rfl⟩
  | answer _ f hf env hr rsp hrsp =>
    refine (hold f hf).answer ?_
    rcases hrsp with hrsp | rfl
    · exact (hold f hf).answered env rsp hr hrsp
    · exact answered_failed (hold f hf) hr
  | deliver k f hk dst req hr hn =>
    refine (hmem hk).sent ⟨dst, req, some _⟩ ((hmem hk).asked ⟨dst, req, none⟩ hr) (fun rsp he => ?_)
    rw [← some.inj he]
    exact hans k f dst req rfl hk hr hn

def Note (ev : Ev N (LogEntry N C)) : Prop := (∃ n t m, ev = .ack n t m) ∨ ∃ c i, ev = .commit c i

lemma LogRep.note (rep : LogRep h s) {ev : Ev N (LogEntry N C)} (hev : Note ev) (ok : Ok majorities h ev) :
    LogRep (record h ev) s := by
  have hb := base_record rep.base ok
  have hl : Later h (record h ev) := ⟨grows_record rep.base ok, fun _ _ _ => camp_record rep.base ok⟩
  have hf : ∀ f ∈ s.fibers, LogOk (record h ev) f := fun f hf => (rep.fibers f hf).mono hl
  have hn : ∀ x ∈ s.net, ReqOk (record h ev) x.1 x.2 := fun x hx => (rep.net x hx).mono hl
  rcases hev with ⟨n, t, m, rfl⟩ | ⟨c, i, rfl⟩
  · refine ⟨hb, rep.votes, rep.fixed, fun n => ?_, rep.numbered, hf, hn⟩
    obtain ⟨h1, h2, h3, h4, h5, h6⟩ := rep.nodes n
    exact ⟨h1, h2, h3, h4, h5, h6⟩
  · refine ⟨hb, rep.votes, rep.fixed, fun n => ?_, rep.numbered, hf, hn⟩
    obtain ⟨h1, h2, h3, h4, h5, h6⟩ := rep.nodes n
    exact ⟨h1, h2, h3, h4, h5, h6⟩

lemma ack_note (rep1 : LogRep h1 s') (g : Grows h h1) {n : N} {t m : ℕ}
    (ht : (s'.nodes n).term = t) (hl : h.leader t ≠ none) (hm : m ≤ (h.tlog t).length)
    (hlog : (h.tlog t).take m <+: entries (s'.nodes n).log) :
    ∃ h', Path majorities True h1 h' ∧ LogRep h' s' ∧ h'.commit = h1.commit ∧ m ≤ h'.acked n t := by
  have hg := g.tlog t hl
  have hr := rep1.nodes n
  have ok : Ok majorities h1 (.ack n t m) := by
    refine ⟨hr.term.trans ht, g.leader_ne hl, hm.trans hg.length_le, ?_⟩
    rw [hr.log]
    obtain ⟨r, hr'⟩ := hg
    rwa [← hr', take_append_of_le_length hm]
  refine ⟨_, .one _ ok (fun _ => trivial), rep1.note (Or.inl ⟨n, t, m, rfl⟩) ok, rfl, ?_⟩
  simp only [record, set2_self]
  exact le_max_right _ _

lemma onHeartbeat_success (nd : RaftNode N C L) (req : HeartbeatRequest N) (p : Plain nd.log)
    (hs : (nd.onHeartbeat req).2.success) : nd.term ≤ req.term ∧ (nd.onHeartbeat req).1.term = req.term ∧
      (nd.onHeartbeat req).2.lastLogIndex = (entries nd.log).length ∧
      entries (nd.onHeartbeat req).1.log = entries nd.log := by
  have hmax := becomeFollowerLocked_term nd req.term
  have hlog := (becomeFollowerLocked_data nd req.term).log
  by_cases h1 : req.term < nd.term
  · unfold onHeartbeat at hs; rw [if_pos h1] at hs; cases hs
  unfold onHeartbeat
  split_ifs with h2
  · dsimp only
    generalize nd.becomeFollowerLocked req.term = mid at hmax hlog
    refine ⟨by omega, ?_⟩
    split_ifs
    · have happ := applyCommittedLogsLocked_applies { mid with commitIndex := req.leaderCommit }
      have hent := happ.log.entries.trans (congrArg entries hlog)
      refine ⟨happ.same.term.trans (hmax.trans (by omega)), ?_, hent⟩
      rw [lastIndex_eq _ (happ.log.plain (by rw [hlog]; exact p)).whole, hent]
    · exact ⟨hmax.trans (by omega), by rw [hlog, lastIndex_eq _ p.whole], by rw [hlog]⟩
  · exact ⟨by omega, by dsimp only; omega, lastIndex_eq _ p.whole, rfl⟩

section
variable (rep : AckRep h s)
include rep

lemma heartbeat_answered (rep1 : LogRep h1 s') (more : More h h1)
    (g : Grows h h1) {k : ℕ} {f : Fiber N C} (hk : s.fibers[k]? = some f)
    (hf : f.pc = .heartbeat b) {dst : N} (hr : f.rpc = some ⟨dst, .heartbeat b.req, none⟩)
    (hs : s.ackSound (.deliver k)) (hn : s'.nodes dst = ((s.nodes dst).onHeartbeat b.req).1) :
    ∃ h', Path majorities True h1 h' ∧ LogRep h' s' ∧ h'.commit = h1.commit ∧
      Answered h' f.owner (.heartbeat b) dst (.heartbeat ((s.nodes dst).onHeartbeat b.req).2) := by
  obtain ⟨hlead, hid, -⟩ := (rep.log.fibers f (mem_of_getElem? hk)).beat b hf
  have hle := ((rep.fibers f (mem_of_getElem? hk)).beat b hf).1
  have hnd := rep.log.nodes dst
  have hown := rep.log.nodes f.owner
  by_cases hgo : ((s.nodes dst).onHeartbeat b.req).2.success ∧ h1.term f.owner = b.req.term
  swap
  · exact ⟨h1, .refl, rep1, rfl, fun h2 _ h3 => absurd ⟨h2, h3⟩ hgo⟩
  obtain ⟨hsucc, hcur⟩ := hgo
  obtain ⟨h2, h3, h4, h5⟩ := onHeartbeat_success (s.nodes dst) b.req hnd.plain hsucc
  have hterm : (s.nodes f.owner).term = b.req.term := by
    have := more.term f.owner
    have := hown.term
    omega
  have htlog : entries (s.nodes f.owner).log = h.tlog b.req.term := by
    rw [← hown.log, ← hterm, ← hown.term]
    exact rep.log.base.lead_log f.owner (by rw [hown.term, hterm]; exact hlead)
  -- the receiver's log is the beginning of the sender's
  have hpre : entries (s.nodes dst).log <+: h.tlog b.req.term := by
    obtain ⟨owner, pc, rpc, w⟩ := f
    subst hr
    simp only [ackSound, delivered, hk, hid, hterm, lastIndex_eq _ hnd.plain.whole, lastTerm_eq _ hnd.plain.whole,
      Bool.or_eq_true,
      decide_eq_true_eq] at hs
    rcases hs with ((hs | hs) | hs) | hs
    · exact absurd rfl hs
    · omega
    · rw [length_eq_zero_iff.1 hs]; exact nil_prefix
    · rw [← htlog]
      refine prefix_of_last (match_of_good (h := h) ?_ ?_) (fun i hi => ?_)
      · rw [← hnd.log]; exact rep.log.base.log_good dst
      · rw [← hown.log]; exact rep.log.base.log_good owner
      · rwa [hi, get_eq _ hown.plain.whole] at hs
  obtain ⟨h', p, rep', hcom, hack⟩ := ack_note rep1 g (n := dst) (m := (entries (s.nodes dst).log).length)
    (by rw [hn]; exact h3) (by rw [hlead]; simp) hpre.length_le
    (by rw [hn, h5, ← prefix_iff_eq_take.1 hpre])
  exact ⟨h', p, rep', hcom, fun _ _ _ => by rw [h4]; exact hack⟩

lemma appendEntries_answered (rep1 : LogRep h1 s') (g : Grows h h1)
    {dst owner : N} {r : ReplicateRound N C} {p : PeerReq N C} {rest : List (PeerReq N C)} (htodo : r.todo = p :: rest)
      (hdst : dst = p.id) {req : AppendEntriesRequest N C} (hterm : req.term = r.currentTerm)
      (hprev : req.prevLogIndex = p.prev.index)
    (hes : req.entries = p.entries) (hreq : ReqOk h dst (.appendEntries req))
    (hn : s'.nodes dst = ((s.nodes dst).onAppendEntries req).1) :
    ∃ h', Path majorities True h1 h' ∧ LogRep h' s' ∧ h'.commit = h1.commit ∧
      Answered h' owner (.replicate r) dst (.appendEntries ((s.nodes dst).onAppendEntries req).2) := by
  rcases onAppendEntries_rep rep.log.base (rep.log.nodes dst) rep.log.numbered hreq with ⟨hno, -⟩ | ⟨log, acc⟩
  · exact ⟨h1, .refl, rep1, rfl, fun _ _ _ hs => by rw [hno] at hs; cases hs⟩
  obtain ⟨hlog, -⟩ := commitFromLeader_log { (s.nodes dst).observe req.term with log := log } req.leaderCommit
  have hnode := hn
  rw [acc.eq] at hnode
  have hcur : (s'.nodes dst).term = req.term := by
    rw [hnode]
    refine (commitFromLeader_same _ _).term.trans ?_
    show ((s.nodes dst).observe req.term).term = _
    rw [observe_term]; have := acc.le; omega
  obtain ⟨h', path, rep', hcom, hack⟩ := ack_note rep1 g (n := dst) (m := req.prevLogIndex + req.entries.length) hcur
    (by rw [hreq.1]; simp) acc.len (by rw [hnode]; exact (hlog.entries ▸ acc.agree :))
  refine ⟨h', path, rep', hcom, fun q rest' hq _ => ?_⟩
  rw [htodo] at hq
  obtain rfl : p = q := (cons.inj hq).1
  rw [← hprev, ← hes, ← hterm, ← hdst]
  exact hack

lemma ack_answered (rep1 : LogRep h1 s') (more : More h h1) (g : Grows h h1)
    (hs : s.ackSound a) : ∃ h', Path majorities True h1 h' ∧ LogRep h' s' ∧ h'.commit = h1.commit ∧
      ∀ k f dst req, a = .deliver k → s.fibers[k]? = some f → f.rpc = some ⟨dst, req, none⟩ →
        s'.nodes dst = (s.handle dst req).1.nodes dst → Answered h' f.owner f.pc dst (s.handle dst req).2 := by
  by_cases hx : ∃ k f dst req, a = .deliver k ∧ s.fibers[k]? = some f ∧ f.rpc = some ⟨dst, req, none⟩ ∧
      s'.nodes dst = (s.handle dst req).1.nodes dst
  swap
  · exact ⟨h1, .refl, rep1, rfl, fun k f dst req h2 h3 h4 h5 => absurd ⟨k, f, dst, req, h2, h3, h4, h5⟩ hx⟩
  obtain ⟨k, f, dst, req, rfl, hk, hr, hn⟩ := hx
  suffices hone : ∃ h', Path majorities True h1 h' ∧ LogRep h' s' ∧ h'.commit = h1.commit ∧
      Answered h' f.owner f.pc dst (s.handle dst req).2 by
    obtain ⟨h', p, rep', hcom, ha⟩ := hone
    refine ⟨h', p, rep', hcom, fun k' f' dst' req' h2 h3 h4 _ => ?_⟩
    cases h2
    cases hk.symm.trans h3
    cases hr.symm.trans h4
    exact ha
  have hmem := mem_of_getElem? hk
  have hask := (rep.fibers f hmem).asked _ hr
  cases hpc : f.pc with
  | heartbeat b =>
    rw [hpc] at hask
    obtain rfl : req = .heartbeat b.req := hask
    refine heartbeat_answered rep rep1 more g hk hpc hr hs ?_
    rw [hn]; exact setNode_self _ _ _
  | replicate =>
    rw [hpc] at hask
    obtain ⟨p, rest, leader, commit, htodo, hdst, rfl⟩ := hask
    refine appendEntries_answered rep rep1 g htodo hdst rfl rfl rfl ((rep.log.fibers f hmem).sent _ hr) ?_
    rw [hn]; exact setNode_self _ _ _
  | _ => exact ⟨h1, .refl, rep1, rfl, trivial⟩

theorem ack_step (ha : a.Steady) (hk : s.keepsCommon a) (hs : s.ackSound a) (hc : s.countSound a)
    (ht : Trans s a s') : ∃ h', Path majorities True h h' ∧ AckRep h' s' ∧ h'.commit = h.commit := by
  obtain ⟨h1, p1, rep1, hcom1⟩ := log_step rep.log ha ht
  have hb := rep.log.base
  have more1 : More h h1 := ⟨p1.term, p1.acked hk hb rep.safe⟩
  obtain ⟨h', p2, rep', hcom2, hans⟩ := ack_answered rep rep1 more1 (p1.grows hb) hs
  have p : Path majorities True h h' := (p1.weaken (fun _ => hk)).trans p2
  have more : More h h' := ⟨p.term, p.acked trivial hb rep.safe⟩
  have hp := peers_const rep.log rep' ha ht
  exact ⟨h', p, ⟨rep', p.safe trivial hb rep.safe,
    ack_nodes rep more ha hc hp (fun dst r hd => rep.log.delivered_ok hd) ht, ack_fibers rep more hp hans ht⟩,
    hcom2.trans hcom1⟩

end

lemma ackRep_init (config : N → ClusterConfig N) (hc : ∀ n m, m ∈ (config n).voters.ids ↔ m ≠ n) :
    AckRep Hist.init (init config : Cluster N C L) :=
  ⟨logRep_init config hc, safe_init _, fun n hr => absurd hr (by simp [init]), fun f hf => by simp [init] at hf⟩

end Cluster

end MaxRedis.Raft

/-
A cluster of fixed membership, without snapshots and restarts, as a term log.

`LogRep h s`: the history `h` of `MaxRedis.TermLog` stands for the state `s`.
-/
import MaxRedis.Core.Path
import MaxRedis.Raft.Conflict

namespace MaxRedis.Raft

open LogStorage LawfulLog RaftNode TermLog List

variable {N C L : Type}

/-! ## Requests and the history -/

def Slice (T : List (LogEntry N C)) (prevIdx prevTerm : ℕ) (es : List (LogEntry N C)) : Prop :=
  (0 < prevIdx ∧ prevTerm = 0 ∧ es = []) ∨
  (prevIdx ≤ T.length ∧ (∀ i e, prevIdx = i + 1 → T[i]? = some e → e.term = prevTerm) ∧ T.take prevIdx ++ es <+: T)

lemma Slice.mono {T T' : List (LogEntry N C)} {k t : ℕ} {es : List (LogEntry N C)} (h : Slice T k t es)
    (hT : T <+: T') : Slice T' k t es := by
  rcases h with h | ⟨h1, h2, h3⟩
  · exact Or.inl h
  · obtain ⟨r, rfl⟩ := hT
    refine Or.inr ⟨by rw [length_append]; omega, fun i e hi he => h2 i e hi ?_, ?_⟩
    · rwa [getElem?_append_left (by omega)] at he
    · rw [take_append_of_le_length h1]
      exact h3.trans (prefix_append _ _)

abbrev History (N C : Type) := Hist N (LogEntry N C)

def CampOk (h : History N C) (r : VoteRequest N) : Prop :=
  ∃ l, h.camp r.candidateId r.term = some l ∧ r.lastLogIndex = l.length ∧ r.lastLogTerm = lastTerm l

def ReqOk (h : History N C) (dst : N) : Request N C → Prop
  | .vote r => CampOk h r
  | .heartbeat r => h.leader r.term = some r.leaderId ∧ r.leaderId ≠ dst
  | .appendEntries r =>
    h.leader r.term = some r.leaderId ∧ r.leaderId ≠ dst ∧ r.entries.length ≤ maxAppendBatch ∧
    Slice (h.tlog r.term) r.prevLogIndex r.prevLogTerm r.entries
  | .installSnapshot _ => False
  | _ => True

structure LogOk (h : History N C) (f : Fiber N C) : Prop where
  camp : ∀ e, f.pc = .election e → CampOk h e.req
  beat : ∀ b, f.pc = .heartbeat b → h.leader b.req.term = some f.owner ∧ b.req.leaderId = f.owner ∧ f.owner ∉ b.todo
  round : ∀ r, f.pc = .replicate r → h.leader r.currentTerm = some f.owner ∧
    ∀ p ∈ r.todo, p.id ≠ f.owner ∧ p.needSnapshot = false ∧ p.entries.length ≤ maxAppendBatch ∧
      Slice (h.tlog r.currentTerm) p.prev.index p.prev.term p.entries
  sent : ∀ env, f.rpc = some env → ReqOk h env.dst env.request

structure Later (h h' : History N C) : Prop where
  grows : Grows h h'
  camp : ∀ n t l, h.camp n t = some l → h'.camp n t = some l

lemma CampOk.mono {h h' : History N C} {r : VoteRequest N} (hc : CampOk h r) (hl : Later h h') : CampOk h' r := by
  obtain ⟨l, h1, h2⟩ := hc
  exact ⟨l, hl.camp _ _ _ h1, h2⟩

lemma ReqOk.mono {h h' : History N C} {dst : N} {req : Request N C} (hr : ReqOk h dst req) (hl : Later h h') :
    ReqOk h' dst req := by
  cases req with
  | vote => exact CampOk.mono hr hl
  | heartbeat => exact ⟨hl.grows.leader _ _ hr.1, hr.2⟩
  | appendEntries =>
    obtain ⟨h1, h2, h3, h4⟩ := hr
    exact ⟨hl.grows.leader _ _ h1, h2, h3, h4.mono (hl.grows.tlog _ (by rw [h1]; simp))⟩
  | installSnapshot => exact hr
  | readIndex | timeoutNow => trivial

lemma LogOk.mono {h h' : History N C} {f : Fiber N C} (hf : LogOk h f) (hl : Later h h') : LogOk h' f := by
  refine ⟨fun e he => (hf.camp e he).mono hl, fun b hb => ?_, fun r hr => ?_, fun env he => (hf.sent env he).mono hl⟩
  · exact ⟨hl.grows.leader _ _ (hf.beat b hb).1, (hf.beat b hb).2⟩
  · obtain ⟨h1, h2⟩ := hf.round r hr
    refine ⟨hl.grows.leader _ _ h1, fun p hp => ?_⟩
    obtain ⟨h3, h4, h5, h6⟩ := h2 p hp
    exact ⟨h3, h4, h5, h6.mono (hl.grows.tlog _ (by rw [h1]; simp))⟩

section
variable {h : History N C} {f g : Fiber N C}

lemma LogOk.like (hl : f.Like g) (hg : LogOk h g) : LogOk h f := by
  refine ⟨fun e he => hg.camp e (by rw [← hl.pc]; exact he), fun b hb => ?_, fun r hr => ?_, fun env he => ?_⟩
  · rw [hl.owner]; exact hg.beat b (by rw [← hl.pc]; exact hb)
  · rw [hl.owner]; exact hg.round r (by rw [← hl.pc]; exact hr)
  · exact hg.sent env (by rw [← hl.rpc]; exact he)

lemma LogOk.inert (hi : f.Inert) : LogOk h f := by
  have hpc := hi.pc
  refine ⟨fun e he => ?_, fun b hb => ?_, fun r hr => ?_, fun env he => ?_⟩
  · rw [he] at hpc; exact hpc.elim
  · rw [hb] at hpc; exact hpc.elim
  · rw [hr] at hpc; exact hpc.elim
  · have := hi.rpc env he
    revert this
    cases env.request <;> simp [Request.inert, ReqOk]

lemma LogOk.answer (hf : LogOk h f) (dst : N) (rsp : Response) :
    LogOk h { f with pc := f.pc.onRsp dst rsp, rpc := none } := by
  have hround : ∀ (r : ReplicateRound N C) g, f.pc = .replicate r →
      h.leader (r.onRsp g).currentTerm = some f.owner ∧
      ∀ p ∈ (r.onRsp g).todo, p.id ≠ f.owner ∧ p.needSnapshot = false ∧ p.entries.length ≤ maxAppendBatch ∧
        Slice (h.tlog (r.onRsp g).currentTerm) p.prev.index p.prev.term p.entries := by
    intro r g hr
    unfold ReplicateRound.onRsp
    split
    · exact hf.round r hr
    · rename_i x rest hx
      refine ⟨(hf.round r hr).1, fun p hp => (hf.round r hr).2 p ?_⟩
      rw [hx]; exact mem_cons_of_mem _ hp
  refine ⟨fun e he => ?_, fun b hb => ?_, fun r hr => ?_, nofun⟩
  · cases hp : f.pc with
    | election e0 =>
      simp only [hp] at he
      have h0 := hf.camp e0 hp
      cases rsp <;> simp only [Pc.onRsp, Pc.election.injEq] at he <;> subst he <;> exact h0
    | _ => simp only [hp] at he; cases rsp <;> simp [Pc.onRsp] at he
  · cases hp : f.pc with
    | heartbeat b0 =>
      simp only [hp] at hb
      obtain ⟨h1, h2, h3⟩ := hf.beat b0 hp
      cases rsp with
      | heartbeat =>
        simp only [Pc.onRsp, Pc.heartbeat.injEq] at hb
        subst hb
        exact ⟨h1, h2, fun hm => h3 (mem_of_mem_tail hm)⟩
      | _ => simp only [Pc.onRsp, Pc.heartbeat.injEq] at hb; subst hb; exact ⟨h1, h2, h3⟩
    | _ => simp only [hp] at hb; cases rsp <;> simp [Pc.onRsp] at hb
  · cases hp : f.pc with
    | replicate r0 =>
      simp only [hp] at hr
      cases rsp with
      | appendEntries => simp only [Pc.onRsp, Pc.replicate.injEq] at hr; subst hr; exact hround r0 _ hp
      | installSnapshot => simp only [Pc.onRsp, Pc.replicate.injEq] at hr; subst hr; exact hround r0 _ hp
      | _ => simp only [Pc.onRsp, Pc.replicate.injEq] at hr; subst hr; exact hf.round r0 hp
    | _ => simp only [hp] at hr; cases rsp <;> simp [Pc.onRsp] at hr

end

/-! ## Nodes and the history -/

def Action.Steady : Action N C L → Prop
  | .call _ (.beginConfigChange _) | .call _ .createSnapshotIfNeeded | .restart _ _ => False
  | .call _ (.submitEntry command) => command.isClient
  | _ => True

namespace Cluster

section
variable [LogStorage N C L]

/-- the tail cut of `OnAppendEntries` loses nothing that sender and receiver share: if the receiver has all the entries
sent, its next entry is not of the same term as the sender's -/
def keepsTail (leader nd : RaftNode N C L) (r : AppendEntriesRequest N C) : Bool :=
  match r.entries.getLast? with
  | none => true
  | some last =>
    decide (r.term < nd.term) || !(r.entries.all fun e => (get nd.log e.index).map LogEntry.term = some e.term) ||
    (match get nd.log (last.index + 1), get leader.log (last.index + 1) with
     | some x, some y => decide (x.term ≠ y.term)
     | _, _ => true)

def keepsCommon (s : Cluster N C L) (a : Action N C L) : Bool :=
  match s.delivered a with
  | some (dst, .appendEntries r) => keepsTail (s.nodes r.leaderId) (s.nodes dst) r
  | _ => true

end

variable [DecidableEq N] [LogStorage N C L] [LawfulLog N C L] {s s' : Cluster N C L} {a : Action N C L}

lemma Steady.fixed (h : a.Steady) : a.FixedMembership := by
  cases a with
  | call _ c => cases c <;> first | exact h | trivial
  | restart => exact h.elim
  | _ => trivial

inductive NodeMove (s : Cluster N C L) (a : Action N C L) (n : N) (nd' : RaftNode N C L) : Prop where
  | quiet (quiet : Quiet (s.nodes n) nd') (log : SameLog (s.nodes n).log nd'.log)
      (snap : nd'.lastSnapshotIndex = (s.nodes n).lastSnapshotIndex)
  | campaign (h : Campaigns (s.nodes n) nd')
  | grant (req : VoteRequest N) (hd : s.delivered a = some (n, .vote req)) (h : Grants (s.nodes n) nd' req)
  | boot (peers : (s.nodes n).getPeerIdsLocked = []) (mid : RaftNode N C L)
      (before : ((s.nodes n).role = .candidate ∧ mid = s.nodes n) ∨ Campaigns (s.nodes n) mid) (leads : Leads mid nd')
  | elected (f : Fiber N C) (mem : f ∈ s.fibers) (owner : f.owner = n) (e : Election N) (pc : f.pc = .election e)
      (todo : e.todo = []) (wins : Wins (s.nodes n) nd' e.req e.result e.granters)
  | append (role : (s.nodes n).role = .leader) (command : Command N C)
      (eq : nd' = { s.nodes n with log := append (s.nodes n).log ⟨(s.nodes n).term, 0, command⟩ false })
  | adopt (req : AppendEntriesRequest N C) (hd : s.delivered a = some (n, .appendEntries req))
      (eq : nd' = ((s.nodes n).onAppendEntries req).1)

lemma NodeMove.of_data {n : N} {nd' : RaftNode N C L} (hq : Quiet (s.nodes n) nd') (hd : SameData (s.nodes n) nd') :
    NodeMove s a n nd' :=
  .quiet hq (by rw [hd.log]; exact SameLog.refl _) hd.snap

lemma NodeMove.of_kept {n : N} {nd' : RaftNode N C L} (h : Kept (s.nodes n) nd') : NodeMove s a n nd' :=
  .of_data h.quiet h.data

lemma NodeMove.of_applies {n : N} {mid nd' : RaftNode N C L} (hq : Quiet (s.nodes n) mid)
    (hl : mid.log = (s.nodes n).log) (hs : mid.lastSnapshotIndex = (s.nodes n).lastSnapshotIndex)
    (h : Applies mid nd') : NodeMove s a n nd' :=
  .quiet (hq.trans h.same.quiet) (by rw [← hl]; exact h.log) (h.snap.trans hs)

lemma NodeMove.of_commitAndApply {n : N} {mid : RaftNode N C L} (hs : (s.nodes n).configState = .stable)
    (h : OnlyPeers (s.nodes n) mid) :
    NodeMove s a n mid.advanceCommitIndexLocked.maybeAutoFinalizeJointLocked.applyCommittedLogsLocked := by
  obtain ⟨c, hc⟩ := advanceCommitIndexLocked_eq mid
  rw [commitAndApply_stable mid (h.data.state.trans hs)]
  have happ := applyCommittedLogsLocked_applies mid.advanceCommitIndexLocked
  have hlog : mid.advanceCommitIndexLocked.log = (s.nodes n).log := by rw [hc]; exact h.data.log
  exact .of_applies (h.same.trans (advanceCommitIndexLocked_same mid)).quiet hlog (by rw [hc]; exact h.data.snap) happ

lemma NodeMove.of_heartbeatFinish (n : N) (isLoop : Bool) (epoch ackCount : ℕ) (rspLastLog : List (N × ℕ))
    (maxPeerTerm : ℕ) : NodeMove s a n
    ((s.nodes n).heartbeatFinish isLoop epoch ackCount rspLastLog maxPeerTerm).1 := by
  rcases heartbeatFinish_spec (s.nodes n) isLoop epoch ackCount rspLastLog maxPeerTerm with h | ⟨-, h⟩ | ⟨-, -, h⟩
  · rw [h]; exact .of_kept (Kept.refl _)
  · rw [h]; exact .of_kept (becomeFollowerLocked_kept _ _)
  · have ho := recordHeartbeatAcks_only (s.nodes n) rspLastLog
    obtain ⟨c, hc⟩ := advanceCommitIndexLocked_eq ((s.nodes n).recordHeartbeatAcks rspLastLog)
    refine .quiet ((ho.same.trans (advanceCommitIndexLocked_same _)).quiet.trans h.quiet) ?_ ?_
    · rw [h.data.log, hc]
      rw [ho.data.log]
      exact SameLog.refl _
    · rw [h.data.snap, hc]; exact ho.data.snap

lemma NodeMove.of_replicateFinish {n : N} (hs : (s.nodes n).configState = .stable) (currentTerm : ℕ)
    (rsps : List (PeerReq N C × PeerRsp)) : NodeMove s a n ((s.nodes n).replicateFinish currentTerm rsps).1 := by
  rcases replicateFinish_spec (s.nodes n) currentTerm rsps with h | ⟨t, -, h⟩ | ⟨-, -, h⟩
  · rw [h]; exact .of_kept (Kept.refl _)
  · rw [h]; exact .of_kept (becomeFollowerLocked_kept _ _)
  · rw [h]; exact .of_commitAndApply hs (foldl_recordPeerRsp_only rsps _)

lemma NodeMove.of_replicateAlone {n : N} (hs : (s.nodes n).configState = .stable) :
    NodeMove s a n (s.nodes n).replicateAlone := by
  unfold replicateAlone
  split_ifs
  · exact .of_kept (Kept.refl _)
  · exact .of_commitAndApply hs (OnlyPeers.refl _)

lemma NodeMove.of_heartbeat (n : N) (req : HeartbeatRequest N) : NodeMove s a n ((s.nodes n).onHeartbeat req).1 := by
  unfold onHeartbeat
  split_ifs
  · exact .of_kept (Kept.refl _)
  · have hk := becomeFollowerLocked_kept (s.nodes n) req.term
    dsimp only
    split_ifs
    · have hsame := (commitIndex_same ((s.nodes n).becomeFollowerLocked req.term) req.leaderCommit).quiet
      refine .of_applies (hk.quiet.trans hsame) ?_ ?_ (applyCommittedLogsLocked_applies _)
      · exact hk.data.log
      · exact hk.data.snap
    · exact .of_kept hk
  · exact .of_kept (Kept.refl _)

def Moved (s : Cluster N C L) (a : Action N C L) (s' : Cluster N C L) : Prop :=
  s'.nodes = s.nodes ∨ ∃ n nd', NodeMove s a n nd' ∧ s'.nodes = (s.setNode n nd').nodes

lemma trans_moved (ha : a.Steady) (hst : ∀ n, (s.nodes n).configState = .stable)
    (hs : ∀ dst r, s.delivered a ≠ some (dst, .installSnapshot r)) (ht : Trans s a s') : Moved s a s' := by
  refine ht.one.imp_right (fun ⟨n, hn⟩ => ⟨n, s'.nodes n, ?_, hn⟩)
  cases ht.node n with
  | kept _ h => exact .of_kept h
  | applied _ _ _ _ _ eq => rw [eq]; exact .of_applies (Quiet.refl _) rfl rfl (applyCommittedLogsLocked_applies _)
  | persisted _ _ _ _ _ eq =>
    rw [eq]
    exact .quiet (SameVote.quiet (.of_view rfl)) ⟨persist_eq _, persist_whole _, persist_anchor _⟩ rfl
  | campaign _ h => exact .campaign h
  | boot hp _ mid _ hm hl => exact .boot hp mid hm hl
  | wins _ f hk _ ho e he htodo h => exact .elected f (mem_of_getElem? hk) ho e he htodo h
  | countBeats _ _ _ _ _ _ _ _ eq => rw [eq]; exact .of_heartbeatFinish _ _ _ _ _ _
  | append hl command eq => exact .append hl command eq
  | refresh _ eq => rw [eq]; exact .of_data (refreshPeers_only _).same.quiet (refreshPeers_only _).data
  | countAppends _ _ _ _ _ _ eq => rw [eq]; exact .of_replicateFinish (hst n) _ _
  | alone _ _ _ _ eq => rw [eq]; exact .of_replicateAlone (hst n)
  | config | snapshot => exact ha.elim
  | grants _ req hd h => exact .grant req hd h
  | beaten _ req _ eq => rw [eq]; exact .of_heartbeat n req
  | adopts _ req hd eq => exact .adopt req hd eq
  | installs _ req hd => exact absurd hd (hs n req)
  | restart => exact ha.elim

/-! ## One node's move as events -/

structure NodeRep (h : History N C) (n : N) (nd : RaftNode N C L) : Prop where
  plain : Plain nd.log
  snap : nd.lastSnapshotIndex = 0
  term : h.term n = nd.term
  log : h.log n = entries nd.log
  lead : nd.role = .leader → h.leader nd.term = some n
  cand : nd.role = .candidate → h.leader nd.term ≠ some n

/-- the history goes on from `h` to `h'` by what node `n` does, which is `nd` afterwards -/
structure Events (h h' : History N C) (n : N) (nd : RaftNode N C L) : Prop where
  rep : NodeRep h' n nd
  term_ne : ∀ m, m ≠ n → h'.term m = h.term m
  log_ne : ∀ m, m ≠ n → h'.log m = h.log m
  vote_ne : ∀ m, m ≠ n → h'.vote m = h.vote m
  lead_ne : ∀ m, m ≠ n → ∀ t, h'.leader t = some m → h.leader t = some m
  numbered : ∀ t, Numbered (h'.tlog t)
  cur : h'.vote n nd.term = nd.votedFor
  future : ∀ t, nd.term < t → h'.vote n t = none
  /-- a new candidacy is recorded with the log it was made with -/
  camp : nd.role = .candidate → h.term n < nd.term → h'.camp n nd.term = some (h.log n)
  commit : h'.commit = h.commit

lemma Events.trans {h h1 h2 : History N C} {n : N} {mid nd : RaftNode N C L} (e1 : Events h h1 n mid)
    (e2 : Events h1 h2 n nd) (hr : nd.role ≠ .candidate) : Events h h2 n nd :=
  ⟨e2.rep, fun m hm => (e2.term_ne m hm).trans (e1.term_ne m hm), fun m hm => (e2.log_ne m hm).trans (e1.log_ne m hm),
    fun m hm => (e2.vote_ne m hm).trans (e1.vote_ne m hm), fun m hm t ht => e1.lead_ne m hm t (e2.lead_ne m hm t ht),
    e2.numbered, e2.cur, e2.future, fun h => absurd h hr, e2.commit.trans e1.commit⟩

lemma NodeRep.numbered {h : History N C} {n : N} {nd : RaftNode N C L} (r : NodeRep h n nd) : Numbered (h.log n) := by
  rw [r.log]; exact index_eq nd.log r.plain.whole

structure Stands (h : History N C) (n : N) (nd : RaftNode N C L) : Prop where
  rep : NodeRep h n nd
  id : nd.nodeId = n
  cur : h.vote n nd.term = nd.votedFor
  future : ∀ t, nd.term < t → h.vote n t = none
  numbered : ∀ t, Numbered (h.tlog t)

section Events
variable [Fintype N] {K : Prop} {h : History N C} {n : N} {nd nd' : RaftNode N C L}

def majorities : Quorums N := ⟨Majority, fun _ _ hp hq => hp.meet hq⟩

lemma events_quiet (st : Stands h n nd) (hq : Quiet nd nd') (hl : SameLog nd.log nd'.log)
    (hs : nd'.lastSnapshotIndex = nd.lastSnapshotIndex) : ∃ h', Path majorities K h h' ∧ Events h h' n nd' := by
  have hterm := st.rep.term
  refine ⟨_, .one (.observe n nd'.term) (by show h.term n ≤ _; rw [hterm]; exact hq.term) (fun _ => trivial), ?_⟩
  refine ⟨⟨hl.plain st.rep.plain, hs.trans st.rep.snap, ?_, ?_, fun hr => ?_, fun hr => ?_⟩, fun m hm => ?_,
    fun m _ => rfl,
    fun m _ => rfl, fun m _ t ht => ht, st.numbered, ?_, fun t ht => st.future t (hq.term.trans_lt ht),
      fun hr hlt => ?_, rfl⟩
  · simp [record]
  · rw [hl.entries]; exact st.rep.log
  · obtain ⟨h1, h2⟩ := hq.role (by rw [hr]; simp)
    rw [h2]; exact st.rep.lead (by rw [← h1, hr])
  · obtain ⟨h1, h2⟩ := hq.role (by rw [hr]; simp)
    rw [h2]; exact st.rep.cand (by rw [← h1, hr])
  · simp [record, hm]
  · show h.vote n nd'.term = _
    rcases Nat.lt_or_ge nd.term nd'.term with hlt | hge
    · rw [st.future _ hlt, hq.raised hlt]
    · have he : nd'.term = nd.term := le_antisymm hge hq.term
      rw [he, st.cur, hq.vote he]
  · have := (hq.role (by rw [hr]; simp)).2
    omega

lemma events_campaign (b : Base majorities h) (st : Stands h n nd) (hc : Campaigns nd nd') :
    ∃ h', Path majorities K h h' ∧ Events h h' n nd' := by
  have hlt : h.term n < nd'.term := by rw [st.rep.term]; exact hc.term
  refine ⟨_, .one (.campaign n nd'.term) hlt (fun _ => trivial), ?_⟩
  have hpl : Plain nd'.log := by rw [hc.data.log]; exact st.rep.plain
  refine ⟨⟨hpl, hc.data.snap.trans st.rep.snap, ?_, ?_, fun hr => ?_, fun _ hl => ?_⟩, fun m hm => ?_, fun m _ => rfl,
    fun m hm => ?_, fun m _ t ht => ht, st.numbered, ?_, fun t ht => ?_, fun _ _ => set2_self h.camp n _ _, rfl⟩
  · simp [record]
  · rw [hc.data.log]; exact st.rep.log
  · rw [hc.role] at hr; cases hr
  · -- nobody has led a term that the node is only entering
    exact absurd (b.lead_term _ n hl) (by omega)
  · simp [record, hm]
  · funext t; exact set2_ne h.vote _ (Or.inl hm)
  · rw [hc.vote, st.id]; exact set2_self h.vote n _ _
  · exact (set2_ne h.vote _ (Or.inr (by omega))).trans (st.future t (hc.term.trans ht))

lemma events_grant (st : Stands h n nd) {req : VoteRequest N} (hg : Grants nd nd' req)
    (hreq : CampOk h req) : ∃ h', Path majorities K h h' ∧ Events h h' n nd' := by
  obtain ⟨l, hcamp, hli, hlt⟩ := hreq
  have hfree : h.vote n req.term = none ∨ h.vote n req.term = some req.candidateId := by
    rcases Nat.lt_or_ge nd.term req.term with hterm | hterm
    · exact Or.inl (st.future _ hterm)
    · have he : nd.term = req.term := le_antisymm hg.le hterm
      rw [← he, st.cur]; exact hg.free he
  have hrec : Recent l (h.log n) := by
    have h1 := hg.recent
    rw [lastTerm_eq _ st.rep.plain.whole, lastIndex_eq _ st.rep.plain.whole, ← st.rep.log, hli, hlt] at h1
    exact h1
  refine ⟨_, .one (.grant n req.term req.candidateId)
    ⟨by rw [st.rep.term]; exact hg.le, hfree, l, hcamp, hrec⟩ (fun _ => trivial), ?_⟩
  have hpl : Plain nd'.log := by rw [hg.data.log]; exact st.rep.plain
  refine ⟨⟨hpl, hg.data.snap.trans st.rep.snap, ?_, ?_, fun hr => ?_, fun hr => ?_⟩, fun m hm => ?_, fun m _ => rfl,
    fun m hm => ?_, fun m _ t ht => ht, st.numbered, ?_, fun t ht => ?_, fun hr hlt => ?_, rfl⟩
  · simp [record, hg.term]
  · rw [hg.data.log]; exact st.rep.log
  · obtain ⟨h1, h2⟩ := hg.role (by rw [hr]; simp)
    rw [h2]; exact st.rep.lead (by rw [← h1, hr])
  · obtain ⟨h1, h2⟩ := hg.role (by rw [hr]; simp)
    rw [h2]; exact st.rep.cand (by rw [← h1, hr])
  · simp [record, hm]
  · funext t; exact set2_ne h.vote _ (Or.inl hm)
  · rw [hg.vote, hg.term]; exact set2_self h.vote n _ _
  · rw [hg.term] at ht
    exact (set2_ne h.vote _ (Or.inr (by omega))).trans (st.future t (lt_of_le_of_lt hg.le ht))
  · have h1 := (hg.role (by rw [hr]; simp)).2
    have h2 := st.rep.term
    omega

lemma events_win (b : Base majorities h) (st : Stands h n nd) (hl : Leads nd nd') (hr : nd.role = .candidate)
    (hv : nd.votedFor = some n) {q : Finset N} (hq : Majority q) (hqv : ∀ v ∈ q, h.vote v nd.term = some n) :
    ∃ h', Path majorities K h h' ∧ Events h h' n nd' := by
  have hcamp : h.camp n nd.term ≠ none := b.vote_camp n nd.term n (by rw [st.cur, hv])
  have ok : Ok majorities h (.win n nd.term) := ⟨st.rep.term, st.rep.cand hr, hcamp, q, hq, hqv⟩
  refine ⟨_, .one (.win n nd.term) ok (fun _ => trivial), ?_⟩
  have hpl : Plain nd'.log := by rw [hl.data.log]; exact st.rep.plain
  refine ⟨⟨hpl, hl.data.snap.trans st.rep.snap, ?_, ?_, fun _ => ?_, fun hr' => ?_⟩, fun m _ => rfl, fun m _ => rfl,
    fun m _ => rfl, fun m hm t ht => ?_, fun t => ?_, ?_, fun t ht => ?_, fun hr' => ?_, rfl⟩
  · rw [hl.term_eq]; exact st.rep.term
  · rw [hl.data.log]; exact st.rep.log
  · rw [hl.term_eq]; simp [record]
  · rw [hl.role] at hr'; cases hr'
  · by_cases htt : t = nd.term
    · subst htt; simp [record] at ht; exact absurd ht.symm hm
    · simpa [record, htt] using ht
  · by_cases htt : t = nd.term
    · subst htt; simp only [record, Function.update_self]; exact st.rep.numbered
    · simpa [record, htt] using st.numbered t
  · rw [hl.term_eq, hl.vote_eq]; exact st.cur
  · rw [hl.term_eq] at ht; exact st.future t ht
  · rw [hl.role] at hr'; cases hr'

lemma events_append (st : Stands h n nd) (hr : nd.role = .leader) (command : Command N C)
    (he : nd' = { nd with log := append nd.log ⟨nd.term, 0, command⟩ false }) :
    ∃ h', Path majorities K h h' ∧ Events h h' n nd' := by
  subst he
  set e : LogEntry N C := ⟨nd.term, (h.log n).length + 1, command⟩ with hedef
  have hlead : h.leader (h.term n) = some n := by rw [st.rep.term]; exact st.rep.lead hr
  refine ⟨_, .one (.append n e) ⟨hlead, by rw [st.rep.term]; rfl⟩ (fun _ => trivial), ?_⟩
  have hlog : h.log n ++ [e] = entries (append nd.log (⟨nd.term, 0, command⟩ : LogEntry N C) false) := by
    rw [append_eq _ _ _ st.rep.plain.whole, ← st.rep.log]
  have hpl := append_plain nd.log (⟨nd.term, 0, command⟩ : LogEntry N C) false st.rep.plain
  refine ⟨⟨hpl, st.rep.snap, st.rep.term, ?_, fun _ => st.rep.lead hr, fun hc => ?_⟩, fun m _ => rfl, fun m hm => ?_,
    fun m _ => rfl, fun m _ t ht => ht, fun t => ?_, st.cur, st.future, fun hc => ?_, rfl⟩
  · simp only [record, Function.update_self]; exact hlog
  · rw [show nd.role = .candidate from hc] at hr; cases hr
  · simp [record, hm]
  · by_cases htt : t = h.term n
    · subst htt
      simp only [record, Function.update_self]
      rw [hlog]
      exact index_eq _ hpl.whole
    · simpa [record, htt] using st.numbered t
  · rw [show nd.role = .candidate from hc] at hr; cases hr

lemma events_adopt (st : Stands h n nd) (hq : Quiet nd nd') (hlead : ∃ c, h.leader nd'.term = some c ∧ c ≠ n)
    (hp : Plain nd'.log) (hs : nd'.lastSnapshotIndex = nd.lastSnapshotIndex)
    (hl : entries nd'.log <+: h.tlog nd'.term ∨ entries nd'.log <+: h.log n)
    (keep : K → Keep h (.adopt n nd'.term (entries nd'.log))) : ∃ h', Path majorities K h h' ∧ Events h h' n nd' := by
  refine ⟨_, .one (.adopt n nd'.term (entries nd'.log)) ⟨by rw [st.rep.term]; exact hq.term, hlead, hl⟩ keep, ?_⟩
  refine ⟨⟨hp, hs.trans st.rep.snap, ?_, ?_, fun hr => ?_, fun hr => ?_⟩, fun m hm => ?_, fun m hm => ?_,
    fun m _ => rfl, fun m _ t ht => ht, st.numbered, ?_, fun t ht => st.future t (hq.term.trans_lt ht),
      fun hr hlt => ?_, rfl⟩
  · simp [record]
  · simp [record]
  · obtain ⟨h1, h2⟩ := hq.role (by rw [hr]; simp)
    rw [h2]; exact st.rep.lead (by rw [← h1, hr])
  · obtain ⟨h1, h2⟩ := hq.role (by rw [hr]; simp)
    rw [h2]; exact st.rep.cand (by rw [← h1, hr])
  · simp [record, hm]
  · simp [record, hm]
  · show h.vote n nd'.term = _
    rcases Nat.lt_or_ge nd.term nd'.term with hlt | hge
    · rw [st.future _ hlt, hq.raised hlt]
    · have he : nd'.term = nd.term := le_antisymm hge hq.term
      rw [he, st.cur, hq.vote he]
  · have h1 := (hq.role (by rw [hr]; simp)).2
    have h2 := st.rep.term
    omega

/-! ### `OnAppendEntries` -/

lemma match_of_good {l k : List (LogEntry N C)} (hl : Good h l) (hk : Good h k) : Match l k := by
  intro i e f he hf ht
  rw [take_succ_of_getElem? he, take_succ_of_getElem? hf]
  have hi : i < l.length := (List.getElem?_eq_some_iff.1 he).1
  have hj : i < k.length := (List.getElem?_eq_some_iff.1 hf).1
  refine good_agree hl hk ?_ ?_ (by simp; omega) ht
  · rw [← take_succ_of_getElem? he]; exact take_prefix _ _
  · rw [← take_succ_of_getElem? hf]; exact take_prefix _ _

lemma good_pos (b : Base majorities h) {l : List (LogEntry N C)} (hl : Good h l) {i : ℕ} {e : LogEntry N C}
    (he : l[i]? = some e) : 0 < e.term := by
  have hp : l.take i ++ [e] <+: l := by rw [← take_succ_of_getElem? he]; exact take_prefix _ _
  exact b.lead_pos _ (hl _ _ hp).1

variable {req : AppendEntriesRequest N C}

lemma prev_agrees (b : Base majorities h) (rep : NodeRep h n nd) {T : List (LogEntry N C)} (hT : Good h T)
    (hs : Slice T req.prevLogIndex req.prevLogTerm req.entries)
    (h1 : req.prevLogIndex ≤ lastIndex nd.log)
    (h2 : 0 < req.prevLogIndex → getTerm nd.log req.prevLogIndex = req.prevLogTerm) :
    req.prevLogIndex ≤ T.length ∧ T.take req.prevLogIndex ++ req.entries <+: T ∧
      T.take req.prevLogIndex <+: entries nd.log := by
  have hgood : Good h (entries nd.log) := by rw [← rep.log]; exact b.log_good n
  rw [lastIndex_eq _ rep.plain.whole] at h1
  rcases Nat.eq_zero_or_pos req.prevLogIndex with h0 | hpos
  · rcases hs with ⟨hs, -⟩ | ⟨hs, -, hT'⟩
    · omega
    · exact ⟨hs, hT', by rw [h0]; exact nil_prefix⟩
  · obtain ⟨i, hi⟩ : ∃ i, req.prevLogIndex = i + 1 := ⟨req.prevLogIndex - 1, by omega⟩
    have hEi : (entries nd.log)[i]? = some ((entries nd.log)[i]) := getElem?_eq_getElem (by omega)
    have hterm : ((entries nd.log)[i]).term = req.prevLogTerm := by
      rw [← h2 hpos, hi, getTerm_eq _ rep.plain, hEi]; rfl
    rcases hs with ⟨-, hs, -⟩ | ⟨hs, hpt, hT'⟩
    · have := good_pos b hgood hEi
      omega
    · have hTi : T[i]? = some (T[i]) := getElem?_eq_getElem (by omega)
      have hm := match_of_good hgood hT i _ _ hEi hTi (by rw [hterm, hpt i _ hi hTi])
      refine ⟨hs, hT', ?_⟩
      rw [hi, ← hm]
      exact take_prefix _ _

/-- an accepted request, against the log `T` of the leader that sent it -/
structure Accepted (T : List (LogEntry N C)) (nd : RaftNode N C L) (req : AppendEntriesRequest N C) (log : L) :
    Prop where
  le : nd.term ≤ req.term
  eq : nd.onAppendEntries req =
    (({ nd.observe req.term with log := log }).commitFromLeader req.leaderCommit, ⟨req.term, true, lastIndex log⟩)
  plain : Plain log
  slice : T.take req.prevLogIndex ++ req.entries <+: T
  len : req.prevLogIndex + req.entries.length ≤ T.length
  tail : req.entries ≠ [] → (entries log).length ≤ req.prevLogIndex + req.entries.length
  agree : T.take (req.prevLogIndex + req.entries.length) <+: entries log
  result : entries log = entries nd.log ∨ entries log = T.take (req.prevLogIndex + req.entries.length)
  keep : (∀ p, p <+: entries nd.log → p <+: T → p <+: entries log) ∨
    (req.entries ≠ [] ∧ T.take (req.prevLogIndex + req.entries.length) <+: entries nd.log ∧
      entries log = T.take (req.prevLogIndex + req.entries.length))

/-- **`OnAppendEntries`**: a request that is not accepted changes the term at most -/
theorem onAppendEntries_rep (b : Base majorities h) (rep : NodeRep h n nd) (hnum : ∀ t, Numbered (h.tlog t))
    (hreq : ReqOk h n (.appendEntries req)) :
    ((nd.onAppendEntries req).2.success = false ∧ Quiet nd (nd.onAppendEntries req).1 ∧
      SameData nd (nd.onAppendEntries req).1) ∨
    ∃ log, Accepted (h.tlog req.term) nd req log := by
  obtain ⟨-, -, hbatch, hslice⟩ := hreq
  have hT := b.tlog_good req.term
  rcases onAppendEntries_spec nd req with ⟨-, he⟩ | ⟨hle, ⟨hint, he⟩ | ⟨hprev, hpt, log, hcase⟩⟩
  · rw [he]; exact Or.inl ⟨rfl, Quiet.refl nd, SameData.refl nd⟩
  · rw [he]; exact Or.inl ⟨rfl, (observe_kept nd _).quiet, observe_data nd _⟩
  · obtain ⟨h1, h2, h3⟩ := prev_agrees b rep hT hslice hprev hpt
    have hm : Match (entries nd.log) (h.tlog req.term) := match_of_good (by rw [← rep.log]; exact b.log_good n) hT
    obtain ⟨l', hloop, hp, a0, a1, a2, a3⟩ :=
      accept_spec (hnum req.term) req.entries nd.log req.prevLogIndex rep.plain h1 h2 h3 hm
    rw [take_of_length_le hbatch, hloop] at hcase
    rcases hcase with ⟨hc, -⟩ | ⟨hc, he⟩
    · simp at hc
    · obtain rfl : l' = log := by simpa using hc
      refine Or.inr ⟨_, hle, he, hp, h2, ?_, a0, a1, a2, a3⟩
      have := h2.length_le
      rwa [length_append, length_take, Nat.min_eq_left h1] at this

lemma keepsTail_spec {leader : RaftNode N C L} (hk : keepsTail leader nd req)
    {last : LogEntry N C} (hlast : req.entries.getLast? = some last) (hterm : nd.term ≤ req.term)
    (hall : ∀ e ∈ req.entries, (get nd.log e.index).map LogEntry.term = some e.term) {x y : LogEntry N C}
    (hx : get nd.log (last.index + 1) = some x) (hy : get leader.log (last.index + 1) = some y) : x.term ≠ y.term := by
  unfold keepsTail at hk
  rw [hlast] at hk
  simp only [hx, hy, Bool.or_eq_true, decide_eq_true_eq, Bool.not_eq_true', all_eq_false] at hk
  rcases hk with (hk | ⟨e, he, hne⟩) | hk
  · omega
  · exact absurd (hall e he) hne
  · exact hk

lemma Accepted.keeps {log : L} {leader : RaftNode N C L} {T : List (LogEntry N C)}
    (acc : Accepted T nd req log) (hT : Numbered T) (hp : Plain nd.log) (hpl : Plain leader.log)
    (hk : keepsTail leader nd req) (p : List (LogEntry N C)) (h1 : p <+: entries nd.log) (h2 : p <+: T)
    (h3 : p <+: entries leader.log) : p <+: entries log := by
  rcases acc.keep with hkeep | ⟨hne, hhas, hcut⟩
  · exact hkeep p h1 h2
  set m := req.prevLogIndex + req.entries.length with hm
  have hle := acc.len
  rw [hcut]
  refine prefix_take_iff.2 ⟨h2, ?_⟩
  by_contra hlong
  have hpm : p[m]? = some (p[m]) := getElem?_eq_getElem (by omega)
  obtain ⟨last, hlast⟩ : ∃ last, req.entries.getLast? = some last := ⟨_, getLast?_eq_some_getLast hne⟩
  have hli := numbered_getLast hT (by omega) acc.slice hlast
  have hget : ∀ {l : L}, Plain l → p <+: entries l → get l (last.index + 1) = some (p[m]) := by
    intro l hl hpre
    obtain ⟨r, hr⟩ := hpre
    rw [get_eq l hl.whole, hli, ← hr, getElem?_append_left (by omega)]
    exact hpm
  refine keepsTail_spec hk hlast acc.le (fun e he => ?_) (hget hp h1) (hget hpl h3) rfl
  -- the entries sent are the leader's, and the node has them
  obtain ⟨i, hi, rfl⟩ := getElem_of_mem he
  have hTi : T[req.prevLogIndex + i]? = some (req.entries[i]) := by
    obtain ⟨r, hr⟩ := acc.slice
    have hkl : (T.take req.prevLogIndex).length = req.prevLogIndex := by rw [length_take]; omega
    rw [← hr, append_assoc, getElem?_append_right (by omega), hkl, Nat.add_sub_cancel_left,
      getElem?_append_left hi]
    exact getElem?_eq_getElem hi
  have hEi : (entries nd.log)[req.prevLogIndex + i]? = some (req.entries[i]) := by
    obtain ⟨r, hr⟩ := hhas
    rw [← hr, getElem?_append_left (by rw [length_take]; omega), getElem?_take_of_lt (by omega)]
    exact hTi
  rw [hT _ _ hTi, get_eq _ hp.whole, hEi]
  rfl

lemma events_appendEntries (b : Base majorities h) (st : Stands h n nd) {leader : RaftNode N C L}
    (hreq : ReqOk h n (.appendEntries req)) (hl : NodeRep h req.leaderId leader)
    (hk : K → keepsTail leader nd req) : ∃ h', Path majorities K h h' ∧ Events h h' n (nd.onAppendEntries req).1 := by
  rcases onAppendEntries_rep b st.rep st.numbered hreq with ⟨-, hq, hd⟩ | ⟨log, acc⟩
  · exact events_quiet st hq (by rw [hd.log]; exact SameLog.refl _) hd.snap
  have hq := onAppendEntries_quiet nd req
  rw [acc.eq] at hq ⊢
  obtain ⟨hlog, hsnap⟩ := commitFromLeader_log { nd.observe req.term with log := log } req.leaderCommit
  have hent : entries (({ nd.observe req.term with log := log }).commitFromLeader req.leaderCommit).log = entries log :=
    hlog.entries
  have hterm : (({ nd.observe req.term with log := log }).commitFromLeader req.leaderCommit).term = req.term := by
    have h1 : ({ nd.observe req.term with log := log } : RaftNode N C L).term = req.term := by
      show (nd.observe req.term).term = _
      rw [observe_term]; have := acc.le; omega
    exact (commitFromLeader_same _ _).term.trans h1
  refine events_adopt st hq ⟨req.leaderId, by rw [hterm]; exact hreq.1, hreq.2.1⟩ (hlog.plain acc.plain)
    (hsnap.trans (observe_data nd req.term).snap) ?_ (fun hK => ?_)
  · rw [hent, hterm]
    rcases acc.result with h1 | h1
    · rw [h1, st.rep.log]; exact Or.inr (prefix_refl _)
    · rw [h1]; exact Or.inl ( take_prefix _ _)
  · intro c hc p h1 h2 h3
    rw [hterm] at hc h2
    rw [hreq.1] at hc
    obtain rfl := Option.some.inj hc
    rw [hent]
    exact acc.keeps (st.numbered _) st.rep.plain hl.plain (hk hK) p (by rw [← st.rep.log]; exact h1) h2
      (by rw [← hl.log]; exact h3)

end Events

end Cluster

end MaxRedis.Raft

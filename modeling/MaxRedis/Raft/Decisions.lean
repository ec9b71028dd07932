/-
What a node has committed is decided.

A leader commits by counting (`Raft.CommitSoundness`); everyone else takes `leader_commit` from a request.
-/
import MaxRedis.Raft.CommitSoundness

namespace MaxRedis.Raft

open LogStorage LawfulLog RaftNode TermLog List

variable {N C L : Type}

/-! ## One node -/

/-- the committed part of the log is decided, and the state machine has seen the first `lastApplied` entries of it; `lo`
is what the commit index has not gone back below -/
structure NodeCommit [LogStorage N C L] [LawfulLog N C L] (h : History N C) (lo : ℕ) (nd : RaftNode N C L) : Prop where
  lo : lo ≤ nd.commitIndex
  le : nd.lastApplied ≤ nd.commitIndex
  len : nd.commitIndex ≤ (entries nd.log).length
  decided : Decided h nd.term ((entries nd.log).take nd.commitIndex)
  sm : nd.stateMachine = (entries nd.log).take nd.lastApplied

section
variable [LogStorage N C L] [LawfulLog N C L] {h h' : History N C} {lo : ℕ} {nd nd' : RaftNode N C L}

def Advance (h : History N C) (nd : RaftNode N C L) (c : ℕ) : Prop :=
  c = nd.commitIndex ∨
  (nd.commitIndex < c ∧ c ≤ (entries nd.log).length ∧ Decided h nd.term ((entries nd.log).take c))

section
variable (hk : NodeCommit h lo nd)
include hk

lemma NodeCommit.mono (hd : ∀ k p, Decided h k p → Decided h' k p) : NodeCommit h' lo nd :=
  ⟨hk.lo, hk.le, hk.len, hd _ _ hk.decided, hk.sm⟩

lemma NodeCommit.from_zero : NodeCommit h 0 nd :=
  ⟨Nat.zero_le _, hk.le, hk.len, hk.decided, hk.sm⟩

lemma NodeCommit.here : NodeCommit h nd.commitIndex nd :=
  ⟨le_rfl, hk.le, hk.len, hk.decided, hk.sm⟩

lemma NodeCommit.of_data (hd : SameData nd nd') (ht : nd.term ≤ nd'.term) : NodeCommit h lo nd' := by
  refine ⟨by rw [hd.commit]; exact hk.lo, by rw [hd.applied, hd.commit]; exact hk.le,
    by rw [hd.commit, hd.log]; exact hk.len, ?_, ?_⟩
  · rw [hd.commit, hd.log]; exact hk.decided.mono ht
  · rw [hd.sm, hd.applied, hd.log]; exact hk.sm

lemma NodeCommit.of_kept (hd : Kept nd nd') : NodeCommit h lo nd' :=
  hk.of_data hd.data hd.quiet.term

lemma NodeCommit.to {c : ℕ} (ha : Advance h nd c) : NodeCommit h lo { nd with commitIndex := c } := by
  rcases ha with rfl | ⟨h1, h2, h3⟩
  · exact hk
  · exact ⟨hk.lo.trans h1.le, hk.le.trans h1.le, h2, h3, hk.sm⟩

lemma NodeCommit.relog {log : L} (hp : (entries nd.log).take nd.commitIndex <+: entries log) :
    NodeCommit h lo { nd with log := log } := by
  have hlen := hp.length_le
  rw [length_take, Nat.min_eq_left hk.len] at hlen
  have htake : (entries log).take nd.commitIndex = (entries nd.log).take nd.commitIndex := by
    have := prefix_iff_eq_take.1 hp
    rw [length_take, Nat.min_eq_left hk.len] at this
    exact this.symm
  refine ⟨hk.lo, hk.le, hlen, by rw [htake]; exact hk.decided, ?_⟩
  calc nd.stateMachine = ((entries nd.log).take nd.commitIndex).take nd.lastApplied := by
        rw [take_take, Nat.min_eq_left hk.le]; exact hk.sm
    _ = (entries log).take nd.lastApplied := by rw [← htake, take_take, Nat.min_eq_left hk.le]

lemma NodeCommit.apply (hp : Plain nd.log) (hcl : ∀ e ∈ entries nd.log, RaftNode.isClient e) :
    NodeCommit h lo nd.applyCommittedLogsLocked ∧ nd.applyCommittedLogsLocked.lastApplied = nd.commitIndex := by
  have happ := applyCommittedLogsLocked_applies nd
  obtain ⟨h1, h2⟩ := applyCommittedLogsLocked_eq nd hp.whole
  have hmax : max nd.lastApplied (min nd.commitIndex (entries nd.log).length) = nd.commitIndex := by
    have := hk.le
    have := hk.len
    omega
  rw [hmax] at h1 h2
  refine ⟨⟨by rw [happ.commit]; exact hk.lo, by rw [h1, happ.commit],
    by rw [happ.commit, happ.log.entries]; exact hk.len, ?_, ?_⟩, h1⟩
  · rw [happ.commit, happ.log.entries, happ.same.term]; exact hk.decided
  · rw [h2, h1, happ.log.entries, hk.sm,
      filter_eq_self.2 (fun e he => hcl e (mem_of_mem_take (mem_of_mem_drop he)))]
    conv_rhs => rw [← take_append_drop nd.lastApplied ((entries nd.log).take nd.commitIndex)]
    rw [take_take, Nat.min_eq_left hk.le]

lemma NodeCommit.fromLeader (hp : Plain nd.log) (hcl : ∀ e ∈ entries nd.log, RaftNode.isClient e) {lc : ℕ}
    (ha : nd.commitIndex < lc → Advance h nd (min lc (entries nd.log).length)) :
    NodeCommit h lo (nd.commitFromLeader lc) := by
  unfold commitFromLeader
  split_ifs with hlt
  · rw [lastIndex_eq _ hp.whole]
    exact ((hk.to (ha hlt)).apply hp hcl).1
  · exact hk

end

end

/-! ## Requests -/

def CommitOf (h : History N C) (t c : ℕ) : Prop := ∃ p, p.length = c ∧ p <+: h.tlog t ∧ Decided h t p

def ReqCommit (h : History N C) : Request N C → Prop
  | .heartbeat r => CommitOf h r.term r.leaderCommit
  | .appendEntries r => CommitOf h r.term r.leaderCommit
  | _ => True

structure CommitOk (h : History N C) (f : Fiber N C) : Prop where
  beat : ∀ b, f.pc = .heartbeat b → CommitOf h b.req.term b.req.leaderCommit
  sent : ∀ env, f.rpc = some env → ReqCommit h env.request

section
variable {h h' : History N C} {f g : Fiber N C}

lemma CommitOf.mono {t c : ℕ} (hc : CommitOf h t c) (hl : h.leader t ≠ none) (hg : Grows h h')
    (hd : ∀ k p, Decided h k p → Decided h' k p) : CommitOf h' t c := by
  obtain ⟨p, h1, h2, h3⟩ := hc
  exact ⟨p, h1, h2.trans (hg.tlog t hl), hd _ _ h3⟩

lemma ReqCommit.mono {dst : N} {req : Request N C} (hr : ReqCommit h req) (hok : ReqOk h dst req) (hg : Grows h h')
    (hd : ∀ k p, Decided h k p → Decided h' k p) : ReqCommit h' req := by
  cases req with
  | heartbeat | appendEntries => exact CommitOf.mono hr (by rw [hok.1]; simp) hg hd
  | _ => trivial

lemma CommitOk.mono (hf : CommitOk h f) (hok : LogOk h f) (hg : Grows h h')
    (hd : ∀ k p, Decided h k p → Decided h' k p) : CommitOk h' f := by
  refine ⟨fun b hb => (hf.beat b hb).mono ?_ hg hd, fun env he => (hf.sent env he).mono (hok.sent env he) hg hd⟩
  rw [(hok.beat b hb).1]
  simp

lemma CommitOk.like (hl : f.Like g) (hg : CommitOk h g) : CommitOk h f :=
  ⟨fun b hb => hg.beat b (by rw [← hl.pc]; exact hb), fun env he => hg.sent env (by rw [← hl.rpc]; exact he)⟩

lemma CommitOk.of_inert (hi : f.Inert) : CommitOk h f := by
  refine ⟨fun b hb => ?_, fun env he => ?_⟩
  · have hpc := hi.pc
    rw [hb] at hpc
    exact hpc.elim
  · have hin := hi.rpc env he
    revert hin
    cases env.request <;> simp [Request.inert, ReqCommit]

lemma CommitOk.of_idle {pc : Pc N C} (hr : f.rpc = none)
    (hb : ∀ b, pc = .heartbeat b → CommitOf h b.req.term b.req.leaderCommit) :
    CommitOk h { f with pc := pc } :=
  ⟨hb, fun env he => absurd he (by simp [hr])⟩

lemma CommitOk.answer (hf : CommitOk h f) (dst : N) (rsp : Response) :
    CommitOk h { f with pc := f.pc.onRsp dst rsp, rpc := none } := by
  refine ⟨fun b hb => ?_, nofun⟩
  cases hp : f.pc with
  | heartbeat b0 =>
    have h0 := hf.beat b0 hp
    simp only [hp] at hb
    cases rsp <;> simp only [Pc.onRsp, Pc.heartbeat.injEq] at hb <;> subst hb <;> exact h0
  | _ => simp only [hp] at hb; cases rsp <;> simp [Pc.onRsp] at hb

lemma CommitOk.send (hf : CommitOk h f) {env : Envelope N C} (hr : ReqCommit h env.request) :
    CommitOk h { f with rpc := some env } :=
  ⟨hf.beat, fun env' he => by rw [← Option.some.inj he]; exact hr⟩

end

namespace Cluster

section
variable [LogStorage N C L]

def takesRight (leader nd : RaftNode N C L) (c : ℕ) : Bool :=
  decide ((get nd.log c).map LogEntry.term = (get leader.log c).map LogEntry.term)

/-- the handlers commit what the sender has: OnHeartbeat at `leader_commit`, OnAppendEntries without entries at the end
of the log if that is shorter -/
def takeSound (s : Cluster N C L) (a : Action N C L) : Bool :=
  match s.delivered a with
  | some (dst, .heartbeat r) =>
    let nd := s.nodes dst
    decide (r.term < nd.term) || decide (r.leaderCommit ≤ nd.commitIndex) || decide
    (lastIndex nd.log < r.leaderCommit) ||
    takesRight (s.nodes r.leaderId) nd r.leaderCommit
  | some (dst, .appendEntries r) =>
    let nd := s.nodes dst
    !r.entries.isEmpty || decide (r.term < nd.term) || decide (r.leaderCommit ≤ nd.commitIndex) ||
    takesRight (s.nodes r.leaderId) nd (min r.leaderCommit (lastIndex nd.log))
  | _ => true

def sendSound (s : Cluster N C L) (a : Action N C L) : Bool :=
  match a with
  | .advance k =>
    match s.fibers[k]? with
    | some ⟨n, .replicate r, none, _⟩ => r.todo.isEmpty || decide ((s.nodes n).term = r.currentTerm)
    | _ => true
  | _ => true

def decisionSound (s : Cluster N C L) (a : Action N C L) : Bool := s.countsRight a && s.takeSound a && s.sendSound a

end

variable [DecidableEq N] [LogStorage N C L] [LawfulLog N C L] [Fintype N]
variable {h h' : History N C} {s s' : Cluster N C L} {a : Action N C L}
  {n dst : N} {r : AppendEntriesRequest N C} {req : Request N C}

lemma takesRight_decided (b : Base majorities h) (sf : Safe majorities h) {n c : N} {nd leader : RaftNode N C L}
    (rep : NodeRep h n nd) (repl : NodeRep h c leader) {t lc i : ℕ} (hl : h.leader t = some c) (hc : CommitOf h t lc)
    (hi : i ≤ lc) (hlen : i ≤ (entries nd.log).length) (hs : takesRight leader nd i) :
    Decided h t ((entries nd.log).take i) := by
  obtain ⟨p, hpl, -, hd⟩ := hc
  have hheld : p <+: entries leader.log := by rw [← repl.log]; exact decided_held sf hd le_rfl hl
  cases i with
  | zero => exact decided_nil t
  | succ j =>
    have he : (entries nd.log)[j]? = some ((entries nd.log)[j]) := getElem?_eq_getElem (by omega)
    have hlead : j < (entries leader.log).length := by have := hheld.length_le; omega
    have hf : (entries leader.log)[j]? = some ((entries leader.log)[j]) := getElem?_eq_getElem hlead
    simp only [takesRight, get_eq _ rep.plain.whole, get_eq _ repl.plain.whole, he, hf, Option.map_some,
      Option.some.injEq,
      decide_eq_true_eq] at hs
    have hm : Match (entries nd.log) (entries leader.log) :=
      match_of_good (h := h) (by rw [← rep.log]; exact b.log_good n) (by rw [← repl.log]; exact b.log_good c)
    rw [hm j _ _ he hf hs]
    refine hd.of_le ?_
    rw [prefix_iff_eq_take.1 hheld]
    exact take_prefix_take_left (by omega)

lemma onHeartbeat_commit {lo : ℕ} {nd : RaftNode N C L} (hk : NodeCommit h lo nd) (rep : NodeRep h n nd)
    (fx : FixedNode n nd) (r : HeartbeatRequest N) (hd : nd.term ≤ r.term → nd.commitIndex < r.leaderCommit →
      r.leaderCommit ≤ (entries nd.log).length → Decided h r.term ((entries nd.log).take r.leaderCommit)) :
    NodeCommit h lo (nd.onHeartbeat r).1 := by
  unfold onHeartbeat
  split_ifs with h1
  · exact hk
  · have hkept := becomeFollowerLocked_kept nd r.term
    have hlog := hkept.data.log
    have hterm := becomeFollowerLocked_term nd r.term
    have hfol := hk.of_kept hkept
    have hcom := hkept.data.commit
    dsimp only
    generalize nd.becomeFollowerLocked r.term = mid at hlog hterm hfol hcom
    split_ifs with hc
    · rw [hlog, lastIndex_eq _ rep.plain.whole, hcom] at hc
      have hadv : Advance h mid r.leaderCommit := by
        refine Or.inr ⟨by rw [hcom]; exact hc.1, by rw [hlog]; exact hc.2, ?_⟩
        rw [hlog, hterm, Nat.max_eq_right (by omega)]
        exact hd (by omega) hc.1 hc.2
      exact ((hfol.to hadv).apply (by rw [hlog]; exact rep.plain) (by rw [hlog]; exact fx.clean.log)).1
    · exact hfol
  · exact hk

/-- **An AppendEntries request keeps what is committed**, if its tail cut is under control. -/
theorem onAppendEntries_keeps (sf : Safe majorities h) {lo : ℕ} {nd leader : RaftNode N C L}
    (hk : NodeCommit h lo nd) (hnum : ∀ t, Numbered (h.tlog t)) (rep : NodeRep h n nd)
    (repl : NodeRep h r.leaderId leader) (hreq : ReqOk h n (.appendEntries r)) (htail : keepsTail leader nd r) {log : L}
    (acc : Accepted (h.tlog r.term) nd r log) : (entries nd.log).take nd.commitIndex <+: entries log := by
  apply acc.keeps (hnum _) rep.plain repl.plain htail
  · exact take_prefix _ _
  · exact decided_tlog sf hk.decided acc.le (by rw [hreq.1]; simp)
  · rw [← repl.log]; exact decided_held sf hk.decided acc.le hreq.1

lemma onAppendEntries_commit (b : Base majorities h) (sf : Safe majorities h) {lo : ℕ}
    {nd leader : RaftNode N C L} (hk : NodeCommit h lo nd) (hnum : ∀ t, Numbered (h.tlog t)) (rep : NodeRep h n nd)
      (fx : FixedNode n nd) (hcl : Request.Client (.appendEntries r : Request N C))
    (repl : NodeRep h r.leaderId leader) (hreq : ReqOk h n (.appendEntries r))
    (hcom : CommitOf h r.term r.leaderCommit) (htail : keepsTail leader nd r)
    (htake : r.entries = [] → nd.term ≤ r.term → nd.commitIndex < r.leaderCommit →
      takesRight leader nd (min r.leaderCommit (entries nd.log).length)) :
    NodeCommit h lo (nd.onAppendEntries r).1 := by
  rcases onAppendEntries_rep b rep hnum hreq with ⟨-, hq, hd⟩ | ⟨log, acc⟩
  · exact hk.of_data hd hq.term
  have hkeep := onAppendEntries_keeps sf hk hnum rep repl hreq htail acc
  have hobs := observe_data nd r.term
  have hterm : (nd.observe r.term).term = r.term := by rw [observe_term]; have := acc.le; omega
  have hnew : NodeCommit h lo { nd.observe r.term with log := log } := by
    have hmid : NodeCommit h lo (nd.observe r.term) := hk.of_data hobs (observe_kept nd r.term).quiet.term
    apply hmid.relog
    rw [hobs.log, hobs.commit]
    exact hkeep
  have hclean : ∀ e ∈ entries log, RaftNode.isClient e := by
    have hcm := (CleanMove.of_appendEntries nd r hcl fx.clean).1.log
    rw [acc.eq] at hcm
    rwa [(commitFromLeader_log { nd.observe r.term with log := log } r.leaderCommit).1.entries] at hcm
  rw [acc.eq]
  apply hnew.fromLeader acc.plain hclean
  intro (hlt : (nd.observe r.term).commitIndex < r.leaderCommit)
  have hle : (nd.observe r.term).commitIndex ≤ (entries log).length := hnew.len
  set i := min r.leaderCommit (entries log).length with hi
  have hdec : Decided h r.term ((entries log).take i) := by
    rcases Nat.lt_or_ge (r.prevLogIndex + r.entries.length) i with hgt | hin
    · -- past the last entry sent the log is the receiver's own
      have hnil : r.entries = [] := by
        by_contra hne
        have := acc.tail hne
        omega
      have hown : entries log = entries nd.log := by
        rcases acc.result with he | he
        · exact he
        · have := congrArg length he
          rw [length_take] at this
          omega
      rw [hown] at hi ⊢
      exact takesRight_decided b sf rep repl hreq.1 hcom
        (by omega) (by omega) (hi ▸ htake hnil acc.le (by rw [← hobs.commit]; exact hlt))
    · -- up to there it is the leader's
      obtain ⟨p, hpl, hpT, hd⟩ := hcom
      have hagree : (entries log).take i = (h.tlog r.term).take i := by
        have hlen := acc.len
        obtain ⟨rest, hrest⟩ := acc.agree
        rw [← hrest, take_append_of_le_length (by rw [length_take]; omega), take_take, Nat.min_eq_left hin]
      rw [hagree]
      apply hd.of_le
      rw [prefix_iff_eq_take.1 hpT]
      exact take_prefix_take_left (by omega)
  rcases Nat.eq_or_lt_of_le (show (nd.observe r.term).commitIndex ≤ i by omega) with heq | hgt
  · exact Or.inl heq.symm
  · refine Or.inr ⟨hgt, Nat.min_le_right _ _, ?_⟩
    exact (by rw [hterm]; exact hdec : Decided h (nd.observe r.term).term ((entries log).take i))

/-! ## A step -/

structure CommitRep (h : History N C) (s : Cluster N C L) : Prop where
  ack : AckRep h s
  nodes : ∀ n, NodeCommit h 0 (s.nodes n)
  fibers : ∀ f ∈ s.fibers, CommitOk h f
  net : ∀ x ∈ s.net, ReqCommit h x.2

lemma CommitRep.delivered_ok (rep : CommitRep h s) (hd : s.delivered a = some (dst, req)) : ReqCommit h req :=
  delivered_forall (P := fun _ req => ReqCommit h req) (fun f hf => (rep.fibers f hf).sent) rep.net hd

lemma delivered_client (fx : Fixed s) (hd : s.delivered a = some (dst, req)) :
    req.Client :=
  delivered_forall (P := fun _ req => req.Client) (fun f hf => (fx.fibers f hf).sent) fx.net hd

section
variable (rep : CommitRep h s)
include rep

lemma commit_nodes (ha : a.Steady) (hk : s.keepsCommon a) (htk : s.takeSound a)
    (hadv : ∀ n, (s.nodes n).role = .leader → (∀ req, s.delivered a ≠ some (n, req)) →
      Advance h (s.nodes n) (s'.nodes n).commitIndex) (ht : Trans s a s') (n : N) :
    NodeCommit h (s.nodes n).commitIndex (s'.nodes n) := by
  have lr := rep.ack.log
  have hplain : Plain (s.nodes n).log := (lr.nodes n).plain
  have hclean : ∀ e ∈ entries (s.nodes n).log, RaftNode.isClient e := (lr.fixed.nodes n).clean.log
  have hnow : NodeCommit h (s.nodes n).commitIndex (s.nodes n) := (rep.nodes n).here
  have hc := hadv n
  -- a leader that has counted, and what follows in the same section
  have hcount : ∀ {mid : RaftNode N C L} {c : ℕ}, OnlyPeers (s.nodes n) mid → Advance h (s.nodes n) c →
      NodeCommit h (s.nodes n).commitIndex { mid with commitIndex := c } := by
    intro mid c ho hc
    have hmid : NodeCommit h (s.nodes n).commitIndex mid := hnow.of_data ho.data ho.same.term.ge
    apply hmid.to
    unfold Advance at hc ⊢
    rw [ho.data.commit, ho.data.log, ho.same.term]
    exact hc
  have happly : ∀ {mid nd' : RaftNode N C L}, OnlyPeers (s.nodes n) mid →
      nd' = mid.advanceCommitIndexLocked.maybeAutoFinalizeJointLocked.applyCommittedLogsLocked →
      Advance h (s.nodes n) nd'.commitIndex → NodeCommit h (s.nodes n).commitIndex nd' := by
    intro mid nd' ho he hc
    rw [commitAndApply_stable mid (ho.data.state.trans (lr.fixed.nodes n).clean.state)] at he
    obtain ⟨c, hadv⟩ := advanceCommitIndexLocked_eq mid
    have happ := applyCommittedLogsLocked_applies mid.advanceCommitIndexLocked
    rw [he, happ.commit, hadv] at hc
    rw [he, hadv]
    exact ((hcount ho hc).apply (by rw [ho.data.log]; exact hplain) (by rw [ho.data.log]; exact hclean)).1
  cases ht.node n with
  | kept _ hk => exact hnow.of_kept hk
  | applied _ _ _ _ _ eq => rw [eq]; exact (hnow.apply hplain hclean).1
  | persisted _ _ _ _ _ eq =>
    rw [eq]
    exact ⟨hnow.lo, hnow.le, by rw [persist_eq]; exact hnow.len, by rw [persist_eq]; exact hnow.decided,
      by rw [persist_eq]; exact hnow.sm⟩
  | campaign _ hcamp => exact hnow.of_data hcamp.data hcamp.term.le
  | boot _ _ _ _ hmid hl =>
    rcases hmid with ⟨-, rfl⟩ | hcamp
    · exact hnow.of_data hl.data hl.term_eq.ge
    · exact (hnow.of_data hcamp.data hcamp.term.le).of_data hl.data hl.term_eq.ge
  | wins _ _ _ _ _ _ _ _ hw => exact hnow.of_data hw.leads.data hw.leads.term_eq.ge
  | countBeats _ _ _ _ _ b _ _ eq =>
    rw [eq] at hc ⊢
    rcases heartbeatFinish_spec (s.nodes n) b.isLoop b.epoch b.ackCount b.rspLastLog b.maxPeerTerm with
      he | ⟨-, he⟩ | ⟨-, hl, hkept⟩
    · rw [he]; exact hnow
    · rw [he]; exact hnow.of_kept (becomeFollowerLocked_kept _ _)
    · have hc' := hc hl (fun req => by simp [delivered])
      obtain ⟨c, hcm⟩ := advanceCommitIndexLocked_eq ((s.nodes n).recordHeartbeatAcks b.rspLastLog)
      rw [hkept.data.commit, hcm] at hc'
      rw [hcm] at hkept
      exact (hcount (recordHeartbeatAcks_only _ _) hc').of_kept hkept
  | append _ _ eq =>
    rw [eq]
    refine hnow.relog ?_
    rw [append_eq _ _ _ hplain.whole]
    exact ( take_prefix _ _).trans (prefix_append _ _)
  | refresh _ eq => rw [eq]; exact hnow.of_data (refreshPeers_only _).data le_rfl
  | countAppends _ _ _ _ r _ eq =>
    rw [eq] at hc ⊢
    rcases replicateFinish_spec (s.nodes n) r.currentTerm r.rsps with he | ⟨t, -, he⟩ | ⟨hl, -, he⟩
    · rw [he]; exact hnow
    · rw [he]; exact hnow.of_kept (becomeFollowerLocked_kept _ _)
    · exact happly (foldl_recordPeerRsp_only _ _) he (hc hl (fun req => by simp [delivered]))
  | alone _ _ _ _ eq =>
    rw [eq] at hc ⊢
    by_cases hl : (s.nodes n).role = .leader
    · have he : (s.nodes n).replicateAlone = _ := if_neg (not_not.2 hl)
      exact happly (OnlyPeers.refl _) he (hc hl (fun req => by simp [delivered]))
    · have he : (s.nodes n).replicateAlone = s.nodes n := if_pos hl
      rw [he]; exact hnow
  | config | snapshot => exact ha.elim
  | grants _ _ _ hg => exact hnow.of_data hg.data (hg.le.trans hg.term.ge)
  | beaten _ r hd eq =>
    have hok := lr.delivered_ok hd
    rw [eq]
    apply onHeartbeat_commit hnow (lr.nodes n) (lr.fixed.nodes n) r
    intro h1 h2 h3
    apply takesRight_decided lr.base rep.ack.safe (lr.nodes n)
      (lr.nodes r.leaderId) hok.1 (rep.delivered_ok hd) le_rfl h3
    simp only [takeSound, hd, lastIndex_eq _ hplain.whole, Bool.or_eq_true, decide_eq_true_eq] at htk
    rcases htk with ((htk | htk) | htk) | htk
    · omega
    · omega
    · omega
    · exact htk
  | adopts _ r hd eq =>
    rw [eq]
    apply onAppendEntries_commit lr.base rep.ack.safe hnow lr.numbered (lr.nodes n) (lr.fixed.nodes n)
      (delivered_client lr.fixed hd) (lr.nodes r.leaderId) (lr.delivered_ok hd) (rep.delivered_ok hd)
    · simpa only [keepsCommon, hd] using hk
    · intro h1 h2 h3
      simp only [takeSound, hd, h1, lastIndex_eq _ hplain.whole, Bool.or_eq_true, decide_eq_true_eq] at htk
      rcases htk with ((htk | htk) | htk) | htk
      · simp at htk
      · omega
      · omega
      · exact htk
  | installs _ _ hd => exact (lr.delivered_ok hd).elim
  | restart => exact ha.elim

lemma leader_commitOf (hl : h.leader (s.nodes n).term = some n) :
    CommitOf h (s.nodes n).term (s.nodes n).commitIndex := by
  have r := rep.ack.log.nodes n
  have hc := rep.nodes n
  have hlog : entries (s.nodes n).log = h.tlog (s.nodes n).term := by
    rw [← r.log, ← r.term]
    exact rep.ack.log.base.lead_log n (by rw [r.term]; exact hl)
  refine ⟨(entries (s.nodes n).log).take (s.nodes n).commitIndex, ?_, ?_, hc.decided⟩
  · rw [length_take, Nat.min_eq_left hc.len]
  · rw [hlog]; exact take_prefix _ _

lemma commit_fibers (hg : Grows h h') (hd : ∀ k p, Decided h k p → Decided h' k p)
    (hs : s.sendSound a) (ht : Trans s a s') : ∀ f ∈ s'.fibers, CommitOk h' f := by
  have lr := rep.ack.log
  have hold : ∀ f ∈ s.fibers, CommitOk h' f := fun f hf => (rep.fibers f hf).mono (lr.fibers f hf) hg hd
  have hmem : ∀ {k : ℕ} {f : Fiber N C}, s.fibers[k]? = some f → CommitOk h' f :=
    fun hk => hold _ (mem_of_getElem? hk)
  have hlead : ∀ n, h.leader (s.nodes n).term = some n → CommitOf h' (s.nodes n).term (s.nodes n).commitIndex :=
    fun n hl => (leader_commitOf rep hl).mono (by rw [hl]; simp) hg hd
  intro f hf
  replace hf := ht.fiber f hf
  cases hf with
  | like _ _ g hg hl => exact (hold g hg).like hl
  | inert _ _ hi => exact .of_inert hi
  | elect => exact ⟨fun b hb => by simp [electionFiber] at hb, fun env he => by simp [electionFiber] at he⟩
  | sendVote _ _ hk => exact (hmem hk).send trivial
  | stopVotes _ _ _ hr => exact .of_idle hr (fun _ h => by simp at h)
  | beat n hrole =>
    refine ⟨fun b hb => ?_, fun _ h => by simp at h⟩
    cases hb
    exact hlead n ((lr.nodes n).lead hrole)
  | sendBeat _ _ hk b he => exact (hmem hk).send ((hmem hk).beat b he)
  | stopBeats _ _ hk hr b he =>
    refine .of_idle hr (fun b' hb' => ?_)
    cases hb'
    exact (hmem hk).beat b he
  | round _ _ _ hr => exact .of_idle hr (fun _ h => by simp at h)
  | sendAppend _ f hk hr r he p _ htodo _ hreq =>
    obtain ⟨hl, hround⟩ := (lr.fibers f (mem_of_getElem? hk)).round r he
    obtain ⟨-, hsnap, -⟩ := hround p (by rw [htodo]; exact mem_cons_self)
    have hterm : (s.nodes f.owner).term = r.currentTerm := by
      obtain ⟨owner, pc, rpc, w⟩ := f
      subst he hr
      simpa [sendSound, hk, htodo] using hs
    unfold buildRequest at hreq
    rw [hsnap] at hreq
    refine (hmem hk).send ?_
    rw [← Option.some.inj hreq]
    rw [← hterm] at hl ⊢
    exact hlead f.owner hl
  | skipPeers _ _ _ hr | noSnapshot _ _ _ hr => exact .of_idle hr (fun _ h => by simp at h)
  | answer _ f hf env _ rsp => exact (hold f hf).answer env.dst rsp
  | deliver _ _ hk dst req hr => exact (hmem hk).send ((hmem hk).sent ⟨dst, req, none⟩ hr)

lemma commit_net (hg : Grows h h') (hd : ∀ k p, Decided h k p → Decided h' k p)
    (ht : Trans s a s') : ∀ x ∈ s'.net, ReqCommit h' x.2 :=
  ht.net_forall (P := fun _ req => ReqCommit h' req) (fun x hx => (rep.net x hx).mono (rep.ack.log.net x hx) hg hd)
    (fun f hf env he => ((rep.fibers f hf).sent env he).mono ((rep.ack.log.fibers f hf).sent env he) hg hd)

end

def CommitsOf (s' : Cluster N C L) (h h' : History N C) : Prop :=
  ∀ t, h'.commit t = h.commit t ∨ ∃ n, h.leader t = some n ∧ h'.commit t = max (h.commit t) (s'.nodes n).commitIndex

lemma commit_event (rep : AckRep h s) (ha : a.Steady) (hc : s.countSound a) (ht : Trans s a s') :
    ∃ h0, Path majorities True h h0 ∧ AckRep h0 s ∧ CommitsOf s' h h0 ∧ ∀ n, (s.nodes n).role = .leader →
      (∀ req, s.delivered a ≠ some (n, req)) → Advance h0 (s.nodes n) (s'.nodes n).commitIndex := by
  by_cases hx : ∃ n, (s.nodes n).role = .leader ∧ (∀ req, s.delivered a ≠ some (n, req)) ∧
      (s'.nodes n).commitIndex ≠ (s.nodes n).commitIndex
  swap
  · refine ⟨h, .refl, rep, fun t => Or.inl rfl, fun n hl hd => Or.inl ?_⟩
    by_contra hne
    exact hx ⟨n, hl, hd, hne⟩
  obtain ⟨n, hl, hd, hne⟩ := hx
  rcases count_step rep ha hc ht hl hd with he | ⟨hcounted, hothers⟩
  · exact absurd he hne
  cases hcounted with
  | same he => exact absurd he hne
  | moved committed lt =>
    have r := rep.log.nodes n
    have hlead : h.leader (h.term n) = some n := by rw [r.term]; exact r.lead hl
    have htlog : entries (s.nodes n).log = h.tlog (s.nodes n).term := by
      rw [← r.log, ← r.term]; exact rep.log.base.lead_log n hlead
    have ok : Ok majorities h (.commit n (s'.nodes n).commitIndex) := ⟨hlead, by rw [r.term]; exact committed⟩
    refine ⟨_, .one _ ok (fun _ => trivial), ⟨rep.log.note (Or.inr ⟨_, _, rfl⟩) ok,
      safe_record rep.log.base rep.safe ok trivial, fun m hm => ?_, fun f hf => ?_⟩, fun t => ?_, fun m _ _ => ?_⟩
    · exact (rep.nodes m hm).of_same (.refl _) rfl rfl (fun _ _ => le_rfl)
    · exact (rep.fibers f hf).mono ⟨fun _ => le_rfl, fun _ _ => le_rfl⟩
    · by_cases htn : t = h.term n
      · subst htn; exact Or.inr ⟨n, hlead, by simp [record]⟩
      · left; simp [record, htn]
    · by_cases hmn : m = n
      · subst hmn
        refine Or.inr ⟨lt, by rw [htlog]; exact committed.2.1, (s.nodes m).term, le_rfl, ?_⟩
        rw [htlog]
        simp only [record, r.term, Function.update_self]
        exact take_prefix_take_left (le_max_right _ _)
      · left; rw [hothers m hmn]

theorem commit_step (rep : CommitRep h s) (ha : a.Steady) (hs : s.decisionSound a) (ht : Trans s a s') :
    ∃ h', Path majorities True h h' ∧ CommitRep h' s' ∧ CommitsOf s' h h' ∧
      ∀ n, (s.nodes n).commitIndex ≤ (s'.nodes n).commitIndex := by
  simp only [decisionSound, countsRight, Bool.and_eq_true] at hs
  obtain ⟨⟨⟨⟨hk, hack⟩, hcnt⟩, htk⟩, hsend⟩ := hs
  have lr := rep.ack.log
  obtain ⟨h0, p0, ack0, hof, hadv⟩ := commit_event rep.ack ha hcnt ht
  have g0 := p0.grows lr.base
  have d0 : ∀ k p, Decided h k p → Decided h0 k p := fun k p hd => p0.decided trivial lr.base rep.ack.safe hd
  have rep0 : CommitRep h0 s := by
    refine ⟨ack0, fun n => (rep.nodes n).mono d0, fun f hf => ?_, fun x hx => ?_⟩
    · exact (rep.fibers f hf).mono (lr.fibers f hf) g0 d0
    · exact (rep.net x hx).mono (lr.net x hx) g0 d0
  have hnodes := commit_nodes rep0 ha hk htk hadv ht
  obtain ⟨h', p', ack', hcom⟩ := ack_step ack0 ha hk hack hcnt ht
  have g' := p'.grows ack0.log.base
  have d' : ∀ k p, Decided h0 k p → Decided h' k p := fun k p hd => p'.decided trivial ack0.log.base ack0.safe hd
  refine ⟨h', p0.trans p', ⟨ack', fun n => ?_, commit_fibers rep0 g' d' hsend ht, commit_net rep0 g' d' ht⟩, ?_,
    fun n => (hnodes n).lo⟩
  · exact ((hnodes n).mono d').from_zero
  · unfold CommitsOf
    rw [hcom]
    exact hof

lemma commitRep_init (config : N → ClusterConfig N) (hc : ∀ n m, m ∈ (config n).voters.ids ↔ m ≠ n) :
    CommitRep Hist.init (init config : Cluster N C L) := by
  refine ⟨ackRep_init config hc, fun n => ⟨le_rfl, le_rfl, Nat.zero_le _, decided_nil _, ?_⟩, fun f hf => ?_,
    fun x hx => ?_⟩
  · simp [init]
  · simp [init] at hf
  · simp [init] at hx

lemma commit_run (as : List (Action N C L)) (ha : ∀ a ∈ as, a.Steady) (hs : along decisionSound s as)
    (rep : CommitRep h s) : ∃ h', Path majorities True h h' ∧ CommitRep h' (run s as) := by
  induction as generalizing h s with
  | nil => exact ⟨h, .refl, rep⟩
  | cons a _ ih =>
    simp only [along, Bool.and_eq_true] at hs
    obtain ⟨h1, p1, rep1, -, -⟩ := commit_step rep (ha a mem_cons_self) hs.1 (step_trans s a)
    obtain ⟨h2, p2, rep2⟩ := ih (fun x hx => ha x (mem_cons_of_mem _ hx)) hs.2 rep1
    exact ⟨h2, p1.trans p2, rep2⟩

end Cluster

end MaxRedis.Raft

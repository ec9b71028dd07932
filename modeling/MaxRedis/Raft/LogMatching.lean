/-
Log Matching, in every steady run: a run of fixed membership without snapshots and restarts.

`LogRep h s` ties a cluster to a history (`Raft.History`): its votes, its nodes, and everything that is still to be sent
or to arrive.
-/
import MaxRedis.Raft.History

namespace MaxRedis.Raft.Cluster

open LogStorage LawfulLog RaftNode TermLog List Option

variable {N C L : Type} [DecidableEq N] [LogStorage N C L] [LawfulLog N C L] [Fintype N]
variable {h h' : History N C} {s s' : Cluster N C L} {a : Action N C L} {n : N} {nd' : RaftNode N C L}

structure LogRep (h : History N C) (s : Cluster N C L) : Prop where
  base : Base majorities h
  votes : VoteRep h.vote s
  fixed : Fixed s
  nodes : ∀ n, NodeRep h n (s.nodes n)
  numbered : ∀ t, Numbered (h.tlog t)
  fibers : ∀ f ∈ s.fibers, LogOk h f
  net : ∀ x ∈ s.net, ReqOk h x.1 x.2

section
variable (rep : LogRep h s)
include rep

lemma LogRep.stands (n : N) : Stands h n (s.nodes n) :=
  ⟨rep.nodes n, rep.votes.id n, rep.votes.cur n, rep.votes.future n, rep.numbered⟩

lemma LogRep.delivered_ok {dst : N} {req : Request N C} (hd : s.delivered a = some (dst, req)) :
    ReqOk h dst req := delivered_forall (fun f hf => (rep.fibers f hf).sent) rep.net hd

lemma LogRep.votedSelf (hr : (s.nodes n).role ≠ .follower) :
    h.vote n (s.nodes n).term = some n := by
  rw [rep.votes.cur n]; exact rep.votes.self n hr

lemma move_events (mv : NodeMove s a n nd') :
    ∃ h', Path majorities (s.keepsCommon a) h h' ∧ Events h h' n nd' := by
  have st := rep.stands n
  cases mv with
  | quiet hq hl hs => exact events_quiet st hq hl hs
  | campaign hc => exact events_campaign rep.base st hc
  | grant _ hd hg => exact events_grant st hg (rep.delivered_ok hd)
  | boot peers mid before leads =>
    have hmaj := alone_majority (rep.fixed.nodes n) (rep.votes.id n) peers
    rcases before with ⟨hr, rfl⟩ | hc
    · refine events_win rep.base st leads hr (rep.votes.self n (by rw [hr]; simp)) hmaj (fun v hv => ?_)
      rw [Finset.mem_singleton.1 hv]; exact rep.votedSelf (by rw [hr]; simp)
    · obtain ⟨h1, p1, e1⟩ := events_campaign (K := s.keepsCommon a) rep.base st hc
      have hself : mid.votedFor = some n := by rw [hc.vote, rep.votes.id n]
      have st1 : Stands h1 n mid := ⟨e1.rep, hc.data.id.trans (rep.votes.id n), e1.cur, e1.future, e1.numbered⟩
      obtain ⟨h2, p2, e2⟩ := events_win (K := s.keepsCommon a) (p1.base rep.base) st1 leads hc.role hself hmaj
        (fun v hv => by rw [Finset.mem_singleton.1 hv, e1.cur, hself])
      exact ⟨h2, p1.trans p2, e1.trans e2 (by rw [leads.role]; simp)⟩
  | elected f mem owner e pc todo wins =>
    have hok := rep.votes.fibers f mem e pc
    rw [owner] at hok
    obtain ⟨q, hq, hqv⟩ := elected_majority (rep.fixed.nodes n) hok todo wins.won
    exact events_win rep.base st wins.leads wins.old (rep.votes.self n (by rw [wins.old]; simp)) hq
      (fun v hv => by rw [wins.term]; exact hqv v hv)
  | append role command eq => exact events_append st role command eq
  | adopt req hd eq =>
    rw [eq]
    refine events_appendEntries rep.base st (rep.delivered_ok hd) (rep.nodes req.leaderId) (fun hK => ?_)
    simpa only [keepsCommon, hd] using hK

end

structure StepRep (h h' : History N C) (s' : Cluster N C L) : Prop where
  nodes : ∀ n, NodeRep h' n (s'.nodes n)
  numbered : ∀ t, Numbered (h'.tlog t)
  cur : ∀ n, h'.vote n (s'.nodes n).term = (s'.nodes n).votedFor
  future : ∀ n t, (s'.nodes n).term < t → h'.vote n t = none
  camp : ∀ n, (s'.nodes n).role = .candidate → h.term n < (s'.nodes n).term →
    h'.camp n (s'.nodes n).term = some (h.log n)
  commit : h'.commit = h.commit

lemma moved_step (rep : LogRep h s) (mv : Moved s a s') :
    ∃ h', Path majorities (s.keepsCommon a) h h' ∧ StepRep h h' s' := by
  have hraise : ∀ {m : N}, ¬ h.term m < (s.nodes m).term := fun {m} => by rw [(rep.nodes m).term]; exact lt_irrefl _
  rcases mv with hn | ⟨n, nd', mv, hn⟩
  · refine ⟨h, .refl, ?_, rep.numbered, ?_, ?_, ?_, rfl⟩
    · rw [hn]; exact rep.nodes
    · rw [hn]; exact rep.votes.cur
    · rw [hn]; exact rep.votes.future
    · rw [hn]; exact fun m _ hlt => absurd hlt hraise
  · obtain ⟨h', p, e⟩ := move_events rep mv
    have hg := p.grows rep.base
    refine ⟨h', p, ?_, e.numbered, ?_, ?_, ?_, e.commit⟩ <;> rw [hn]
    · refine setNode_forall e.rep (fun m hm => ?_)
      have r := rep.nodes m
      exact ⟨r.plain, r.snap, (e.term_ne m hm).trans r.term, (e.log_ne m hm).trans r.log,
        fun hr => hg.leader _ _ (r.lead hr), fun hr hl => r.cand hr (e.lead_ne m hm _ hl)⟩
    · exact setNode_forall (P := fun m nd => h'.vote m nd.term = nd.votedFor) e.cur
        (fun m hm => by rw [e.vote_ne m hm]; exact rep.votes.cur m)
    · exact setNode_forall (P := fun m nd => ∀ t, nd.term < t → h'.vote m t = none) e.future
        (fun m hm => by rw [e.vote_ne m hm]; exact rep.votes.future m)
    · exact setNode_forall (P := fun m nd => nd.role = .candidate → h.term m < nd.term →
        h'.camp m nd.term = some (h.log m)) e.camp (fun m _ _ hlt => absurd hlt hraise)

/-! ## What is to be sent -/

lemma buildPeerReq_slice (nd : RaftNode N C L) (hp : Plain nd.log) (hs : nd.lastSnapshotIndex = 0) (id : N) (i : ℕ) :
    (nd.buildPeerReq id i).id = id ∧ (nd.buildPeerReq id i).needSnapshot = false ∧
    (nd.buildPeerReq id i).entries.length ≤ maxAppendBatch ∧
    Slice (entries nd.log) (nd.buildPeerReq id i).prev.index (nd.buildPeerReq id i).prev.term
      (nd.buildPeerReq id i).entries := by
  obtain ⟨k, hk⟩ : ∃ k, max ((nd.peerNextIndex[i]?).getD 0) 1 = k + 1 :=
    ⟨max ((nd.peerNextIndex[i]?).getD 0) 1 - 1, by omega⟩
  have hno : shouldInstallSnapshot (k + 1) nd.lastSnapshotIndex = false := by simp [shouldInstallSnapshot, hs]
  have hrange : getRange nd.log (k + 1) maxAppendBatch = ((entries nd.log).drop k).take maxAppendBatch :=
    getRange_eq _ hp.whole _ _ (by unfold maxAppendBatch; omega)
  have heq : nd.buildPeerReq id i =
      { id, idx := i, next := k + 1, entries := ((entries nd.log).drop k).take maxAppendBatch
        prev := if 1 < k + 1 then (get nd.log k).getD ⟨getTerm nd.log k, k, .empty⟩ else .blank } := by
    unfold buildPeerReq
    dsimp only
    rw [hk, hno, hrange]
    rfl
  rw [heq]
  refine ⟨rfl, rfl, by simp, ?_⟩
  -- the entries follow the first `k` ones
  have hpiece : (entries nd.log).take k ++ ((entries nd.log).drop k).take maxAppendBatch <+: entries nd.log := by
    conv_rhs => rw [← take_append_drop k (entries nd.log)]
    exact (prefix_append_right_inj _).2 ( take_prefix _ _)
  cases k with
  | zero =>
    exact Or.inr ⟨Nat.zero_le _, fun i e hi => absurd hi (by simp [LogEntry.blank]), hpiece⟩
  | succ j =>
    rw [if_pos (by omega), get_eq _ hp.whole]
    rcases Nat.lt_or_ge j (entries nd.log).length with hj | hj
    · have hget : (entries nd.log)[j]? = some ((entries nd.log)[j]) := getElem?_eq_getElem hj
      rw [hget, getD_some, index_eq _ hp.whole _ _ hget]
      refine Or.inr ⟨hj, fun i e hi he => ?_, hpiece⟩
      obtain rfl : j = i := by omega
      rw [hget] at he
      rw [← some.inj he]
    · have hget : (entries nd.log)[j]? = none := getElem?_eq_none hj
      rw [getTerm_eq _ hp, hget]
      exact Or.inl ⟨Nat.succ_pos j, rfl, by rw [drop_eq_nil_of_le (by omega)]; rfl⟩

lemma electionFiber_logOk (rep : LogRep h s) (hc : Campaigns (s.nodes n) nd')
    (hcamp : nd'.role = .candidate → h.term n < nd'.term → h'.camp n nd'.term = some (h.log n)) :
    LogOk h' (electionFiber (s.nodes n) nd' n : Fiber N C) := by
  have r := rep.nodes n
  refine ⟨fun e he => ?_, fun b hb => by simp [electionFiber] at hb, fun b hb => by simp [electionFiber] at hb,
    fun env he => by simp [electionFiber] at he⟩
  simp only [electionFiber, Pc.election.injEq] at he
  subst he
  refine ⟨h.log n, ?_, ?_, ?_⟩
  · rw [rep.votes.id n]
    exact hcamp hc.role (by rw [r.term]; exact hc.term)
  · rw [r.log]; exact lastIndex_eq _ r.plain.whole
  · rw [r.log]; exact lastTerm_eq _ r.plain.whole

lemma log_fibers (rep : LogRep h s) (ht : Trans s a s') (hl : Later h h') (sr : StepRep h h' s') :
    ∀ f ∈ s'.fibers, LogOk h' f := by
  have hold : ∀ f ∈ s.fibers, LogOk h' f := fun f hf => (rep.fibers f hf).mono hl
  have hmem : ∀ {k : ℕ} {f : Fiber N C}, s.fibers[k]? = some f → LogOk h' f :=
    fun hk => hold _ (mem_of_getElem? hk)
  have hlead : ∀ n, (s.nodes n).role = .leader → h'.leader (s.nodes n).term = some n :=
    fun n hr => hl.grows.leader _ _ ((rep.nodes n).lead hr)
  have hself : ∀ n, n ∉ (s.nodes n).getPeerIdsLocked := fun n => by
    have := self_notMem_getPeerIdsLocked (s.nodes n)
    rwa [rep.votes.id n] at this
  intro f hf
  replace hf := ht.fiber f hf
  cases hf with
  | like _ _ g hg hl => exact (hold g hg).like hl
  | inert _ _ hi => exact .inert hi
  | elect _ n hc => exact electionFiber_logOk rep hc (sr.camp n)
  | sendVote _ _ hk e he =>
    have hok := hmem hk
    refine ⟨hok.camp, hok.beat, hok.round, fun env henv => ?_⟩
    rw [← some.inj henv]; exact hok.camp e he
  | stopVotes _ _ hk hr e he =>
    refine ⟨fun e' he' => ?_, nofun, nofun, fun env henv => by simp [hr] at henv⟩
    cases he'
    exact (hmem hk).camp e he
  | beat n hrole =>
    refine ⟨nofun, fun b hb => ?_, nofun, nofun⟩
    cases hb
    exact ⟨hlead n hrole, rep.votes.id n, hself n⟩
  | sendBeat _ _ hk b he _ _ htodo =>
    have hok := hmem hk
    refine ⟨hok.camp, hok.beat, hok.round, fun env henv => ?_⟩
    obtain ⟨h1, h2, h3⟩ := hok.beat b he
    rw [← some.inj henv]
    refine ⟨by rw [h1, h2], fun he => h3 ?_⟩
    rw [htodo, ← h2, he]; exact mem_cons_self
  | stopBeats _ _ hk hr b he =>
    refine ⟨nofun, fun b' hb => ?_, nofun, fun env henv => by simp [hr] at henv⟩
    cases hb
    exact ⟨((hmem hk).beat b he).1, ((hmem hk).beat b he).2.1, by simp⟩
  | round _ f _ hr hrole =>
    refine ⟨nofun, nofun, fun r hr' => ?_, fun env henv => by simp [hr] at henv⟩
    cases hr'
    refine ⟨hlead f.owner hrole, fun p hp => ?_⟩
    simp only [mem_filterMap, map_eq_some_iff] at hp
    obtain ⟨i, -, id, hid, rfl⟩ := hp
    have r := rep.nodes f.owner
    have hrf := (refreshPeers_only (s.nodes f.owner)).data
    obtain ⟨h1, h2, h3, h4⟩ := buildPeerReq_slice (s.nodes f.owner).refreshPeers (by rw [hrf.log]; exact r.plain)
      (hrf.snap.trans r.snap) id i
    refine ⟨?_, h2, h3, ?_⟩
    · rw [h1]; rintro rfl; exact hself f.owner (mem_of_getElem? hid)
    · -- the log of a leader in its term is that term's log
      refine h4.mono ?_
      have hll := rep.base.lead_log f.owner (by rw [r.term]; exact r.lead hrole)
      rw [hrf.log, ← r.log, hll, r.term]
      exact hl.grows.tlog _ (by rw [r.lead hrole]; simp)
  | sendAppend _ _ hk _ r he p _ htodo _ hreq =>
    have hok := hmem hk
    refine ⟨hok.camp, hok.beat, hok.round, fun env henv => ?_⟩
    obtain ⟨h1, h2⟩ := hok.round r he
    obtain ⟨h3, h4, h5, h6⟩ := h2 p (by rw [htodo]; exact mem_cons_self)
    unfold buildRequest at hreq
    rw [h4] at hreq
    rw [← some.inj henv, ← some.inj hreq]
    exact ⟨by rw [rep.votes.id]; exact h1, by rw [rep.votes.id]; exact h3.symm, h5, h6⟩
  | skipPeers _ _ hk hr r he _ htodo =>
    refine ⟨nofun, nofun, fun r' hr' => ?_, fun env henv => by simp [hr] at henv⟩
    cases hr'
    exact ⟨((hmem hk).round r he).1, fun p hp => ((hmem hk).round r he).2 p (htodo.subset hp)⟩
  | noSnapshot _ _ hk hr r he _ _ htodo =>
    refine ⟨nofun, nofun, fun r' hr' => ?_, fun env henv => by simp [hr] at henv⟩
    cases hr'
    refine ⟨((hmem hk).round r he).1, fun q hq => ((hmem hk).round r he).2 q ?_⟩
    rw [htodo]; exact mem_cons_of_mem _ hq
  | answer _ f hf env _ rsp => exact (hold f hf).answer env.dst rsp
  | deliver _ _ hk dst req hr =>
    have hok := hmem hk
    refine ⟨hok.camp, hok.beat, hok.round, fun env henv => ?_⟩
    rw [← some.inj henv]; exact hok.sent ⟨dst, req, none⟩ hr

lemma log_net (rep : LogRep h s) (ht : Trans s a s') (hl : Later h h') : ∀ x ∈ s'.net, ReqOk h' x.1 x.2 :=
  ht.net_forall (fun x hx => (rep.net x hx).mono hl) (fun f hf env he => ((rep.fibers f hf).sent env he).mono hl)

/-! ## Steps and runs -/

lemma Later.of_path {K : Prop} (b : Base majorities h) (p : Path majorities K h h') : Later h h' :=
  ⟨p.grows b, fun _ _ _ => p.camp b⟩

theorem log_step (rep : LogRep h s) (ha : a.Steady) (ht : Trans s a s') :
    ∃ h', Path majorities (s.keepsCommon a) h h' ∧ LogRep h' s' ∧ h'.commit = h.commit := by
  have hst : ∀ n, (s.nodes n).configState = .stable := fun n => (rep.fixed.nodes n).clean.state
  have hsnap : ∀ dst r, s.delivered a ≠ some (dst, .installSnapshot r) := fun dst r hd => rep.delivered_ok hd
  obtain ⟨h', p, sr⟩ := moved_step rep (trans_moved ha hst hsnap ht)
  have hl := Later.of_path rep.base p
  refine ⟨h', p, ⟨p.base rep.base, vote_step rep.votes ht sr.cur sr.future (fun _ _ _ => p.vote rep.base),
    fixed_step rep.votes.file rep.fixed (Steady.fixed ha) ht, sr.nodes, sr.numbered, log_fibers rep ht hl sr,
    log_net rep ht hl⟩, sr.commit⟩

lemma logRep_init (config : N → ClusterConfig N) (hc : ∀ n m, m ∈ (config n).voters.ids ↔ m ≠ n) :
    LogRep Hist.init (init config : Cluster N C L) :=
  ⟨base_init _, voteRep_init config, fixed_init config hc,
    fun n => ⟨plain_empty, rfl, rfl, entries_empty.symm,
      fun h => absurd h (by simp [init]), fun h => absurd h (by simp [init])⟩,
    fun t i e he => by simp [Hist.init] at he, fun f hf => by simp [init] at hf, fun x hx => by simp [init] at hx⟩

lemma log_run (as : List (Action N C L)) (ha : ∀ a ∈ as, a.Steady) (rep : LogRep h s) :
    ∃ h', LogRep h' (run s as) := by
  induction as generalizing h s with
  | nil => exact ⟨h, rep⟩
  | cons a _ ih =>
    obtain ⟨h', -, rep', -⟩ := log_step rep (ha a mem_cons_self) (step_trans s a)
    exact ih (fun x hx => ha x (mem_cons_of_mem _ hx)) rep'

/-- **Log Matching.** -/
theorem logMatching (config : N → ClusterConfig N) (hc : ∀ n m, m ∈ (config n).voters.ids ↔ m ≠ n)
    (as : List (Action N C L)) (ha : ∀ a ∈ as, a.Steady) (n m : N) (i : ℕ) (e f : LogEntry N C)
    (he : get ((run (init config) as).nodes n).log (i + 1) = some e)
    (hf : get ((run (init config) as).nodes m).log (i + 1) = some f) (ht : e.term = f.term) (j : ℕ) (hj : j ≤ i) :
    get ((run (init config) as).nodes n).log (j + 1) = get ((run (init config) as).nodes m).log (j + 1) := by
  obtain ⟨h, rep⟩ := log_run as ha (logRep_init (L := L) config hc)
  have rn := rep.nodes n
  have rm := rep.nodes m
  rw [get_eq _ rn.plain.whole, ← rn.log] at he ⊢
  rw [get_eq _ rm.plain.whole, ← rm.log] at hf ⊢
  have hm := match_of_good (rep.base.log_good n) (rep.base.log_good m) i e f he hf ht
  calc (h.log n)[j]? = ((h.log n).take (i + 1))[j]? := (getElem?_take_of_lt (by omega)).symm
    _ = ((h.log m).take (i + 1))[j]? := by rw [hm]
    _ = (h.log m)[j]? := getElem?_take_of_lt (by omega)

def replicateOne : List (Action (Fin 3) ℕ (CommandLog (Fin 3) ℕ)) :=
  electZero ++ [.call 0 (.submitEntry (.client 10)), .advance 1, .advance 1, .advance 1, .advance 1, .deliver 1]

def replicateTwo : List (Action (Fin 3) ℕ (CommandLog (Fin 3) ℕ)) :=
  electZero ++ [.call 0 (.submitEntry (.client 10)), .call 0 (.submitEntry (.client 20)),
    .advance 1, .advance 1, .advance 1, .advance 1, .deliver 1]

/-- the logs agree at index 2, and so they do at index 1 -/
theorem logMatching_replicateTwo :
    let s := run (init (othersConfig 3)) replicateTwo
    get (s.nodes 0).log 1 = some ⟨1, 1, .client 10⟩ ∧ get (s.nodes 0).log 1 = get (s.nodes 1).log 1 :=
  ⟨by decide +kernel,
    logMatching (othersConfig 3) (by decide) replicateTwo
      (by simp [replicateTwo, electZero, Action.Steady, Command.isClient])
      0 1 1 ⟨1, 2, .client 20⟩ ⟨1, 2, .client 20⟩ (by decide +kernel) (by decide +kernel) rfl 0 (by decide)⟩

/-- **The shape of a log**: indexes count up from 1, and terms neither fall nor pass the node's own. -/
theorem log_sorted (config : N → ClusterConfig N) (hc : ∀ n m, m ∈ (config n).voters.ids ↔ m ≠ n)
    (as : List (Action N C L)) (ha : ∀ a ∈ as, a.Steady) (n : N) :
    let nd := (run (init config) as).nodes n
    ∀ p e, p ++ [e] <+: entries nd.log →
      e.index = p.length + 1 ∧ (∀ x ∈ p, x.term ≤ e.term) ∧ 0 < e.term ∧ e.term ≤ nd.term := by
  intro nd p e hp
  obtain ⟨h, rep⟩ := log_run as ha (logRep_init (L := L) config hc)
  have r := rep.nodes n
  rw [← r.log] at hp
  have hgood := rep.base.log_good n
  have hlast : (h.log n)[p.length]? = some e := by
    obtain ⟨rest, hrest⟩ := hp
    simp [← hrest]
  refine ⟨r.numbered _ e hlast, rep.base.good_sorted hgood hp, rep.base.lead_pos _ (hgood p e hp).1, ?_⟩
  rw [← r.term]
  exact rep.base.log_le n e (hp.subset (by simp))

theorem log_sorted_replicateTwo :
    let e : LogEntry (Fin 3) ℕ := ⟨1, 2, .client 20⟩
    e.index = 2 ∧ (∀ x ∈ ([⟨1, 1, .client 10⟩] : List (LogEntry (Fin 3) ℕ)), x.term ≤ e.term) ∧
      0 < e.term ∧ e.term ≤ ((run (init (othersConfig 3)) replicateTwo).nodes 1).term :=
  log_sorted (othersConfig 3) (by decide) replicateTwo
    (by simp [replicateTwo, electZero, Action.Steady, Command.isClient]) 1 [⟨1, 1, .client 10⟩] ⟨1, 2, .client 20⟩
    (by decide +kernel)

end MaxRedis.Raft.Cluster

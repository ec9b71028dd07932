/-
ReadIndex: the read index against what was acknowledged before the read began.

The read index is the leader's `commit_index_`, taken at once while its lease is valid, otherwise when a majority has
answered in the leader's term.
-/
import MaxRedis.Raft.StateMachineSafety
import MaxRedis.Raft.Submission

namespace MaxRedis.Raft

open LogStorage LawfulLog RaftNode TermLog List

variable {N C L : Type}

/-! ## A read under way -/

/-- the answers that a read of node `n` has counted are of different peers, none of which was in a later term when the
read began; `before` are the terms of that moment -/
structure ReadOk (before : N → ℕ) (n : N) (r : ReadRound N) (rpc : Option (Envelope N C)) : Prop where
  term : r.req.term = before n
  counted : ∃ l : List N, r.successCount = l.length + 1 ∧ (n :: (l ++ r.todo)).Nodup ∧ ∀ m ∈ l, before m ≤ r.req.term
  sent : ∀ env, rpc = some env → env.request = .readIndex r.req ∧ r.todo.head? = some env.dst ∧
    ∀ rsp, env.response = some (.readIndex rsp) → rsp.term = r.req.term → before env.dst ≤ r.req.term

section
variable {before : N → ℕ} {n : N} {r : ReadRound N} {rpc : Option (Envelope N C)}

lemma ReadOk.onRsp (h : ReadOk before n r rpc) {peer : N} {rsp : ReadIndexResponse} (hd : r.todo.head? = some peer)
    (hg : rsp.success → rsp.term = r.req.term → before peer ≤ r.req.term) :
    ReadOk before n (r.onRsp rsp) (none : Option (Envelope N C)) := by
  obtain ⟨l, hl, hn, hm⟩ := h.counted
  obtain ⟨rest, ht⟩ : ∃ rest, r.todo = peer :: rest := head?_eq_some_iff.1 hd
  rw [ht] at hn
  refine ⟨h.term, ?_, nofun⟩
  unfold ReadRound.onRsp
  rw [ht, tail_cons]
  split_ifs with hc
  · refine ⟨l ++ [peer], ?_, ?_, fun m hm' => ?_⟩
    · rw [hl, length_append]; rfl
    · rw [append_assoc]; exact hn
    · rcases mem_append.1 hm' with hm' | hm'
      · exact hm m hm'
      · rw [mem_singleton.1 hm']; exact hg hc.1 hc.2
  · refine ⟨l, hl, hn.sublist ?_, hm⟩
    exact ((sublist_cons_self peer rest).append_left l).cons_cons n

lemma ReadOk.idle (h : ReadOk before n r rpc) : ReadOk before n r (none : Option (Envelope N C)) :=
  ⟨h.term, h.counted, nofun⟩

lemma ReadOk.stop (h : ReadOk before n r rpc) :
    ReadOk before n { r with todo := [] } (none : Option (Envelope N C)) := by
  obtain ⟨l, hl, hn, hm⟩ := h.counted
  refine ⟨h.term, ⟨l, hl, hn.sublist ?_, hm⟩, nofun⟩
  exact ((nil_sublist r.todo).append_left l).cons_cons n

end

lemma readIndexFinish_pos (nd : RaftNode N C L) {currentTerm successCount maxPeerTerm : ℕ}
    (h : 0 < (nd.readIndexFinish currentTerm successCount maxPeerTerm).2) :
    nd.term = currentTerm ∧ (nd.clusterConfig.voters.ids.length + 1) / 2 + 1 ≤ successCount ∧
    (nd.readIndexFinish currentTerm successCount maxPeerTerm).2 = nd.commitIndex := by
  unfold readIndexFinish at h ⊢
  split_ifs at h ⊢ with h1 h2 h3
  · simp at h
  · simp at h
  · simp at h
  · push Not at h2
    exact ⟨h2.2, Nat.not_lt.1 h3, rfl⟩

namespace Cluster

variable [DecidableEq N] [LogStorage N C L]

def okIndexes (s : Cluster N C L) : List ℕ :=
  s.fibers.filterMap (fun f =>
    match f.pc with
    | .returned (.submitted ⟨.ok, _⟩) => f.waiter.map RaftWaiter.idx
    | _ => none)

def Covers (s : Cluster N C L) (x : ℕ) : Prop := ∀ m, (s.nodes m).commitIndex ≤ x

variable [Fintype N]

/-- a read that begins at a leader begins at one that has committed an entry of its own term; one that relies on the
lease begins while a majority is not in a later term -/
def readsFresh (s : Cluster N C L) : Action N C L → Bool
  | .call n .readIndex =>
    let nd := s.nodes n
    nd.role ≠ .leader ||
      (((get nd.log nd.commitIndex).map LogEntry.term == some nd.term) &&
        (nd.leaderLeaseExpire ≤ nd.nowMs ||
          Fintype.card N < 2 * (Finset.univ.filter (fun m => (s.nodes m).term ≤ nd.term)).card))
  | _ => true

def readSound (s : Cluster N C L) (a : Action N C L) : Bool := s.decisionSound a && s.readsFresh a

variable [LawfulLog N C L]
variable {h h' : History N C} {s s' s0 : Cluster N C L} {a : Action N C L} {n : N} {k : ℕ} (as : List (Action N C L))

/-! ## Commits of a term -/

def Led (h : History N C) (s : Cluster N C L) : Prop :=
  ∀ t m, h.leader t = some m → h.commit t ≤ (s.nodes m).commitIndex

lemma led_step (rep : CommitRep h s) (p : Path majorities True h h') (hof : CommitsOf s' h h')
    (hmono : ∀ m, (s.nodes m).commitIndex ≤ (s'.nodes m).commitIndex) (hl : Led h s) : Led h' s' := by
  intro t m hm
  rcases hof t with he | ⟨c, hc, he⟩
  · rw [he]
    cases hlead : h.leader t with
    | none =>
      -- a term without a leader has no commits
      have hzero : h.commit t = 0 := by
        by_contra hne
        exact rep.ack.log.base.committed_leader (rep.ack.safe.commit_ok t (Nat.pos_of_ne_zero hne)) hlead
      rw [hzero]; exact Nat.zero_le _
    | some c =>
      obtain rfl : c = m := Option.some.inj (((p.grows rep.ack.log.base).leader t c hlead).symm.trans hm)
      exact (hl t c hlead).trans (hmono c)
  · obtain rfl : c = m := Option.some.inj (((p.grows rep.ack.log.base).leader t c hc).symm.trans hm)
    rw [he]
    exact max_le ((hl t c hc).trans (hmono c)) le_rfl

/-- **A leader that has committed in its term has committed all that is.** -/
theorem leader_covers (rep : CommitRep h s) (hl : Led h s) (hrole : (s.nodes n).role = .leader)
    (hown : (get (s.nodes n).log (s.nodes n).commitIndex).map LogEntry.term = some (s.nodes n).term)
    (hq : ∃ q : Finset N, Majority q ∧ ∀ m ∈ q, (s.nodes m).term ≤ (s.nodes n).term) :
    s.Covers (s.nodes n).commitIndex := by
  have b := rep.ack.log.base
  have r := rep.ack.log.nodes n
  have hlead := r.lead hrole
  have hlog : entries (s.nodes n).log = h.tlog (s.nodes n).term := by
    rw [← r.log, ← r.term]; exact b.lead_log n (by rw [r.term]; exact hlead)
  have hlast : ∀ t, (s.nodes n).term < t → h.leader t = none := by
    intro t ht
    obtain ⟨q, hq, hle⟩ := hq
    exact b.no_later_leader ht ⟨q, hq, fun m hm => by rw [(rep.ack.log.nodes m).term]; exact hle m hm⟩
  -- the commit index is past the log the leader was elected with
  obtain ⟨e, he, hterm⟩ := Option.map_eq_some_iff.1 hown
  have hpos : 0 < (s.nodes n).term := b.lead_pos _ (by rw [hlead]; simp)
  have hstart : h.start (s.nodes n).term < (s.nodes n).commitIndex := by
    cases hc : (s.nodes n).commitIndex with
    | zero =>
      rw [hc, get_zero _ r.plain.whole] at he
      rw [← Option.some.inj he] at hterm
      exact absurd hterm hpos.ne
    | succ i =>
      have hte : Termed.term e = (s.nodes n).term := hterm
      rw [hc, get_eq _ r.plain.whole, hlog, ← hte] at he
      have hle : (h.tlog (Termed.term e)).take i ++ [e] <+: h.tlog (Termed.term e) := by
        rw [← take_succ_of_getElem? he]; exact take_prefix _ _
      rw [← hte]
      exact Nat.lt_succ_of_le ((b.start_lt_length hle).trans (length_take_le _ _))
  intro m
  have hd := decided_covered b rep.ack.safe (rep.nodes m).decided hlast (by rw [hlead]; simp) hstart (hl _ n hlead)
  rwa [length_take, Nat.min_eq_left (rep.nodes m).len] at hd

/-! ## The run before the read -/

structure Acknowledged (h : History N C) (s : Cluster N C L) : Prop where
  rep : CommitRep h s
  led : Led h s
  queued : Queued s
  within : ∀ m, ∀ f ∈ s.fibers, f.owner = m → OkWithin (s.nodes m).commitIndex f

lemma acknowledged_init (config : N → ClusterConfig N) (hc : ∀ n m, m ∈ (config n).voters.ids ↔ m ≠ n) :
    Acknowledged Hist.init (init config : Cluster N C L) :=
  ⟨commitRep_init config hc,
   fun t m hm => by simp [Hist.init] at hm, queued_init config, fun m f hf => by simp [init] at hf⟩

lemma acknowledged_step (hk : Acknowledged h s) (ha : a.Steady) (hs : s.decisionSound a) :
    ∃ h', Path majorities True h h' ∧ Acknowledged h' (s.step a) ∧
      ∀ m, (s.nodes m).commitIndex ≤ ((s.step a).nodes m).commitIndex := by
  obtain ⟨h', p, rep', hof, hmono⟩ := commit_step hk.rep ha hs (step_trans s a)
  refine ⟨h', p, ⟨rep', led_step hk.rep p hof hmono hk.led, step_queued hk.queued a, fun m => ?_⟩, hmono⟩
  exact step_okWithin hk.queued (hk.within m) (hmono m) ((hk.rep.nodes m).le.trans (hmono m)) (rep'.nodes m).le

lemma acknowledged_run (ha : ∀ a ∈ as, a.Steady) (hs : along readSound s as)
    (hk : Acknowledged h s) : ∃ h', Acknowledged h' (run s as) := by
  induction as generalizing h s with
  | nil => exact ⟨h, hk⟩
  | cons a _ ih =>
    simp only [along, readSound, Bool.and_eq_true] at hs
    obtain ⟨h1, -, hk1, -⟩ := acknowledged_step hk (ha a mem_cons_self) hs.1.1
    exact ih (fun x hx => ha x (mem_cons_of_mem _ hx)) hs.2 hk1

lemma Acknowledged.okIndexes_le (hk : Acknowledged h s) {x : ℕ} (hx : s.Covers x) : ∀ i ∈ s.okIndexes, i ≤ x := by
  intro i hi
  obtain ⟨f, hf, he⟩ := mem_filterMap.1 hi
  split at he
  · rename_i rows hpc
    obtain ⟨w, hw, rfl⟩ := Option.map_eq_some_iff.1 he
    exact ((hk.within f.owner f hf rfl).returned w _ hw hpc rfl).trans (hx f.owner)
  · cases he

/-! ## The read -/

/-- the read at place `k`, of node `n`, that began in the state `s0`: an index it waits for covers what was committed
then -/
structure Reads (s0 : Cluster N C L) (n : N) (k : ℕ) (s : Cluster N C L) : Prop where
  terms : ∀ m, (s0.nodes m).term ≤ (s.nodes m).term
  commit : (s0.nodes n).commitIndex ≤ (s.nodes n).commitIndex
  call : ∃ f, s.fibers[k]? = some f ∧ f.owner = n ∧
    (∀ r, f.pc = .readIndex r → (s0.nodes n).role = .leader ∧ ReadOk (fun m => (s0.nodes m).term) n r f.rpc) ∧
    ∀ x deadlineMs, f.pc = .waitForApplied x deadlineMs → s0.Covers x ∧ x ≤ (s.nodes n).commitIndex

lemma readIndex_reads (rep : CommitRep h s) (hfresh : s.readsFresh (.call n .readIndex))
    (hlead : (s.nodes n).role = .leader → (∃ q : Finset N, Majority q ∧ ∀ m ∈ q, (s.nodes m).term ≤ (s.nodes n).term) →
      s.Covers (s.nodes n).commitIndex) : Reads s n s.fibers.length (s.step (.call n .readIndex)) := by
  have hpeers : (n :: (s.nodes n).getPeerIdsLocked).Nodup := by
    have fx := rep.ack.log.fixed.nodes n
    have hself := self_notMem_getPeerIdsLocked (s.nodes n)
    rw [rep.ack.log.votes.id n] at hself
    exact nodup_cons.2 ⟨hself, nodup_getPeerIdsLocked _⟩
  have hset : ∀ (nd : RaftNode N C L) (g : Fiber N C), nd.term = (s.nodes n).term →
      nd.commitIndex = (s.nodes n).commitIndex → g.owner = n →
      (∀ r, g.pc = .readIndex r → (s.nodes n).role = .leader ∧ ReadOk (fun m => (s.nodes m).term) n r g.rpc) →
      (∀ x deadlineMs, g.pc = .waitForApplied x deadlineMs → s.Covers x ∧ x ≤ (s.nodes n).commitIndex) →
      Reads s n s.fibers.length ((s.setNode n nd).spawn g) := by
    intro nd g ht hc ho h1 h2
    refine ⟨fun m => ?_, ?_, g, getElem?_concat_length, ho, h1, fun x d hx => ?_⟩
    · rw [spawn_nodes]
      by_cases hm : m = n
      · subst hm; rw [setNode_self, ht]
      · rw [setNode_ne s nd hm]
    · rw [spawn_nodes, setNode_self, hc]
    · rw [spawn_nodes, setNode_self, hc]; exact h2 x d hx
  simp only [readsFresh, Bool.or_eq_true, Bool.and_eq_true, decide_eq_true_eq] at hfresh
  simp only [step, call, readIndexStart]
  split_ifs with hrole hlease
  · exact hset _ _ rfl rfl rfl (fun _ h => by cases h) (fun _ _ h => by cases h)
  · -- the lease is valid, and a majority is not in a later term
    refine hset _ _ rfl rfl rfl (fun r hr => ?_) (fun x d hx => ?_)
    · dsimp only at hr; split_ifs at hr
    · split_ifs at hx with hpos
      cases hx
      have hq : Majority (Finset.univ.filter (fun m => (s.nodes m).term ≤ (s.nodes n).term)) :=
        (hfresh.resolve_left hrole).2.resolve_left (by omega)
      exact ⟨hlead (not_not.1 hrole) ⟨_, hq, fun m hm => (Finset.mem_filter.1 hm).2⟩, le_rfl⟩
  · refine hset _ _ rfl rfl rfl (fun r hr => ?_) (fun _ _ h => by cases h)
    cases hr
    exact ⟨not_not.1 hrole, rfl, ⟨[], rfl, hpeers, fun _ h => by cases h⟩, fun _ h => by cases h⟩

lemma step_reads (rep : CommitRep h s) (hterm : ∀ m, (s.nodes m).term ≤ ((s.step a).nodes m).term)
    (hmono : ∀ m, (s.nodes m).commitIndex ≤ ((s.step a).nodes m).commitIndex) (hlead : (s0.nodes n).role = .leader →
      (∃ q : Finset N, Majority q ∧ ∀ m ∈ q, (s0.nodes m).term ≤ (s0.nodes n).term) →
      s0.Covers (s0.nodes n).commitIndex) (hr : Reads s0 n k s) : Reads s0 n k (s.step a) := by
  obtain ⟨f, hf, ho, hround, hwait⟩ := hr.call
  obtain ⟨f', hf', ho'⟩ := step_stays a hf
  refine ⟨fun m => (hr.terms m).trans (hterm m), hr.commit.trans (hmono n), f', hf', ho'.trans ho, ?_⟩
  have hsame : ∀ {g : Fiber N C}, s.fibers[k]? = some g → g = f := fun hg => Option.some.inj (hg.symm.trans hf)
  -- an index that was waited for before the step
  have hlater : ∀ {x d : ℕ}, f.pc = .waitForApplied x d → s0.Covers x ∧ x ≤ ((s.step a).nodes n).commitIndex :=
    fun hx => ⟨(hwait _ _ hx).1, (hwait _ _ hx).2.trans (hmono n)⟩
  have hc := step_call hf'
  cases hc with
  | old hg => rw [hsame hg]; exact ⟨hround, fun x d => hlater⟩
  | started hg => rw [hf] at hg; cases hg
  | asks _ hg env _ hread eq =>
    obtain rfl := hsame hg
    subst eq
    refine ⟨fun r hpc => ?_, fun x d => hlater⟩
    obtain ⟨p, rest, ht, rfl⟩ := hread r hpc
    obtain ⟨hrole, hok⟩ := hround r hpc
    refine ⟨hrole, hok.term, hok.counted, fun env he => ?_⟩
    cases he
    exact ⟨rfl, by rw [ht]; rfl, fun _ h => by cases h⟩
  | told _ hg env hrpc eq =>
    obtain rfl := hsame hg
    subst eq
    refine ⟨fun r hpc => ?_, fun x d => hlater⟩
    obtain ⟨hrole, hok⟩ := hround r hpc
    obtain ⟨hreq, hhead, -⟩ := hok.sent env hrpc
    refine ⟨hrole, hok.term, hok.counted, fun env' he => ?_⟩
    cases he
    refine ⟨hreq, hhead, fun rsp hrsp hrt => ?_⟩
    -- the peer answers with its term, which has only grown since the read began
    rw [hreq] at hrsp
    cases hrsp
    rw [← hrt]
    exact hr.terms env.dst
  | takes g hg env hrpc rsp hrsp eq =>
    obtain rfl := hsame hg
    subst eq
    cases hpc : g.pc with
    | readIndex r =>
      obtain ⟨hrole, hok⟩ := hround r hpc
      obtain ⟨hreq, hhead, hans⟩ := hok.sent env hrpc
      refine ⟨fun r' hr' => ?_, fun x d hx => ?_⟩
      · cases rsp with
        | readIndex rsp =>
          cases hr'
          refine ⟨hrole, hok.onRsp hhead (fun hs ht => ?_)⟩
          rcases hrsp with hrsp | hrsp
          · exact hans rsp hrsp ht
          · rw [hreq] at hrsp; cases hrsp; cases hs
        | _ => cases hr'; exact ⟨hrole, hok.idle⟩
      · cases rsp <;> cases hx
    | waitForApplied =>
      refine ⟨fun r' hr' => ?_, fun x' d' hx => ?_⟩
      · cases hr'
      · cases hx; exact hlater hpc
    | _ =>
      refine ⟨fun r' hr' => ?_, fun x' d' hx => ?_⟩
      · cases rsp <;> cases hr'
      · cases rsp <;> cases hx
  | goes _ hg hrpc _ _ pc hgo eq =>
    obtain rfl := hsame hg
    subst eq
    cases hgo with
    | plain pc hp =>
      refine ⟨fun r' hr' => ?_, fun x' d' hx => ?_⟩
      · obtain rfl : pc = _ := hr'; exact hp.elim
      · obtain rfl : pc = _ := hx; exact hp.elim
    | stopReads r hpc =>
      refine ⟨fun r' hr' => ?_, fun _ _ h => by cases h⟩
      cases hr'
      obtain ⟨hrole, hok⟩ := hround r hpc
      rw [hrpc]
      exact ⟨hrole, hok.stop⟩
    | confirm r hpc _ _ hi =>
      refine ⟨fun r' hr' => ?_, fun x' d' hx => ?_⟩
      · dsimp only at hr'; split_ifs at hr'
      · split_ifs at hx with hpos
        cases hx
        -- the read is confirmed: with the node itself, those who have answered are a majority
        obtain ⟨hrole, hok⟩ := hround r hpc
        obtain ⟨l, hl, hnodup, hle⟩ := hok.counted
        rw [ho] at hi
        rw [hi] at hpos
        obtain ⟨-, hmaj, hcommit⟩ := readIndexFinish_pos (s.nodes n) hpos
        have hq : Majority (n :: l).toFinset := by
          refine .of_list (hnodup.sublist ?_) (rep.ack.log.fixed.nodes n).card (by rw [← hl]; exact hmaj)
          exact (sublist_append_left l r.todo).cons_cons n
        have hcov : s0.Covers (s0.nodes n).commitIndex := by
          refine hlead hrole ⟨_, hq, fun m hm => ?_⟩
          rcases mem_cons.1 (mem_toFinset.1 hm) with rfl | hm
          · exact le_rfl
          · exact (hle m hm).trans hok.term.le
        rw [hi, hcommit]
        exact ⟨fun m => (hcov m).trans hr.commit, hmono n⟩
    | _ => exact ⟨fun _ h => (by cases h), fun _ _ h => by cases h⟩
  | fulfils _ _ _ _ _ _ _ _ eq =>
    subst eq
    exact ⟨fun _ h => (by cases h), fun _ _ h => by cases h⟩
  | fulfilled _ hg _ _ _ _ _ _ _ _ hpc eq =>
    obtain rfl := hsame hg
    subst eq
    rcases hpc with rfl | ⟨-, rfl⟩
    · exact ⟨hround, fun x d => hlater⟩
    · exact ⟨fun _ h => (by cases h), fun _ _ h => by cases h⟩
  | killed _ _ _ _ eq =>
    subst eq
    exact ⟨fun _ h => (by cases h), fun _ _ h => by cases h⟩

lemma run_reads (ha : ∀ a ∈ as, a.Steady) (hs : along readSound s as)
    (hk : Acknowledged h s) (hlead : (s0.nodes n).role = .leader →
      (∃ q : Finset N, Majority q ∧ ∀ m ∈ q, (s0.nodes m).term ≤ (s0.nodes n).term) →
      s0.Covers (s0.nodes n).commitIndex)
    (hr : Reads s0 n k s) : ∃ h', Acknowledged h' (run s as) ∧ Reads s0 n k (run s as) := by
  induction as generalizing h s with
  | nil => exact ⟨h, hk, hr⟩
  | cons a _ ih =>
    simp only [along, readSound, Bool.and_eq_true] at hs
    obtain ⟨h1, p, hk1, hmono⟩ := acknowledged_step hk (ha a mem_cons_self) hs.1.1
    have hterm : ∀ m, (s.nodes m).term ≤ ((s.step a).nodes m).term := by
      intro m
      rw [← (hk.rep.ack.log.nodes m).term, ← (hk1.rep.ack.log.nodes m).term]
      exact p.term m
    exact ih (fun x hx => ha x (mem_cons_of_mem _ hx)) hs.2 hk1 (step_reads hk.rep hterm hmono hlead hr)

lemma read_returns {s : Cluster N C L} (rep : CommitRep h s) {f : Fiber N C} (hf : s.fibers[k]? = some f)
    (hbefore : s.returned k = none) {x : ℕ} (hret : (s.step a).returned k = some (.read x)) (hx : 0 < x) :
    (∃ deadlineMs, f.pc = .waitForApplied x deadlineMs) ∧
    ((s.step a).nodes f.owner).lastApplied = (s.nodes f.owner).commitIndex := by
  have hrun : ∀ o, f.pc ≠ .returned o := by
    intro o ho
    simp [returned, hf, ho] at hbefore
  obtain ⟨f', hf', -⟩ := step_stays a hf
  have hpc : f'.pc = .returned (.read x) := by
    simp only [returned, hf', Option.map_some] at hret
    split at hret
    · rename_i o heq
      rw [Option.some.inj heq, Option.some.inj hret]
    · cases hret
  have hsame : ∀ {g : Fiber N C}, s.fibers[k]? = some g → g = f := fun hg => Option.some.inj (hg.symm.trans hf)
  have hc := step_call hf'
  cases hc with
  | old hg => rw [hsame hg] at hpc; exact absurd hpc (hrun _)
  | started hg => rw [hf] at hg; cases hg
  | asks _ hg _ _ _ eq | told _ hg _ _ eq => rw [eq, hsame hg] at hpc; exact absurd hpc (hrun _)
  | takes _ hg _ _ rsp _ eq =>
    rw [eq, hsame hg] at hpc
    cases hold : f.pc with
    | returned o => exact absurd hold (hrun o)
    | _ => simp only [hold] at hpc; cases rsp <;> cases hpc
  | goes g hg _ _ _ pc hgo eq =>
    obtain rfl := hsame hg
    subst eq
    cases hgo with
    | plain pc hp => obtain rfl : pc = _ := hpc; exact hp.elim
    | confirm =>
      split_ifs at hpc with hpos
      cases hpc
      exact absurd hx hpos
    | waited _ deadlineMs ht hn =>
      cases hpc
      refine ⟨⟨deadlineMs, ht⟩, ?_⟩
      rw [hn]
      exact ((rep.nodes g.owner).apply (rep.ack.log.nodes g.owner).plain (rep.ack.log.fixed.nodes g.owner).clean.log).2
    | _ => cases hpc
  | fulfils _ _ _ _ _ _ _ _ eq => rw [eq] at hpc; cases hpc
  | fulfilled _ hg _ _ _ _ _ _ _ _ hpc' eq =>
    rw [eq] at hpc
    rcases hpc' with rfl | ⟨-, rfl⟩
    · rw [hsame hg] at hpc; exact absurd hpc (hrun _)
    · cases hpc
  | killed _ _ _ _ eq => rw [eq] at hpc; cases hpc

/-- **Linearizable reads.** -/
theorem read_covers_acknowledged (config : N → ClusterConfig N) (hc : ∀ n m, m ∈ (config n).voters.ids ↔ m ≠ n) (n : N)
    (as bs : List (Action N C L)) (a : Action N C L) (ha : ∀ x ∈ as ++ .call n .readIndex :: (bs ++ [a]), x.Steady)
    (hs : along readSound (init config) (as ++ .call n .readIndex :: (bs ++ [a]))) (r : ℕ) (hr : 0 < r)
    (hbefore : (run (init config) (as ++ .call n .readIndex :: bs)).returned (run (init config) as).fibers.length =
    none)
    (hret : (run (init config) (as ++ .call n .readIndex :: (bs ++
      [a]))).returned (run (init config) as).fibers.length =
      some (.read r)) : (∀ i ∈ (run (init config) as).okIndexes, i ≤ r) ∧
    r ≤ ((run (init config) (as ++ .call n .readIndex :: (bs ++ [a]))).nodes n).lastApplied := by
  rw [along_append, Bool.and_eq_true] at hs
  obtain ⟨h0, hk0⟩ := acknowledged_run as (fun x hx => ha x (mem_append_left _ hx)) hs.1
    (acknowledged_init config hc)
  have hsteady : ∀ x ∈ .call n .readIndex :: (bs ++ [a]), Action.Steady x :=
    fun x hx => ha x (mem_append_right _ hx)
  rw [run_append] at hbefore hret ⊢
  have hs2 := hs.2
  generalize run (init config) as = s at hk0 hs2 hbefore hret ⊢
  simp only [along, Bool.and_eq_true] at hs2
  obtain ⟨hcall, hrest⟩ := hs2
  rw [along_append, Bool.and_eq_true] at hrest
  -- the state in which the read began
  have hcall' := hcall
  simp only [readSound, Bool.and_eq_true] at hcall'
  have hlead : (s.nodes n).role = .leader →
      (∃ q : Finset N, Majority q ∧ ∀ m ∈ q, (s.nodes m).term ≤ (s.nodes n).term) →
      s.Covers (s.nodes n).commitIndex := by
    intro hrole hq
    have hfresh := hcall'.2
    simp only [readsFresh, Bool.or_eq_true, Bool.and_eq_true, decide_eq_true_eq, beq_iff_eq] at hfresh
    exact leader_covers hk0.rep hk0.led hrole (hfresh.resolve_left (not_not.2 hrole)).1 hq
  obtain ⟨h1, -, hk1, -⟩ := acknowledged_step hk0 (hsteady _ mem_cons_self) hcall'.1
  obtain ⟨h2, hk2, hreads⟩ := run_reads bs
    (fun x hx => hsteady x (mem_cons_of_mem _ (mem_append_left _ hx))) hrest.1 hk1 hlead
    (readIndex_reads hk0.rep hcall'.2 hlead)
  have hlast : run s (.call n .readIndex :: (bs ++ [a])) = (run (s.step (.call n .readIndex)) bs).step a :=
    run_append _ bs [a]
  rw [hlast] at hret ⊢
  obtain ⟨f, hf, ho, -, hwait⟩ := hreads.call
  obtain ⟨⟨deadlineMs, hpc⟩, happlied⟩ := read_returns hk2.rep hf hbefore hret hr
  obtain ⟨hcov, hle⟩ := hwait r deadlineMs hpc
  rw [ho] at happlied
  exact ⟨hk0.okIndexes_le hcov, by rw [happlied]; exact hle⟩

def answerOne : List (Action (Fin 3) ℕ (CommandLog (Fin 3) ℕ)) :=
  electZero ++ .call 0 (.submitEntry (.client 10)) :: submitOne

theorem read_covers_acknowledged_answerOne :
    let s := run (init (othersConfig 3)) answerOne
    let s' := run (init (othersConfig 3)) (answerOne ++ .call 0 .readIndex ::
      ([.advance 2, .deliver 2, .recv 2, .advance 2, .fail 2, .advance 2] ++ [.advance 2]))
    s.okIndexes = [1] ∧ s'.returned s.fibers.length = some (.read 1) ∧ (∀ i ∈ s.okIndexes, i ≤ 1) ∧
    1 ≤ (s'.nodes 0).lastApplied :=
  ⟨by decide +kernel, by decide +kernel,
    read_covers_acknowledged (othersConfig 3) (by decide) 0 answerOne
      [.advance 2, .deliver 2, .recv 2, .advance 2, .fail 2, .advance 2] (.advance 2)
      (by simp [answerOne, electZero, submitOne, Action.Steady, Command.isClient]) (by decide +kernel) 1 (by decide)
      (by decide +kernel) (by decide +kernel)⟩

/-! ## Stale reads -/

def answerTwo : List (Action (Fin 3) ℕ (CommandLog (Fin 3) ℕ)) :=
  answerOne ++ ([.call 0 (.submitEntry (.client 20)), .advance 2, .advance 2, .advance 2, .advance 2, .deliver 2,
    .recv 2, .advance 2, .advance 2, .advance 2, .advance 2, .advance 2, .advance 2,
    .call 1 .startElection, .advance 3, .fail 3, .advance 3, .deliver 3, .recv 3, .advance 3] : Steps3)

/-- **A stale read of a new leader.** -/
theorem stale_read :
    let s := run (init (othersConfig 3)) answerTwo
    let as := answerTwo ++
      ([.call 1 .readIndex, .advance 4, .fail 4, .advance 4, .deliver 4, .recv 4, .advance 4, .advance 4] : Steps3)
    s.okIndexes = [1, 2] ∧ (run (init (othersConfig 3)) as).returned s.fibers.length = some (.read 1) ∧
    along decisionSound (init (othersConfig 3)) as := by
  decide +kernel

end Cluster

end MaxRedis.Raft

/-
Where a call goes on.

`Pc.Flow` is the control flow of elections, heartbeats, the rounds of `ReplicateLog` and the transfer of leadership;
`Pc.Asks` says whom a call asks, and what.
-/
import MaxRedis.Raft.Transitions

namespace MaxRedis.Raft

open LogStorage RaftNode Cluster

namespace Pc

variable {N C : Type} {env : Envelope N C}

inductive Flow : Pc N C → Pc N C → Prop where
  | stopVotes (e : Election N) : Flow (.election e) (.election { e with todo := [] })
  | tallied (e : Election N) : Flow (.election e) (.returned .done)
  | stopBeats (h : HeartbeatRound N) : Flow (.heartbeat h) (.heartbeat { h with todo := [] })
  | beaten (h : HeartbeatRound N) : Flow (.heartbeat h) (.returned .done)
  | beatenTransfer (h : HeartbeatRound N) (needReplicate : Bool) : Flow (.heartbeat h) (.timeoutStart needReplicate)
  | beatenReplicate (h : HeartbeatRound N) : Flow (.heartbeat h) (.replicateBegin false .finish 0)
  | tells (req : TimeoutNowRequest N) (needReplicate : Bool) :
      Flow (.timeoutStart needReplicate) (.timeoutSend req needReplicate)
  | untold (needReplicate : Bool) : Flow (.timeoutStart needReplicate) (.returned .done)
  | untoldReplicate (needReplicate : Bool) : Flow (.timeoutStart needReplicate) (.replicateBegin false .finish 0)
  | noTarget (req : TimeoutNowRequest N) (needReplicate : Bool) :
      Flow (.timeoutSend req needReplicate) (.timeoutDone false needReplicate)
  | toldReplicate (accepted needReplicate : Bool) :
      Flow (.timeoutDone accepted needReplicate) (.replicateBegin false .finish 0)
  | told (accepted needReplicate : Bool) : Flow (.timeoutDone accepted needReplicate) (.returned .done)
  | refused (lowLatency : Bool) (after : After N) (round : ℕ) :
      Flow (.replicateBegin lowLatency after round) (afterReplicate after)
  | noPeers (lowLatency : Bool) (after : After N) (round : ℕ) :
      Flow (.replicateBegin lowLatency after round) (.replicateAlone after)
  | begun (lowLatency : Bool) (after : After N) (round : ℕ) (r : ReplicateRound N C) (h : r.after = after) :
      Flow (.replicateBegin lowLatency after round) (.replicate r)
  | alone (after : After N) : Flow (.replicateAlone after) (afterReplicate after)
  | skips (r : ReplicateRound N C) (todo : List (PeerReq N C)) (rsps : List (PeerReq N C × PeerRsp)) :
      Flow (.replicate r) (.replicate { r with todo := todo, rsps := rsps })
  | again (r : ReplicateRound N C) (lowLatency : Bool) (round : ℕ) :
      Flow (.replicate r) (.replicateBegin lowLatency r.after round)
  | replicated (r : ReplicateRound N C) : Flow (.replicate r) (afterReplicate r.after)
  | hands (target : N) : Flow (.transferCheck target) (.timeoutStart false)
  | keeps (target : N) : Flow (.transferCheck target) (.returned .done)

inductive Asks : Pc N C → Envelope N C → Prop where
  | vote (e : Election N) (p : N) (rest : List N) (h : e.todo = p :: rest) : Asks (.election e) ⟨p, .vote e.req, none⟩
  | heartbeat (b : HeartbeatRound N) (p : N) (rest : List N) (h : b.todo = p :: rest) :
      Asks (.heartbeat b) ⟨p, .heartbeat b.req, none⟩
  | timeoutNow (req : TimeoutNowRequest N) (needReplicate : Bool) (target : N) :
      Asks (.timeoutSend req needReplicate) ⟨target, .timeoutNow req, none⟩
  | replicate (r : ReplicateRound N C) (p : N) (req : Request N C) : Asks (.replicate r) ⟨p, req, none⟩
  | readIndex (r : ReadRound N) (p : N) (rest : List N) (h : r.todo = p :: rest) :
      Asks (.readIndex r) ⟨p, .readIndex r.req, none⟩

lemma Asks.unanswered {pc : Pc N C} (h : pc.Asks env) : env.response = none := by
  cases h with
  | _ => rfl

lemma asks_readIndex {r : ReadRound N} (h : (Pc.readIndex r).Asks env) :
    ∃ p rest, r.todo = p :: rest ∧ env = ⟨p, .readIndex r.req, none⟩ := by
  cases h with
  | readIndex _ p rest htodo => exact ⟨p, rest, htodo, rfl⟩

lemma Flow.replicateNext (r : ReplicateRound N C) (o : Option Bool) :
    Flow (.replicate r) (Cluster.replicateNext r o) := by
  unfold Cluster.replicateNext
  split
  · split_ifs
    · exact .again r _ _
    · exact .replicated r
  · exact .replicated r

/-- the call is between the decision to send TimeoutNow and the answer -/
def handing : Pc N C → Bool
  | .timeoutStart _ => true
  | .timeoutSend _ _ => true
  | _ => false

end Pc

namespace Cluster

variable {N C L : Type} [DecidableEq N] [LogStorage N C L]

/-- **What a section of the call `f` at place `k` does** to the calls and the groups. -/
inductive Section (s t : Cluster N C L) (k : ℕ) (f : Fiber N C) : Prop where
  | idle (hg : t.groups = s.groups) (hf : t.fibers = s.fibers)
  | asks (env : Envelope N C) (h : f.pc.Asks env) (hg : t.groups = s.groups)
      (hf : t.fibers = s.fibers.set k { f with rpc := some env })
  | flows (pc : Pc N C) (h : f.pc.Flow pc) (hg : t.groups = s.groups)
      (hf : t.fibers = s.fibers.set k { f with pc := pc })
  | stopReads (r : ReadRound N) (hpc : f.pc = .readIndex r) (hg : t.groups = s.groups)
      (hf : t.fibers = s.fibers.set k { f with pc := .readIndex { r with todo := [] } })
  | confirms (r : ReadRound N) (hpc : f.pc = .readIndex r) (i deadlineMs : ℕ)
      (hi : i = ((s.nodes f.owner).readIndexFinish r.req.term r.successCount r.maxPeerTerm).2)
      (hg : t.groups = s.groups)
      (hf : t.fibers = s.fibers.set k { f with
      pc := if 0 < i then .waitForApplied i deadlineMs else .returned (.read i) })
  | waited (target deadlineMs : ℕ) (hpc : f.pc = .waitForApplied target deadlineMs)
      (hn : t.nodes f.owner = (s.nodes f.owner).applyCommittedLogsLocked) (hg : t.groups = s.groups)
      (hf : t.fibers = s.fibers.set k { f with pc := .returned (.read target) })
  | enters (attempt : ℕ) (hpc : f.pc = .submitEnter attempt)
      (hg : t.groups = fun m => if m = f.owner then ⟨true, (s.groups f.owner).waiters ++ [k]⟩ else s.groups m)
      (hf : t.fibers = s.fibers.set k
        { f with pc := if (s.groups f.owner).active then .submitWait else .coordinatorTake attempt })
  | answers (w : RaftWaiter N C) (r : ApplyResult) (hpc : f.pc = .submitWait ∨ ∃ attempt, f.pc = .submitCheck attempt)
      (hw : f.waiter = some w) (hr : w.res = some r) (hg : t.groups = s.groups)
      (hf : t.fibers = s.fibers.set k { f with pc := .returned (.submitted r) })
  | takes (attempt : ℕ) (hpc : f.pc = .coordinatorTake attempt)
      (hg : t.groups = fun m => if m = f.owner then {} else s.groups m)
      (hf : t.fibers = s.fibers.set k
        { f with pc := .replicateBegin true (.coordinate attempt (s.groups f.owner).waiters 0) 0 })
  | counts (attempt : ℕ) (batch : List ℕ) (i : ℕ) (hpc : f.pc = .coordinatorApply attempt batch i)
      (hdone : batch.foldl (fun m w => max m (s.waiterIdx w)) 0 ≤ (t.nodes f.owner).lastApplied ∨ 16 ≤ i + 1)
      (hg : t.groups = s.groups)
      (hf : t.fibers = s.fibers.set k { f with pc := .coordinatorFulfil attempt batch (t.nodes f.owner).lastApplied })
  | repeats (attempt : ℕ) (batch : List ℕ) (i : ℕ) (hpc : f.pc = .coordinatorApply attempt batch i)
      (hg : t.groups = s.groups)
      (hf : t.fibers = s.fibers.set k { f with pc := .replicateBegin true (.coordinate attempt batch (i + 1)) 0 })
  | fulfils (attempt w : ℕ) (rest : List ℕ) (applied : ℕ) (hpc : f.pc = .coordinatorFulfil attempt (w :: rest) applied)
      (ht : t = (s.setFiber k { f with pc := .coordinatorFulfil attempt rest applied }).fulfil w applied)
  | checks (attempt applied : ℕ) (hpc : f.pc = .coordinatorFulfil attempt [] applied) (hg : t.groups = s.groups)
      (hf : t.fibers = s.fibers.set k { f with pc := .submitCheck attempt })
  | late (attempt : ℕ) (hpc : f.pc = .submitCheck attempt) (w : RaftWaiter N C) (hw : f.waiter = some w)
      (hr : w.res = none)
      (hle : w.idx ≤ (s.nodes f.owner).lastApplied) (hg : t.groups = s.groups)
      (hf : t.fibers = s.fibers.set k { f with pc := .returned (.submitted ⟨.ok, 1⟩) })
  | retries (attempt : ℕ) (hpc : f.pc = .submitCheck attempt) (w : RaftWaiter N C) (hw : f.waiter = some w)
      (hr : w.res = none) (hg : t.groups = s.groups)
      (hf : t.fibers = s.fibers.set k { f with pc := .submitEnter (attempt + 1) })
  | givesUp (attempt : ℕ) (hpc : f.pc = .submitCheck attempt) (w : RaftWaiter N C) (hw : f.waiter = some w)
      (hr : w.res = none) (hg : t.groups = s.groups)
      (hf : t.fibers = s.fibers.set k { f with pc := .returned (.submitted ⟨.error, 0⟩) })

variable {s : Cluster N C L} {k : ℕ} {f : Fiber N C}

lemma advanceReplicate_section {r : ReplicateRound N C} (hf : f.pc = .replicate r) :
    Section s (s.advanceReplicate k f r) k f := by
  unfold advanceReplicate
  dsimp only
  split
  · split_ifs
    · exact .flows _ (hf ▸ .skips r _ _) rfl rfl
    · exact .flows _ (hf ▸ .skips r _ _) rfl rfl
    · split
      · exact .asks _ (hf ▸ .replicate r _ _) rfl rfl
      · exact .flows _ (hf ▸ .skips r _ _) rfl rfl
  · exact .flows _ (hf ▸ .replicateNext r _) rfl rfl

lemma beginReplicate_section {lowLatency : Bool} {after : After N} {round : ℕ}
    (hf : f.pc = .replicateBegin lowLatency after round) :
    Section s (s.beginReplicate k f lowLatency after round) k f := by
  unfold beginReplicate
  split
  · exact .flows _ (hf ▸ .refused _ _ _) rfl rfl
  · refine .flows _ ?_ rfl rfl
    rw [hf]
    split_ifs
    · exact .noPeers _ _ _
    · exact .begun _ _ _ _ rfl

lemma heartbeat_section {h : HeartbeatRound N} (hf : f.pc = .heartbeat h) : Section s (s.advance k f) k f := by
  simp only [advance, hf]
  split
  · rename_i p rest htodo
    split_ifs
    · exact .flows _ (hf ▸ .stopBeats h) rfl rfl
    · exact .asks _ (hf ▸ Pc.Asks.heartbeat h p rest htodo) rfl (by rw [hf]; rfl)
  · split
    · exact .flows _ (hf ▸ .beaten h) rfl rfl
    · refine .flows _ ?_ rfl rfl
      rw [hf]
      split_ifs
      · exact .beatenTransfer h _
      · exact .beatenReplicate h
      · exact .beaten h

theorem advance_section (hk : s.fibers[k]? = some f) : Section s (s.advance k f) k f := by
  cases hf : f.pc with
  | election e =>
    simp only [advance, hf]
    split
    · rename_i p rest htodo
      split_ifs
      · exact .flows _ (hf ▸ .stopVotes e) rfl rfl
      · exact .asks _ (hf ▸ Pc.Asks.vote e p rest htodo) rfl (by rw [hf]; rfl)
    · exact .flows _ (hf ▸ .tallied e) rfl rfl
  | heartbeat => exact heartbeat_section hf
  | timeoutStart needReplicate =>
    simp only [advance, hf]
    refine .flows _ ?_ rfl rfl
    rw [hf]
    split
    · exact .tells _ needReplicate
    · split_ifs
      · exact .untoldReplicate needReplicate
      · exact .untold needReplicate
  | timeoutSend req needReplicate =>
    simp only [advance, hf]
    split
    · exact .flows _ (hf ▸ .noTarget req needReplicate) rfl rfl
    · exact .asks _ (hf ▸ Pc.Asks.timeoutNow req needReplicate _) rfl (by rw [hf]; rfl)
  | timeoutDone =>
    simp only [advance, hf]
    refine .flows _ ?_ rfl rfl
    rw [hf]
    split_ifs
    · exact .toldReplicate _ _
    · exact .told _ _
  | replicateBegin =>
    simp only [advance, hf]
    exact beginReplicate_section hf
  | replicateAlone after =>
    simp only [advance, hf]
    exact .flows _ (hf ▸ .alone after) rfl rfl
  | replicate =>
    simp only [advance, hf]
    exact advanceReplicate_section hf
  | transferCheck target =>
    simp only [advance, hf]
    split
    · exact .flows _ (hf ▸ .hands target) rfl rfl
    · exact .flows _ (hf ▸ .keeps target) rfl rfl
  | readIndex r =>
    simp only [advance, hf]
    split
    · rename_i p rest htodo
      split_ifs
      · exact .stopReads r hf rfl rfl
      · exact .asks _ (hf ▸ Pc.Asks.readIndex r p rest htodo) rfl (by rw [hf]; rfl)
    · exact .confirms r hf _ _ rfl rfl rfl
  | waitForApplied target deadlineMs =>
    simp only [advance, hf]
    split_ifs
    · exact .waited target deadlineMs hf (setNode_self _ _ _) rfl rfl
    · -- the call stays where it is
      refine .idle rfl ?_
      obtain ⟨hlt, hself⟩ := List.getElem?_eq_some_iff.1 hk
      have hsame : ({ f with pc := .waitForApplied target deadlineMs } : Fiber N C) = s.fibers[k] := by rw [hself, ← hf]
      show s.fibers.set k { f with pc := .waitForApplied target deadlineMs } = s.fibers
      rw [hsame, List.set_getElem_self]
  | submitEnter attempt =>
    simp only [advance, hf]
    exact .enters attempt hf rfl rfl
  | submitWait =>
    simp only [advance, hf]
    split
    · rename_i r hres
      obtain ⟨w, hw, hr⟩ := Option.bind_eq_some_iff.1 hres
      exact .answers w r (Or.inl hf) hw hr rfl rfl
    · exact .idle rfl rfl
  | coordinatorTake attempt =>
    simp only [advance, hf]
    exact .takes attempt hf rfl rfl
  | coordinatorApply attempt batch i =>
    have hnode : (s.advance k f).nodes f.owner = (s.nodes f.owner).applyCommittedLogsLocked := by
      simp only [advance, hf]
      exact setNode_self _ _ _
    by_cases hdone : batch.foldl (fun m w => max m (s.waiterIdx w)) 0 ≤ ((s.advance k f).nodes f.owner).lastApplied ∨
        16 ≤ i + 1
    · refine .counts attempt batch i hf hdone ?_ ?_
      · simp only [advance, hf]
        rfl
      · rw [hnode] at hdone ⊢
        simp only [advance, hf, if_pos hdone]
        rfl
    · refine .repeats attempt batch i hf ?_ ?_
      · simp only [advance, hf]
        rfl
      · rw [hnode] at hdone
        simp only [advance, hf, if_neg hdone]
        rfl
  | coordinatorFulfil attempt batch applied =>
    simp only [advance, hf]
    cases batch with
    | nil => exact .checks attempt applied hf rfl rfl
    | cons w rest => exact .fulfils attempt w rest applied hf rfl
  | submitCheck attempt =>
    simp only [advance, hf]
    split
    · exact .idle rfl rfl
    · rename_i w hw
      split
      · rename_i r hr
        exact .answers w r (Or.inr ⟨attempt, hf⟩) hw hr rfl rfl
      · rename_i hr
        split_ifs with hle
        · exact .late attempt hf w hw hr hle rfl rfl
        · exact .retries attempt hf w hw hr rfl rfl
        · exact .givesUp attempt hf w hw hr rfl rfl
  | returned =>
    simp only [advance, hf]
    exact .idle rfl rfl

/-! ## One call -/

variable {j : ℕ} {f' : Fiber N C}

/-- what a section does to its own call: it sends a request, or it goes on along the control flow, or it is a section of
a read or a write -/
inductive Section.Own (f f' : Fiber N C) : Prop where
  | asks (env : Envelope N C) (h : f.pc.Asks env) (rpc : f'.rpc = some env) (pc : f'.pc = f.pc)
  | stays (rpc : f'.rpc = f.rpc) (pc : f'.pc = f.pc)
  | flows (rpc : f'.rpc = f.rpc) (pc : f.pc.Flow f'.pc)
  | other (rpc : f'.rpc = f.rpc) (pc : f'.pc.handing = false)

lemma Section.own {t : Cluster N C L} (h : Section s t k f) (hk : s.fibers[k]? = some f) :
    ∃ g : Fiber N C, g.owner = f.owner ∧ Section.Own f g ∧
      (t.fibers = s.fibers.set k g ∨ ∃ w applied, t.fibers = ((s.setFiber k g).fulfil w applied).fibers) := by
  have hother : ∀ {pc : Pc N C}, t.fibers = s.fibers.set k { f with pc := pc } → pc.handing = false →
      ∃ g : Fiber N C, g.owner = f.owner ∧ Section.Own f g ∧
        (t.fibers = s.fibers.set k g ∨ ∃ w applied, t.fibers = ((s.setFiber k g).fulfil w applied).fibers) :=
    fun {pc} hf hpc => ⟨{ f with pc := pc }, rfl, .other rfl hpc, Or.inl hf⟩
  cases h with
  | idle _ hf =>
    refine ⟨f, rfl, .stays rfl rfl, Or.inl ?_⟩
    obtain ⟨hlt, hself⟩ := List.getElem?_eq_some_iff.1 hk
    rw [hf, ← hself, List.set_getElem_self]
  | asks env h _ hf => exact ⟨{ f with rpc := some env }, rfl, .asks env h rfl rfl, Or.inl hf⟩
  | flows pc h _ hf => exact ⟨{ f with pc := pc }, rfl, .flows rfl h, Or.inl hf⟩
  | fulfils attempt w rest applied _ ht =>
    exact ⟨{ f with pc := .coordinatorFulfil attempt rest applied }, rfl, .other rfl rfl,
      Or.inr ⟨w, applied, by rw [ht]⟩⟩
  | confirms _ _ _ _ _ _ hf => exact hother hf (by split_ifs <;> rfl)
  | enters _ _ _ hf => exact hother hf (by split_ifs <;> rfl)
  | stopReads _ _ _ hf | waited _ _ _ _ _ hf | answers _ _ _ _ _ _ hf | takes _ _ _ hf => exact hother hf rfl
  | counts _ _ _ _ _ _ hf | repeats _ _ _ _ _ hf | checks _ _ _ _ hf => exact hother hf rfl
  | late _ _ _ _ _ _ _ hf | retries _ _ _ _ _ _ hf | givesUp _ _ _ _ _ _ hf => exact hother hf rfl

lemma fulfil_keeps {w applied : ℕ} (hf' : (s.fulfil w applied).fibers[j]? = some f') :
    ∃ f : Fiber N C, s.fibers[j]? = some f ∧ f'.owner = f.owner ∧ f'.pc = f.pc ∧ f'.rpc = f.rpc := by
  unfold fulfil at hf'
  split at hf'
  · exact ⟨f', hf', rfl, rfl, rfl⟩
  · rename_i g hg
    rw [setFiber_fibers, List.getElem?_set] at hf'
    split_ifs at hf' with hwj
    · subst hwj
      rw [← Option.some.inj hf']
      exact ⟨g, hg, rfl, rfl, rfl⟩
    · exact ⟨f', hf', rfl, rfl, rfl⟩

/-- **What a section does to one call**: to its own, or to another, whose result it may set -/
theorem advance_fiber (hk : s.fibers[k]? = some f) (hj : (s.advance k f).fibers[j]? = some f') :
    (f'.owner = f.owner ∧ Section.Own f f') ∨
    (j ≠ k ∧ ∃ g : Fiber N C, s.fibers[j]? = some g ∧ f'.owner = g.owner ∧ f'.pc = g.pc ∧ f'.rpc = g.rpc) := by
  obtain ⟨g, ho, hown, hg⟩ := (advance_section hk).own hk
  have hset : ∀ {g' : Fiber N C}, (s.fibers.set k g)[j]? = some g' → g' = g ∨ (j ≠ k ∧ s.fibers[j]? = some g') := by
    intro g' hj
    rw [List.getElem?_set] at hj
    split_ifs at hj with hkj
    · exact Or.inl (Option.some.inj hj).symm
    · exact Or.inr ⟨Ne.symm hkj, hj⟩
  rcases hg with hg | ⟨w, applied, hg⟩
  · rw [hg] at hj
    rcases hset hj with rfl | ⟨hne, hj⟩
    · exact Or.inl ⟨ho, hown⟩
    · exact Or.inr ⟨hne, f', hj, rfl, rfl, rfl⟩
  · rw [hg] at hj
    obtain ⟨g', hg', ho', hpc, hrpc⟩ := fulfil_keeps hj
    rcases hset hg' with rfl | ⟨hne, hj⟩
    · refine Or.inl ⟨ho'.trans ho, ?_⟩
      cases hown with
      | asks env h rpc pc => exact .asks env h (hrpc.trans rpc) (hpc.trans pc)
      | stays rpc pc => exact .stays (hrpc.trans rpc) (hpc.trans pc)
      | flows rpc pc => rw [← hpc] at pc; exact .flows (hrpc.trans rpc) pc
      | other rpc pc => rw [← hpc] at pc; exact .other (hrpc.trans rpc) pc
    · exact Or.inr ⟨hne, g', hj, ho', hpc, hrpc⟩

end Cluster

end MaxRedis.Raft

/-
The group commit of SubmitEntry: what a step does to groups, batches and waiters.

A call joins the group of its node; the first to join coordinates.
-/
import MaxRedis.Raft.NodeSteps
import MaxRedis.Raft.Sections

namespace MaxRedis.Raft

open LogStorage RaftNode List

inductive Phase where
  | other
  | enter
  | wait
  | take
  | commits (batch : List ℕ)
  | fulfils (batch : List ℕ) (applied : ℕ)
  | check
  | done (r : ApplyResult)

def Phase.batch : Phase → List ℕ
  | .commits batch => batch
  | .fulfils batch _ => batch
  | _ => []

def After.phase {N : Type} : After N → Phase
  | .coordinate _ batch _ => .commits batch
  | _ => .other

def Pc.phase {N C : Type} : Pc N C → Phase
  | .replicateBegin _ after _ => after.phase
  | .replicateAlone after => after.phase
  | .replicate r => r.after.phase
  | .submitEnter _ => .enter
  | .submitWait => .wait
  | .coordinatorTake _ => .take
  | .coordinatorApply _ batch _ => .commits batch
  | .coordinatorFulfil _ batch applied => .fulfils batch applied
  | .submitCheck _ => .check
  | .returned (.submitted r) => .done r
  | _ => .other

def Pc.plain {N C : Type} : Pc N C → Prop
  | .readIndex _ => False
  | .waitForApplied _ _ => False
  | .coordinatorFulfil _ _ _ => False
  | .returned (.submitted _) => False
  | .returned (.read _) => False
  | _ => True

lemma ReplicateRound.after_onRsp {N C : Type} (r : ReplicateRound N C) (g : PeerReq N C → PeerRsp) :
    (r.onRsp g).after = r.after := by
  unfold onRsp
  split <;> rfl

lemma Pc.phase_onRsp {N C : Type} (pc : Pc N C) (peer : N) (rsp : Response) :
    (pc.onRsp peer rsp).phase = pc.phase := by
  cases pc with
  | replicate r =>
    cases rsp with
    | appendEntries | installSnapshot => exact congrArg After.phase (r.after_onRsp _)
    | _ => rfl
  | election => cases rsp with | _ => rfl
  | heartbeat => cases rsp with | _ => rfl
  | timeoutSend => cases rsp with | _ => rfl
  | readIndex => cases rsp with | _ => rfl
  | _ => rfl

inductive GroupEvent where
  | quiet
  | push (k : ℕ)
  | take (batch : List ℕ)
  | mark (w : ℕ)

namespace Cluster

variable {N C L : Type} [DecidableEq N] [LogStorage N C L]

lemma afterReplicate_plain (after : After N) :
    (afterReplicate after : Pc N C).plain ∧ (afterReplicate after : Pc N C).phase = after.phase := by
  cases after with
  | _ => exact ⟨trivial, rfl⟩

lemma Flow.plain {pc pc' : Pc N C} (h : pc.Flow pc') : pc'.plain ∧ pc'.phase = pc.phase := by
  cases h with
  | refused _ after | alone after => exact afterReplicate_plain after
  | replicated r => exact afterReplicate_plain r.after
  | begun _ _ _ _ h => exact ⟨trivial, congrArg After.phase h⟩
  | _ => exact ⟨trivial, rfl⟩

/-! ## Calls that begin -/

inductive Started (s : Cluster N C L) : Action N C L → Fiber N C → Prop where
  | election (a : Action N C L) (n : N) (e : Election N) : Started s a { owner := n, pc := .election e }
  | beat (n : N) (hl : (s.nodes n).role = .leader) (isLoop : Bool) :
      Started s (.call n (.heartbeatTick isLoop))
        { owner := n
          pc := .heartbeat ⟨isLoop, (s.nodes n).heartbeatEpoch,
            ⟨(s.nodes n).term, (s.nodes n).nodeId, (s.nodes n).commitIndex⟩, (s.nodes n).getPeerIdsLocked, 1, [],
            (s.nodes n).term⟩ }
  | replicate (n : N) (lowLatency : Bool) :
      Started s (.call n (.replicateLog lowLatency)) { owner := n, pc := .replicateBegin lowLatency .finish 0 }
  | transfer (n target : N) (hl : (s.nodes n).role = .leader) :
      Started s (.call n (.startTransfer target)) { owner := n, pc := .replicateBegin false (.transfer target) 0 }
  | refuse (n : N) (command : Command N C) :
      Started s (.call n (.submitEntry command)) { owner := n, pc := .returned (.submitted ⟨.error, 0⟩) }
  | submit (n : N) (command : Command N C) (idx : ℕ) (h : ((s.nodes n).submitAppend command).2 = some idx) :
      Started s (.call n (.submitEntry command))
        { owner := n, pc := .submitEnter 0, waiter := some ⟨idx, ⟨(s.nodes n).term, idx, command⟩, none⟩ }
  | noRead (n : N) : Started s (.call n .readIndex) { owner := n, pc := .returned (.read 0) }
  | leaseRead (n : N) (hl : (s.nodes n).role = .leader) (i deadlineMs : ℕ) :
      Started s (.call n .readIndex)
        { owner := n, pc := if 0 < i then .waitForApplied i deadlineMs else .returned (.read i) }
  | quorumRead (n : N) (hl : (s.nodes n).role = .leader) (id : ℕ) :
      Started s (.call n .readIndex)
        { owner := n
          pc := .readIndex ⟨⟨(s.nodes n).term, (s.nodes n).nodeId, id⟩, (s.nodes n).getPeerIdsLocked, 1,
            (s.nodes n).term⟩ }

inductive Fresh (f : Fiber N C) : Prop where
  | other (hw : f.waiter = none) (hp : f.pc.phase = .other ∨ ∃ r, f.pc.phase = .done r)
  | submits (w : RaftWaiter N C) (hw : f.waiter = some w) (hr : w.res = none) (hp : f.pc.phase = .enter)

structure Starts (s t : Cluster N C L) (a : Action N C L) (n : N) : Prop where
  groups : t.groups = s.groups
  fibers : t.fibers = s.fibers ∨ ∃ f : Fiber N C, f.owner = n ∧ Started s a f ∧ t.fibers = s.fibers ++ [f]

variable {s t : Cluster N C L} {a : Action N C L} {j k : ℕ} {f f' : Fiber N C} {e : GroupEvent}

lemma Started.fresh (h : Started s a f) : Fresh f := by
  cases h with
  | refuse => exact .other rfl (Or.inr ⟨_, rfl⟩)
  | submit => exact .submits _ rfl rfl rfl
  | leaseRead =>
    refine .other rfl (Or.inl ?_)
    split_ifs <;> rfl
  | _ => exact .other rfl (Or.inl rfl)

lemma Fresh.phase (h : Fresh f) : f.pc.phase = .other ∨ (∃ r, f.pc.phase = .done r) ∨ f.pc.phase = .enter := by
  cases h with
  | other _ hp =>
    rcases hp with hp | hp
    · exact Or.inl hp
    · exact Or.inr (Or.inl hp)
  | submits _ _ _ hp => exact Or.inr (Or.inr hp)

lemma Fresh.batch (h : Fresh f) : f.pc.phase.batch = [] := by
  rcases h.phase with hp | ⟨r, hp⟩ | hp
  · rw [hp]; rfl
  · rw [hp]; rfl
  · rw [hp]; rfl

lemma call_starts (s : Cluster N C L) (n : N) (c : Call N C) : Starts s (s.call n c) (.call n c) n := by
  cases c with
  | startElection =>
    simp only [call, startElection]
    split
    · exact ⟨rfl, Or.inl rfl⟩
    · exact ⟨rfl, Or.inr ⟨_, rfl, .election _ n _, rfl⟩⟩
  | heartbeatTick isLoop =>
    simp only [call, heartbeatStart]
    split_ifs with hstop hl
    · exact ⟨rfl, Or.inl rfl⟩
    · exact ⟨rfl, Or.inl rfl⟩
    · exact ⟨rfl, Or.inr ⟨_, rfl, .beat n (not_not.1 hl) isLoop, rfl⟩⟩
  | replicateLog lowLatency => exact ⟨rfl, Or.inr ⟨_, rfl, .replicate n lowLatency, rfl⟩⟩
  | readIndex =>
    simp only [call, readIndexStart]
    split_ifs with hl
    · exact ⟨rfl, Or.inr ⟨_, rfl, .noRead n, rfl⟩⟩
    · exact ⟨rfl, Or.inr ⟨_, rfl, .leaseRead n (not_not.1 hl) _ _, rfl⟩⟩
    · exact ⟨rfl, Or.inr ⟨_, rfl, .quorumRead n (not_not.1 hl) _, rfl⟩⟩
  | submitEntry command =>
    simp only [call]
    split
    · exact ⟨rfl, Or.inr ⟨_, rfl, .refuse n command, rfl⟩⟩
    · rename_i nd idx heq
      exact ⟨rfl, Or.inr ⟨_, rfl, .submit n command idx (by rw [heq]), rfl⟩⟩
  | startTransfer target =>
    simp only [call, RaftNode.startTransfer]
    split_ifs with hl
    · exact ⟨rfl, Or.inl rfl⟩
    · push Not at hl
      exact ⟨rfl, Or.inr ⟨_, rfl, .transfer n target hl.1, rfl⟩⟩
  | _ => exact ⟨rfl, Or.inl rfl⟩

lemma handle_starts (hg : t.groups = s.groups) (hf : t.fibers = s.fibers) (dst : N) (req : Request N C) :
    Starts s (t.handle dst req).1 a dst := by
  rcases handle_eq t dst req with ⟨nd', he⟩ | ⟨nd', -, he⟩
  · rw [he]; exact ⟨hg, Or.inl hf⟩
  · have hfs : ((t.setNode dst nd').spawn (electionFiber (t.nodes dst) nd' dst)).fibers =
        s.fibers ++ [electionFiber (t.nodes dst) nd' dst] := by rw [spawn_fibers, setNode_fibers, hf]
    rw [he]
    exact ⟨hg, Or.inr ⟨electionFiber (t.nodes dst) nd' dst, rfl, .election a dst _, hfs⟩⟩

/-! ## What a step does -/

def batchMax (s : Cluster N C L) (batch : List ℕ) : ℕ := batch.foldl (fun m w => max m (s.waiterIdx w)) 0

def inTime (s : Cluster N C L) : Action N C L → Bool
  | .advance k =>
    match (s.fibers[k]?).map Fiber.pc with
    | some (.coordinatorApply _ _ i) => i + 1 < 16
    | _ => true
  | _ => true

def groupEvent (s : Cluster N C L) : Action N C L → GroupEvent
  | .advance k =>
    match s.fibers[k]? with
    | none => .quiet
    | some f =>
      if f.rpc = none then
        match f.pc with
        | .submitEnter _ => .push k
        | .coordinatorTake _ => .take (s.groups f.owner).waiters
        | .coordinatorFulfil _ (w :: _) _ => .mark w
        | _ => .quiet
      else .quiet
  | _ => .quiet

inductive QuietPhase (s : Cluster N C L) (a : Action N C L) (f : Fiber N C) : Phase → Prop where
  | stay {p : Phase} (hp : f.pc.phase = p) : QuietPhase s a f p
  | count (batch : List ℕ) (applied : ℕ) (hp : f.pc.phase = .commits batch)
      (hmax : s.batchMax batch ≤ applied ∨ inTime s a = false) : QuietPhase s a f (.fulfils batch applied)
  | checks (applied : ℕ) (hp : f.pc.phase = .fulfils [] applied) : QuietPhase s a f .check
  | answer (w : RaftWaiter N C) (r : ApplyResult) (hp : f.pc.phase = .wait ∨ f.pc.phase = .check)
      (hw : f.waiter = some w) (hr : w.res = some r) : QuietPhase s a f (.done r)
  | unanswered (w : RaftWaiter N C) (hp : f.pc.phase = .check) (hw : f.waiter = some w) (hr : w.res = none) (p : Phase)
      (hb : p.batch = []) : QuietPhase s a f p

/-- **What a step does to groups, batches and waiters.** -/
inductive GroupMove (s : Cluster N C L) (a : Action N C L) (t : Cluster N C L) : GroupEvent → Prop where
  | quiet (hg : t.groups = s.groups)
      (hold : ∀ (j : ℕ) (f : Fiber N C), s.fibers[j]? = some f → ∃ f' : Fiber N C, t.fibers[j]? = some f' ∧
        f'.owner = f.owner ∧ f'.waiter = f.waiter ∧ QuietPhase s a f f'.pc.phase)
      (hnew : ∀ (j : ℕ) (f' : Fiber N C), s.fibers[j]? = none → t.fibers[j]? = some f' → Fresh f') :
      GroupMove s a t .quiet
  | push (k : ℕ) (f f' : Fiber N C) (hk : s.fibers[k]? = some f) (hp : f.pc.phase = .enter)
      (hg : t.groups = fun m => if m = f.owner then ⟨true, (s.groups f.owner).waiters ++ [k]⟩ else s.groups m)
      (hf : t.fibers = s.fibers.set k f') (ho : f'.owner = f.owner) (hw : f'.waiter = f.waiter)
      (hp' : f'.pc.phase = .wait ∨ (s.groups f.owner).active = false ∧ f'.pc.phase = .take) : GroupMove s a t (.push k)
  | take (k : ℕ) (f f' : Fiber N C) (hk : s.fibers[k]? = some f) (hp : f.pc.phase = .take)
      (hg : t.groups = fun m => if m = f.owner then {} else s.groups m)
      (hf : t.fibers = s.fibers.set k f') (ho : f'.owner = f.owner) (hw : f'.waiter = f.waiter)
      (hp' : f'.pc.phase = .commits (s.groups f.owner).waiters) : GroupMove s a t (.take (s.groups f.owner).waiters)
  | mark (k : ℕ) (f : Fiber N C) (w : ℕ) (rest : List ℕ) (applied : ℕ) (hk : s.fibers[k]? = some f)
      (hp : f.pc.phase = .fulfils (w :: rest) applied) (hg : t.groups = s.groups)
      (hlen : t.fibers.length = s.fibers.length)
      (hold : ∀ (j : ℕ) (g : Fiber N C), s.fibers[j]? = some g → ∃ g' : Fiber N C, t.fibers[j]? = some g' ∧
        g'.owner = g.owner ∧ g'.pc.phase = (if j = k then .fulfils rest applied else g.pc.phase) ∧
        g'.waiter = if j = w then g.waiter.map (fun w => { w with
        res := some (waiterResult w.idx applied) }) else g.waiter) :
      GroupMove s a t (.mark w)
  | reset (n : N) (hg : t.groups = fun m => if m = n then {} else s.groups m)
      (hf : t.fibers = s.fibers.map (fun f => if f.owner = n then { owner := n, pc := .returned .done } else f)) :
      GroupMove s a t .quiet

lemma GroupMove.of_append {old new : List (Fiber N C)} (hg : t.groups = s.groups) (hf : t.fibers = old ++ new)
    (hlen : old.length = s.fibers.length)
    (hold : ∀ (j : ℕ) (f : Fiber N C), s.fibers[j]? = some f → ∃ f' : Fiber N C, old[j]? = some f' ∧
      f'.owner = f.owner ∧ f'.waiter = f.waiter ∧ QuietPhase s a f f'.pc.phase)
    (hnew : ∀ g ∈ new, Fresh g) : GroupMove s a t .quiet := by
  refine .quiet hg (fun j f hj => ?_) (fun j f' hn hj => ?_)
  · obtain ⟨f', hf', h⟩ := hold j f hj
    exact ⟨f', by rw [hf, getElem?_append_left (List.getElem?_eq_some_iff.1 hf').1]; exact hf', h⟩
  · have hge : old.length ≤ j := by rw [hlen]; exact getElem?_eq_none_iff.1 hn
    rw [hf, getElem?_append_right hge] at hj
    exact hnew f' (mem_of_getElem? hj)

lemma quiet_set (hk : s.fibers[k]? = some f) (ho : f'.owner = f.owner) (hw : f'.waiter = f.waiter)
    (hp : QuietPhase s a f f'.pc.phase) (j : ℕ) (g : Fiber N C) (hj : s.fibers[j]? = some g) :
    ∃ g' : Fiber N C, (s.fibers.set k f')[j]? = some g' ∧ g'.owner = g.owner ∧ g'.waiter = g.waiter ∧
      QuietPhase s a g g'.pc.phase := by
  by_cases hkj : k = j
  · subst hkj
    obtain rfl := Option.some.inj (hk.symm.trans hj)
    exact ⟨f', getElem?_set_self (List.getElem?_eq_some_iff.1 hk).1, ho, hw, hp⟩
  · exact ⟨g, by rw [getElem?_set_ne hkj]; exact hj, rfl, rfl, .stay rfl⟩

lemma GroupMove.idle (hg : t.groups = s.groups) (hf : t.fibers = s.fibers) : GroupMove s a t .quiet := by
  have happ : t.fibers = s.fibers ++ [] := by rw [hf, append_nil]
  exact .of_append hg happ rfl (fun _ f hj => ⟨f, hj, rfl, rfl, .stay rfl⟩) (fun _ hg => by cases hg)

lemma GroupMove.of_set (hk : s.fibers[k]? = some f) (hg : t.groups = s.groups) (hf : t.fibers = s.fibers.set k f')
    (ho : f'.owner = f.owner) (hw : f'.waiter = f.waiter) (hp : QuietPhase s a f f'.pc.phase) :
    GroupMove s a t .quiet := by
  have happ : t.fibers = s.fibers.set k f' ++ [] := by rw [hf, append_nil]
  exact .of_append hg happ length_set (quiet_set hk ho hw hp) (fun _ hg => by cases hg)

lemma GroupMove.of_starts {n : N} (h : Starts s t a n) : GroupMove s a t .quiet := by
  rcases h.fibers with hf | ⟨g, -, hg, hf⟩
  · exact .idle h.groups hf
  · exact .of_append h.groups hf rfl (fun _ f hj => ⟨f, hj, rfl, rfl, .stay rfl⟩)
      (fun x hx => by rw [mem_singleton.1 hx]; exact hg.fresh)

section
variable (hk : s.fibers[k]? = some f)
include hk

lemma advance_quiet (henter : ∀ attempt, f.pc ≠ .submitEnter attempt)
    (htake : ∀ attempt, f.pc ≠ .coordinatorTake attempt)
    (hmark : ∀ attempt w rest applied, f.pc ≠ .coordinatorFulfil attempt (w :: rest) applied) :
    GroupMove s (.advance k) (s.advance k f) .quiet := by
  cases advance_section hk with
  | idle hg hf => exact .idle hg hf
  | asks _ _ hg hf => exact .of_set hk hg hf rfl rfl (.stay rfl)
  | flows _ h hg hf => exact .of_set hk hg hf rfl rfl (.stay (Flow.plain h).2.symm)
  | stopReads _ hpc hg hf => exact .of_set hk hg hf rfl rfl (.stay (by rw [hpc]; rfl))
  | confirms _ hpc _ _ _ hg hf =>
    refine .of_set hk hg hf rfl rfl (.stay ?_)
    rw [hpc]
    split_ifs <;> rfl
  | waited _ _ hpc _ hg hf => exact .of_set hk hg hf rfl rfl (.stay (by rw [hpc]; rfl))
  | enters attempt hpc => exact absurd hpc (henter attempt)
  | answers w r hpc hw hr hg hf =>
    refine .of_set hk hg hf rfl rfl (.answer w r ?_ hw hr)
    rcases hpc with hpc | ⟨attempt, hpc⟩
    · exact Or.inl (by rw [hpc]; rfl)
    · exact Or.inr (by rw [hpc]; rfl)
  | takes attempt hpc => exact absurd hpc (htake attempt)
  | counts _ batch _ hpc hdone hg hf =>
    refine .of_set hk hg hf rfl rfl (.count batch _ (by rw [hpc]; rfl) (hdone.imp_right (fun h => ?_)))
    simp only [inTime, hk, Option.map_some, hpc, decide_eq_false_iff_not]
    omega
  | repeats _ _ _ hpc hg hf => exact .of_set hk hg hf rfl rfl (.stay (by rw [hpc]; rfl))
  | fulfils attempt w rest applied hpc => exact absurd hpc (hmark attempt w rest applied)
  | checks _ applied hpc hg hf => exact .of_set hk hg hf rfl rfl (.checks applied (by rw [hpc]; rfl))
  | late _ hpc w hw hr _ hg hf | retries _ hpc w hw hr hg hf | givesUp _ hpc w hw hr hg hf =>
    exact .of_set hk hg hf rfl rfl (.unanswered w (by rw [hpc]; rfl) hw hr _ rfl)

lemma advance_marks {attempt w applied : ℕ} {rest : List ℕ}
    (hf : f.pc = .coordinatorFulfil attempt (w :: rest) applied) :
      GroupMove s (.advance k) (s.advance k f) (.mark w) := by
  have hlt : k < s.fibers.length := (List.getElem?_eq_some_iff.1 hk).1
  set mid := s.setFiber k { f with pc := .coordinatorFulfil attempt rest applied } with hmid
  have hadv : s.advance k f = mid.fulfil w applied := by simp only [advance, hf]; rfl
  -- the coordinator itself moves on
  have hfirst : ∀ j g, s.fibers[j]? = some g → ∃ g', mid.fibers[j]? = some g' ∧ g'.owner = g.owner ∧
      g'.pc.phase = (if j = k then .fulfils rest applied else g.pc.phase) ∧ g'.waiter = g.waiter := by
    intro j g hj
    rw [setFiber_fibers, getElem?_set]
    by_cases hkj : k = j
    · subst hkj
      obtain rfl := Option.some.inj (hk.symm.trans hj)
      exact ⟨{ f with pc := .coordinatorFulfil attempt rest applied }, by rw [if_pos rfl, if_pos hlt], rfl,
        by rw [if_pos rfl]; rfl, rfl⟩
    · exact ⟨g, by rw [if_neg hkj]; exact hj, rfl, by rw [if_neg (Ne.symm hkj)], rfl⟩
  rw [hadv]
  refine .mark k f w rest applied hk (by rw [hf]; rfl) ?_ ?_ ?_
  · unfold fulfil; split <;> rfl
  · unfold fulfil; split <;> simp [hmid]
  · intro j g hj
    obtain ⟨g', hg', ho, hp, hw⟩ := hfirst j g hj
    unfold fulfil
    split
    · rename_i hnone
      have hne : j ≠ w := by
        rintro rfl
        cases hg'.symm.trans hnone
      exact ⟨g', hg', ho, hp, by rw [if_neg hne]; exact hw⟩
    · rename_i h hh
      rw [setFiber_fibers, getElem?_set]
      by_cases hwj : w = j
      · subst hwj
        obtain rfl := Option.some.inj (hg'.symm.trans hh)
        refine ⟨{ g' with waiter := g'.waiter.map (fun w => { w with res := some (waiterResult w.idx applied) }) },
          by rw [if_pos rfl, if_pos (List.getElem?_eq_some_iff.1 hg').1], ho, hp, ?_⟩
        rw [if_pos rfl, ← hw]
      · exact ⟨g', by rw [if_neg hwj]; exact hg', ho, hp, by rw [if_neg (Ne.symm hwj)]; exact hw⟩

lemma advance_groupMove (hr : f.rpc = none) :
    GroupMove s (.advance k) (s.advance k f) (s.groupEvent (.advance k)) := by
  have hevent : s.groupEvent (.advance k) = match f.pc with
      | .submitEnter _ => .push k
      | .coordinatorTake _ => .take (s.groups f.owner).waiters
      | .coordinatorFulfil _ (w :: _) _ => .mark w
      | _ => .quiet := by
    simp only [groupEvent, hk, hr, if_true]
  rw [hevent]
  split
  · rename_i attempt hf
    have hp : f.pc.phase = .enter := by rw [hf]; rfl
    have hadv : s.advance k f = (s.setGroup f.owner ⟨true, (s.groups f.owner).waiters ++ [k]⟩).setFiber k
        { f with pc := if (s.groups f.owner).active then .submitWait else .coordinatorTake attempt } := by
      simp only [advance, hf]
    rw [hadv]
    refine .push k f _ hk hp rfl rfl rfl rfl ?_
    cases hact : (s.groups f.owner).active with
    | true => exact Or.inl rfl
    | false => exact Or.inr ⟨rfl, rfl⟩
  · rename_i attempt hf
    have hp : f.pc.phase = .take := by rw [hf]; rfl
    have hadv : s.advance k f =
        ((s.setNode f.owner { s.nodes f.owner with
        log := persist (s.nodes f.owner).log }).setGroup f.owner {}).setFiber k
          { f with pc := .replicateBegin true (.coordinate attempt (s.groups f.owner).waiters 0) 0 } := by
      simp only [advance, hf]
    rw [hadv]
    exact .take k f _ hk hp rfl rfl rfl rfl rfl
  · rename_i attempt w rest applied hf
    exact advance_marks hk hf
  · rename_i h1 h2 h3
    exact advance_quiet hk h1 h2
      h3

end

lemma groupEvent_idle (h : ∀ k f, a = .advance k → s.fibers[k]? = some f → f.rpc ≠ none) : s.groupEvent a = .quiet := by
  cases a with
  | advance k =>
    simp only [groupEvent]
    split
    · rfl
    · rename_i f hk
      rw [if_neg (h k f rfl hk)]
  | _ => rfl

theorem step_groupMove (s : Cluster N C L) (a : Action N C L) : GroupMove s a (s.step a) (s.groupEvent a) := by
  have hw := step_way s a
  generalize s.step a = t at hw ⊢
  cases hw with
  | idle _ h => rw [groupEvent_idle h]; exact .idle rfl rfl
  | call n c => exact .of_starts (call_starts s n c)
  | advance _ _ hk hr => exact advance_groupMove hk hr
  | recv _ _ hk => exact .of_set hk rfl rfl rfl rfl (.stay (Pc.phase_onRsp _ _ _).symm)
  | fail k f hk env =>
    set f' : Fiber N C := { f with pc := f.pc.onRsp env.dst env.request.failed, rpc := none } with hf'
    have hfs : ((s.giveUp env).setFiber k f').fibers = s.fibers.set k f' := by rw [setFiber_fibers, giveUp_fibers]
    refine .of_set hk ?_ hfs rfl rfl (.stay (Pc.phase_onRsp _ _ _).symm)
    simp only [giveUp]
    split_ifs <;> rfl
  | deliver k f hk dst req =>
    -- the receiver handles the request, and the sender has its answer
    set f' : Fiber N C := { f with rpc := some ⟨dst, req, some (s.handle dst req).2⟩ } with hf'
    have h : Starts s (s.handle dst req).1 (.deliver k) dst := handle_starts rfl rfl dst req
    have howner : f'.owner = f.owner := rfl
    have hlt := (List.getElem?_eq_some_iff.1 hk).1
    rcases h.fibers with hfs | ⟨g, -, hg, hfs⟩
    · exact .of_set hk h.groups (by rw [setFiber_fibers, hfs]) howner rfl (.stay rfl)
    · refine .of_append h.groups ?_ length_set (quiet_set hk howner rfl (.stay rfl))
        (fun x hx => by rw [mem_singleton.1 hx]; exact hg.fresh)
      rw [setFiber_fibers, hfs, set_append_left _ _ hlt]
  | late j dst req =>
    exact .of_starts (handle_starts (s := s) (t := { s with net := s.net.eraseIdx j }) rfl rfl dst req)
  | drop | tick => exact .idle rfl rfl
  | restart n => exact .reset n rfl rfl

/-! ## Calls stay, with their node -/

lemma set_back {g : Fiber N C} (hk : s.fibers[k]? = some f) (hf : t.fibers = s.fibers.set k f')
    (hj : t.fibers[j]? = some g) : (j = k ∧ g = f') ∨ (j ≠ k ∧ s.fibers[j]? = some g) := by
  rw [hf] at hj
  by_cases hkj : k = j
  · subst hkj
    rw [getElem?_set_self (List.getElem?_eq_some_iff.1 hk).1] at hj
    exact Or.inl ⟨rfl, (Option.some.inj hj).symm⟩
  · rw [getElem?_set_ne hkj] at hj
    exact Or.inr ⟨Ne.symm hkj, hj⟩

/-- a call after a move: its owner and the index it waits for are kept, and its batch is a part of the one it held or
the group that has waited -/
structure Follows (s : Cluster N C L) (f f' : Fiber N C) : Prop where
  owner : f'.owner = f.owner
  idx : f'.waiter = none ∨ f'.waiter.map RaftWaiter.idx = f.waiter.map RaftWaiter.idx
  batch : ∀ i ∈ f'.pc.phase.batch, i ∈ f.pc.phase.batch ∨ i ∈ (s.groups f.owner).waiters

lemma QuietPhase.batch {q : Phase} (hq : QuietPhase s a f q) : q.batch = f.pc.phase.batch := by
  cases hq with
  | stay hp => rw [hp]
  | count _ _ hp | checks _ hp => rw [hp]; rfl
  | answer _ _ hp =>
    rcases hp with hp | hp
    · rw [hp]; rfl
    · rw [hp]; rfl
  | unanswered _ hp _ _ _ hb => rw [hp, hb]; rfl

lemma GroupMove.stays (h : GroupMove s a t e) (hj : s.fibers[j]? = some f) :
    ∃ f', t.fibers[j]? = some f' ∧ Follows s f f' := by
  have hlt := (List.getElem?_eq_some_iff.1 hj).1
  have hset : ∀ {k : ℕ} {g g' : Fiber N C}, s.fibers[k]? = some g → t.fibers = s.fibers.set k g' → Follows s g g' →
      ∃ f', t.fibers[j]? = some f' ∧ Follows s f f' := by
    intro k g g' hk hf hg
    rw [hf]
    by_cases hkj : k = j
    · subst hkj
      obtain rfl := Option.some.inj (hk.symm.trans hj)
      exact ⟨g', getElem?_set_self hlt, hg⟩
    · exact ⟨f, by rw [getElem?_set_ne hkj]; exact hj, rfl, Or.inr rfl, fun i hi => Or.inl hi⟩
  cases h with
  | quiet _ hold =>
    obtain ⟨f', hf', ho, hw, hq⟩ := hold j f hj
    exact ⟨f', hf', ho, Or.inr (by rw [hw]), fun i hi => Or.inl (by rwa [hq.batch] at hi)⟩
  | push _ _ _ hk _ _ hf ho hw hp' =>
    refine hset hk hf ⟨ho, Or.inr (by rw [hw]), fun i hi => ?_⟩
    rcases hp' with hp' | ⟨-, hp'⟩
    · rw [hp'] at hi; cases hi
    · rw [hp'] at hi; cases hi
  | take _ _ _ hk _ _ hf ho hw hp' =>
    exact hset hk hf ⟨ho, Or.inr (by rw [hw]), fun i hi => Or.inr (by rwa [hp'] at hi)⟩
  | mark _ _ w _ _ hk hp _ _ hold =>
    obtain ⟨f', hf', ho, hp', hw⟩ := hold j f hj
    refine ⟨f', hf', ho, Or.inr ?_, fun i hi => Or.inl ?_⟩
    · rw [hw]
      split_ifs
      · rw [Option.map_map]; rfl
      · rfl
    · rw [hp'] at hi
      split_ifs at hi with hjk
      · subst hjk
        rw [← Option.some.inj (hk.symm.trans hj), hp]
        exact mem_cons_of_mem w hi
      · exact hi
  | reset _ _ hf =>
    rw [hf, getElem?_map, hj, Option.map_some]
    refine ⟨_, rfl, ?_⟩
    split_ifs with ho
    · exact ⟨ho.symm, Or.inl rfl, nofun⟩
    · exact ⟨rfl, Or.inr rfl, fun i hi => Or.inl hi⟩

lemma GroupMove.fresh (h : GroupMove s a t e) (hn : s.fibers[j]? = none) (hj : t.fibers[j]? = some f') : Fresh f' := by
  have hlen : t.fibers.length = s.fibers.length → Fresh f' := by
    intro hlen
    have hlt := (List.getElem?_eq_some_iff.1 hj).1
    have hge := getElem?_eq_none_iff.1 hn
    omega
  cases h with
  | quiet _ _ hnew => exact hnew j f' hn hj
  | push _ _ _ _ _ _ hf | take _ _ _ _ _ _ hf => exact hlen (by rw [hf, length_set])
  | mark _ _ _ _ _ _ _ _ hl => exact hlen hl
  | reset _ _ hf => exact hlen (by rw [hf, length_map])

lemma GroupMove.waits (h : GroupMove s a t e) {m : N} {i : ℕ} (hi : i ∈ (t.groups m).waiters) :
    i ∈ (s.groups m).waiters ∨ ∃ f, s.fibers[i]? = some f ∧ f.owner = m := by
  cases h with
  | quiet hg => rw [hg] at hi; exact Or.inl hi
  | push _ f _ hk _ hg =>
    rw [hg] at hi
    dsimp only at hi
    split_ifs at hi with hm
    · subst hm
      rcases mem_append.1 hi with hi | hi
      · exact Or.inl hi
      · rw [mem_singleton.1 hi]; exact Or.inr ⟨f, hk, rfl⟩
    · exact Or.inl hi
  | take _ _ _ _ _ hg =>
    rw [hg] at hi
    dsimp only at hi
    split_ifs at hi
    · cases hi
    · exact Or.inl hi
  | mark _ _ _ _ _ _ _ hg => rw [hg] at hi; exact Or.inl hi
  | reset _ hg =>
    rw [hg] at hi
    dsimp only at hi
    split_ifs at hi
    · cases hi
    · exact Or.inl hi

lemma step_stays (a : Action N C L) (hj : s.fibers[j]? = some f) :
    ∃ f', (s.step a).fibers[j]? = some f' ∧ f'.owner = f.owner := by
  obtain ⟨f', hf', h⟩ := (step_groupMove s a).stays hj
  exact ⟨f', hf', h.owner⟩

structure Queued (s : Cluster N C L) : Prop where
  waits : ∀ m, ∀ i ∈ (s.groups m).waiters, ∃ f, s.fibers[i]? = some f ∧ f.owner = m
  batches : ∀ (j : ℕ) (g : Fiber N C), s.fibers[j]? = some g → ∀ i ∈ g.pc.phase.batch, ∃ f, s.fibers[i]? = some f ∧
    f.owner = g.owner

lemma queued_init (config : N → ClusterConfig N) : Queued (init config : Cluster N C L) :=
  ⟨fun m i hi => by simp [init] at hi, fun j g hj => by simp [init] at hj⟩

lemma step_queued (h : Queued s) (a : Action N C L) : Queued (s.step a) := by
  have hmove := step_groupMove s a
  have hstay : ∀ {i : ℕ} {m : N}, (∃ f, s.fibers[i]? = some f ∧ f.owner = m) →
      ∃ f, (s.step a).fibers[i]? = some f ∧ f.owner = m := by
    rintro i m ⟨f, hf, ho⟩
    obtain ⟨f', hf', ho'⟩ := step_stays a hf
    exact ⟨f', hf', ho'.trans ho⟩
  refine ⟨fun m i hi => hstay ?_, fun j f' hj i hi => hstay ?_⟩
  · rcases hmove.waits hi with hi | hi
    · exact h.waits m i hi
    · exact hi
  · cases hs : s.fibers[j]? with
    | none =>
      rw [(hmove.fresh hs hj).batch] at hi
      cases hi
    | some f =>
      obtain ⟨f'', hf'', hfol⟩ := hmove.stays hs
      obtain rfl := Option.some.inj (hj.symm.trans hf'')
      rw [hfol.owner]
      rcases hfol.batch i hi with hb | hw
      · exact h.batches j f hs i hb
      · exact h.waits f.owner i hw

end Cluster

end MaxRedis.Raft

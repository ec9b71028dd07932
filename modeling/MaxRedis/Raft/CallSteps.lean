/-
What one step of the cluster does to one call in progress.
-/
import MaxRedis.Raft.GroupCommit

namespace MaxRedis.Raft

open List

open LogStorage LawfulLog RaftNode

namespace Cluster

variable {N C L : Type} [DecidableEq N] [LogStorage N C L]

/-- the next section of the call `f`, between the states `s` and `s'`: where it goes on -/
inductive Goes (s s' : Cluster N C L) (f : Fiber N C) : Pc N C → Prop where
  | plain (pc : Pc N C) (hp : pc.plain) : Goes s s' f pc
  | take (attempt : ℕ) : Goes s s' f (.replicateBegin true (.coordinate attempt (s.groups f.owner).waiters 0) 0)
  | count (attempt : ℕ) (batch : List ℕ) : Goes s s' f (.coordinatorFulfil attempt batch (s'.nodes f.owner).lastApplied)
  | submitted (w : RaftWaiter N C) (r : ApplyResult) (hw : f.waiter = some w) (hr : w.res = some r) :
      Goes s s' f (.returned (.submitted r))
  | late (w : RaftWaiter N C) (hw : f.waiter = some w) (hle : w.idx ≤ (s.nodes f.owner).lastApplied) :
      Goes s s' f (.returned (.submitted ⟨.ok, 1⟩))
  | gaveUp : Goes s s' f (.returned (.submitted ⟨.error, 0⟩))
  | stopReads (r : ReadRound N) (hf : f.pc = .readIndex r) : Goes s s' f (.readIndex { r with todo := [] })
  | confirm (r : ReadRound N) (hf : f.pc = .readIndex r) (i deadlineMs : ℕ)
      (hi : i = ((s.nodes f.owner).readIndexFinish r.req.term r.successCount r.maxPeerTerm).2) :
      Goes s s' f (if 0 < i then .waitForApplied i deadlineMs else .returned (.read i))
  | waited (target deadlineMs : ℕ) (hf : f.pc = .waitForApplied target deadlineMs)
      (hn : s'.nodes f.owner = (s.nodes f.owner).applyCommittedLogsLocked) : Goes s s' f (.returned (.read target))

/-- **What makes `f'` the fiber at place `j` after the step `a`.** -/
inductive CallStep (s : Cluster N C L) (a : Action N C L) (j : ℕ) (f' : Fiber N C) : Prop where
  | old (h : s.fibers[j]? = some f')
  | started (h : s.fibers[j]? = none) (hs : Started s a f')
  /-- a request is sent -/
  | asks (f : Fiber N C) (h : s.fibers[j]? = some f) (env : Envelope N C) (hn : env.response = none)
      (hread : ∀ r, f.pc = .readIndex r → ∃ p rest, r.todo = p :: rest ∧ env = ⟨p, .readIndex r.req, none⟩)
      (eq : f' = { f with rpc := some env })
  /-- the receiver answers -/
  | told (f : Fiber N C) (h : s.fibers[j]? = some f) (env : Envelope N C) (hr : f.rpc = some env)
      (eq : f' = { f with rpc := some { env with response := some (s.handle env.dst env.request).2 } })
  /-- the answer, or its absence, is taken in -/
  | takes (f : Fiber N C) (h : s.fibers[j]? = some f) (env : Envelope N C) (hr : f.rpc = some env) (rsp : Response)
      (hrsp : env.response = some rsp ∨ rsp = env.request.failed)
      (eq : f' = { f with pc := f.pc.onRsp env.dst rsp, rpc := none })
  | goes (f : Fiber N C) (h : s.fibers[j]? = some f) (hr : f.rpc = none) (hrun : ∀ o, f.pc ≠ .returned o)
      (ha : a = .advance j) (pc : Pc N C) (hg : Goes s (s.step a) f pc) (eq : f' = { f with pc := pc })
  /-- a coordinator sets the result of another call and goes on -/
  | fulfils (f : Fiber N C) (h : s.fibers[j]? = some f) (attempt w : ℕ) (rest : List ℕ) (applied : ℕ)
      (hf : f.pc = .coordinatorFulfil attempt (w :: rest) applied) (hne : w ≠ j)
      (eq : f' = { f with pc := .coordinatorFulfil attempt rest applied })
  /-- a coordinator sets the result of this call, which may be the coordinator itself -/
  | fulfilled (f : Fiber N C) (h : s.fibers[j]? = some f) (k : ℕ) (g : Fiber N C) (hk : s.fibers[k]? = some g)
      (attempt : ℕ) (rest : List ℕ) (applied : ℕ) (hg : g.pc = .coordinatorFulfil attempt (j :: rest) applied)
      (pc : Pc N C)
      (hpc : pc = f.pc ∨ (g = f ∧ pc = .coordinatorFulfil attempt rest applied))
      (eq : f' = { f with
        pc := pc, waiter := f.waiter.map (fun w => { w with res := some (waiterResult w.idx applied) }) })
  /-- the node is restarted -/
  | killed (f : Fiber N C) (h : s.fibers[j]? = some f) (r : Recovered N C L) (ha : a = .restart f.owner r)
      (eq : f' = { owner := f.owner, pc := .returned .done })

variable {s t : Cluster N C L} {a : Action N C L} {j k : ℕ} {f f' : Fiber N C}

lemma CallStep.of_set {g : Fiber N C} (hj : t.fibers[j]? = some f') (ht : t.fibers = s.fibers.set k g)
    (h : CallStep s a k g) : CallStep s a j f' := by
  rw [ht, getElem?_set] at hj
  split_ifs at hj with hkj hlt
  · subst hkj
    rw [← Option.some.inj hj]
    exact h
  · exact .old hj

lemma CallStep.of_starts {n : N} (h : Starts s t a n) (hj : t.fibers[j]? = some f') : CallStep s a j f' := by
  rcases h.fibers with hf | ⟨g, -, hg, hf⟩
  · rw [hf] at hj; exact .old hj
  · rw [hf, getElem?_append] at hj
    split_ifs at hj with hlt
    · exact .old hj
    · rw [← mem_singleton.1 (mem_of_getElem? hj)] at hg
      exact .started (getElem?_eq_none (Nat.not_lt.1 hlt)) hg

/-! ## Sections -/

section
variable (hk : s.fibers[k]? = some f)
include hk

lemma fulfil_call {attempt w applied : ℕ} {rest : List ℕ} (hf : f.pc = .coordinatorFulfil attempt (w :: rest) applied)
    (hj : ((s.setFiber k { f with pc := .coordinatorFulfil attempt rest applied }).fulfil w applied).fibers[j]? =
    some f') :
    CallStep s (.advance k) j f' := by
  have hnext : w ≠ k → CallStep s (.advance k) k { f with pc := .coordinatorFulfil attempt rest applied } :=
    fun hne => .fulfils f hk attempt w rest applied hf hne rfl
  unfold fulfil at hj
  split at hj
  · rename_i hnone
    refine CallStep.of_set hj rfl (hnext ?_)
    rintro rfl
    rw [setFiber_fibers, getElem?_set_self (List.getElem?_eq_some_iff.1 hk).1] at hnone
    cases hnone
  · rename_i g hg
    rw [setFiber_fibers, setFiber_fibers, getElem?_set] at hj
    split_ifs at hj with hwj hlt
    · -- the call whose result is set
      subst hwj
      rw [setFiber_fibers, getElem?_set] at hg
      split_ifs at hg with hkw hin
      · subst hkw
        rw [← Option.some.inj hj, ← Option.some.inj hg]
        exact .fulfilled f hk k f hk attempt rest applied hf _ (Or.inr ⟨rfl, rfl⟩) rfl
      · rw [← Option.some.inj hj]
        exact .fulfilled g hg k f hk attempt rest applied hf _ (Or.inl rfl) rfl
    · by_cases hkj : k = j
      · subst hkj
        exact CallStep.of_set (t := s.setFiber k _) hj rfl (hnext hwj)
      · rw [getElem?_set_ne hkj] at hj
        exact .old hj

lemma step_advance (hr : f.rpc = none) : s.step (.advance k) = s.advance k f := by
  simp only [step, hk, if_pos hr]

lemma advance_call (hr : f.rpc = none) (hj : (s.advance k f).fibers[j]? = some f') :
    CallStep s (.advance k) j f' := by
  have hstep := step_advance hk hr
  by_cases hret : ∃ o, f.pc = .returned o
  · obtain ⟨o, hf⟩ := hret
    simp only [advance, hf] at hj
    exact .old hj
  have hgo : ∀ pc : Pc N C, Goes s (s.advance k f) f pc → CallStep s (.advance k) k { f with pc := pc } :=
    fun pc hg => .goes f hk hr (fun o ho => hret ⟨o, ho⟩) rfl pc (by rw [hstep]; exact hg) rfl
  cases advance_section hk with
  | idle _ hf => exact .old (by rw [← hf]; exact hj)
  | asks env h _ hf =>
    exact CallStep.of_set hj hf (.asks f hk env h.unanswered (fun r hpc => Pc.asks_readIndex (hpc ▸ h)) rfl)
  | flows pc h _ hf =>
    exact CallStep.of_set hj hf (hgo pc (.plain pc (Flow.plain h).1))
  | stopReads r hpc _ hf =>
    exact CallStep.of_set hj hf (hgo _ (.stopReads r hpc))
  | confirms r hpc i deadlineMs hi _ hf =>
    exact CallStep.of_set hj hf (hgo _ (.confirm r hpc i deadlineMs hi))
  | waited target deadlineMs hpc hn _ hf =>
    exact CallStep.of_set hj hf (hgo _ (.waited target deadlineMs hpc hn))
  | enters _ _ _ hf =>
    refine CallStep.of_set hj hf (hgo _ (.plain _ ?_))
    split_ifs <;> trivial
  | answers w r _ hw hres _ hf =>
    exact CallStep.of_set hj hf (hgo _ (.submitted w r hw hres))
  | takes attempt _ _ hf =>
    exact CallStep.of_set hj hf (hgo _ (.take attempt))
  | counts attempt batch _ _ _ _ hf =>
    exact CallStep.of_set hj hf (hgo _ (.count attempt batch))
  | repeats _ _ _ _ _ hf =>
    exact CallStep.of_set hj hf (hgo _ (.plain _ trivial))
  | fulfils _ _ _ _ hpc ht =>
    rw [ht] at hj
    exact fulfil_call hk hpc hj
  | checks _ _ _ _ hf =>
    exact CallStep.of_set hj hf (hgo _ (.plain _ trivial))
  | late _ _ w hw _ hle _ hf =>
    exact CallStep.of_set hj hf (hgo _ (.late w hw hle))
  | retries _ _ _ _ _ _ hf =>
    exact CallStep.of_set hj hf (hgo _ (.plain _ trivial))
  | givesUp _ _ _ _ _ _ hf =>
    exact CallStep.of_set hj hf (hgo _ .gaveUp)

end

/-! ## Steps -/

theorem step_call (hj : (s.step a).fibers[j]? = some f') : CallStep s a j f' := by
  have hw := step_way s a
  generalize s.step a = t at hw hj
  cases hw with
  | idle => exact .old hj
  | call n c => exact .of_starts (call_starts s n c) hj
  | advance _ _ hk hr => exact advance_call hk hr hj
  | recv _ f hk _ _ rsp hr => exact CallStep.of_set hj rfl (.takes f hk _ hr rsp (Or.inl rfl) rfl)
  | fail _ f hk env hr =>
    exact CallStep.of_set hj (by rw [setFiber_fibers, giveUp_fibers]) (.takes f hk env hr _ (Or.inr rfl) rfl)
  | deliver _ f hk dst req hr =>
    rw [setFiber_fibers, getElem?_set] at hj
    split_ifs at hj with hkj
    · subst hkj
      rw [← Option.some.inj hj]
      exact .told f hk _ hr rfl
    · exact .of_starts (handle_starts rfl rfl dst req) hj
  | late i dst req =>
    exact .of_starts (handle_starts (s := s) (t := { s with net := s.net.eraseIdx i }) rfl rfl dst req) hj
  | drop | tick => exact .old hj
  | restart _ r =>
    simp only [killFibers, getElem?_map] at hj
    obtain ⟨f, hf, he⟩ := Option.map_eq_some_iff.1 hj
    split_ifs at he with ho
    · subst ho
      exact .killed f hf r rfl he.symm
    · rw [← he]; exact .old hf

end Cluster

end MaxRedis.Raft

/-
`ElectionTimer` (`election_timer.cc`): the fiber of `Run` and the calls of other fibers, one access to an atomic a step.
-/
import MaxRedis.Core.Run

namespace MaxRedis.Raft.ElectionTimer

/-- where the fiber stands in the loop of `Run`; `saved` is the epoch it has read -/
inductive Pc
  | top | load | check (saved : UInt64) | asleep (saved : UInt64) | compare (saved : UInt64) | clear | call | stopped

structure State where
  active : Bool := true
  shutdown : Bool := false
  epoch : UInt64 := 1
  pc : Pc := .top
  /-- how often the callback was called -/
  fired : ℕ := 0

/-- `Reset` is `activate` and `bump`, `Deactivate` is `deactivate` and `bump`, `Stop` has `shutdown` between the two -/
inductive Event
  | activate | deactivate | shutdown | bump | fiber
  deriving DecidableEq

def fiber (s : State) : State :=
  match s.pc with
  | .top => { s with pc := if s.shutdown then .stopped else .load }
  | .load => { s with pc := .check s.epoch }
  | .check saved => { s with pc := if s.active then .asleep saved else .top }
  | .asleep saved => { s with pc := if s.shutdown then .stopped else .compare saved }
  | .compare saved => { s with pc := if s.epoch = saved then .clear else .top }
  | .clear => { s with active := false, pc := .call }
  | .call => { s with fired := s.fired + 1, pc := .top }
  | .stopped => s

def step (s : State) : Event → State
  | .activate => { s with active := true }
  | .deactivate => { s with active := false }
  | .shutdown => { s with shutdown := true }
  | .bump => { s with epoch := s.epoch + 1 }
  | .fiber => fiber s

/-- the activations in use: one by a fiber that has seen `active_` set, one by the flag if it can still be seen -/
def inUse (s : State) : ℕ :=
  match s.pc with
  | .asleep _ | .compare _ | .clear => 1
  | .call => 1 + s.active.toNat
  | _ => s.active.toNat

lemma step_inUse (s : State) (e : Event) :
    (step s e).fired + inUse (step s e) ≤ s.fired + inUse s + [e].count .activate := by
  obtain ⟨active, shutdown, epoch, pc, fired⟩ := s
  have hactive := Bool.toNat_le active
  cases e with
  | fiber =>
    cases pc with
    | top | asleep => cases shutdown <;> simp [step, fiber, inUse, hactive]
    | check => cases active <;> simp [step, fiber, inUse]
    | compare saved =>
      by_cases h : epoch = saved
      · simp [step, fiber, inUse, h]
      · simp [step, fiber, inUse, h, hactive]
    | call =>
      simp [step, fiber, inUse]
      omega
    | load | clear | stopped => simp [step, fiber, inUse]
  | activate | deactivate | shutdown | bump => cases pc <;> simp [step, inUse]

/-- **The timer fires at most once for an activation**, however its fiber and the calls interleave. -/
theorem fired_le_activations (es : List Event) : (Run.run step {} es).fired ≤ 1 + es.count .activate := by
  have hrun : ∀ s, (Run.run step s es).fired + inUse (Run.run step s es) ≤ s.fired + inUse s + es.count .activate := by
    induction es with
    | nil => exact fun s => Nat.le_refl _
    | cons e es ih =>
      intro s
      have hstep := step_inUse s e
      have hrest := ih (step s e)
      rw [← List.singleton_append, List.count_append]
      exact Nat.le_trans hrest (by omega)
  have h := hrun {}
  simp only [inUse, Bool.toNat_true] at h
  omega

end MaxRedis.Raft.ElectionTimer

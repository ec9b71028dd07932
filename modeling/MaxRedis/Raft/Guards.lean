/-
The two counters that guard a node: `SnapshotBarrier` between the writers of the store and the snapshot, and the RPC
references between the transports and `Shutdown`.
-/
import Mathlib.Algebra.BigOperators.Group.Finset.Basic
import Mathlib.Data.Fintype.BigOperators
import Mathlib.Tactic
import MaxRedis.Core.Run

namespace MaxRedis.Raft

open List Function

def inc32 (n : ℕ) : ℕ := (n + 1) % 2 ^ 32

def dec32 (n : ℕ) : ℕ := (n + 2 ^ 32 - 1) % 2 ^ 32

section Count
variable {n : ℕ} {α : Type} (p : α → Bool)

def countAt (p : α → Bool) (pcs : Fin n → α) : ℕ := ∑ i, (p (pcs i)).toNat

lemma countAt_le (pcs : Fin n → α) : countAt p pcs ≤ n := by
  calc countAt p pcs ≤ ∑ _i : Fin n, 1 := Finset.sum_le_sum (fun i _ => Bool.toNat_le (p (pcs i)))
    _ = n := by simp

lemma countAt_update (pcs : Fin n → α) (i : Fin n) (a : α) :
    countAt p (Function.update pcs i a) + (p (pcs i)).toNat = countAt p pcs + (p a).toNat := by
  have hrest : ∑ j ∈ Finset.univ.erase i, (p (Function.update pcs i a j)).toNat =
      ∑ j ∈ Finset.univ.erase i, (p (pcs j)).toNat := by
    refine Finset.sum_congr rfl (fun j hj => ?_)
    rw [update_of_ne (Finset.ne_of_mem_erase hj)]
  unfold countAt
  rw [← Finset.add_sum_erase _ _ (Finset.mem_univ i), hrest, update_self,
    ← Finset.add_sum_erase _ (fun j => (p (pcs j)).toNat) (Finset.mem_univ i)]
  omega

lemma countAt_pos {p : α → Bool} {pcs : Fin n → α} {i : Fin n} (h : p (pcs i)) : 0 < countAt p pcs := by
  have hle : (p (pcs i)).toNat ≤ countAt p pcs :=
    Finset.single_le_sum (f := fun j => (p (pcs j)).toNat) (fun j _ => Nat.zero_le _) (Finset.mem_univ i)
  rw [h] at hle
  exact hle

end Count

/-! ## The snapshot barrier -/

namespace SnapshotBarrier

/-- where a reader stands: the next thing it does; `inside` is between the return of `BeginRead` and `EndRead` -/
inductive Reader
  | idle | wait | add | recheck | sub | waitAgain | addAgain | inside
  deriving DecidableEq

inductive Writer
  | idle | drain | inside
  deriving DecidableEq

structure State (n : ℕ) where
  readers : ℕ := 0
  writing : Bool := false
  pcs : Fin n → Reader := fun _ => .idle
  writer : Writer := .idle

inductive Event (n : ℕ)
  | reader (i : Fin n)
  | writer
  deriving DecidableEq

variable {n : ℕ}

def readerStep (s : State n) (i : Fin n) : State n :=
  let go (pc : Reader) (s : State n) : State n := { s with pcs := Function.update s.pcs i pc }
  match s.pcs i with
  | .idle => go .wait s
  | .wait => go (if s.writing then .wait else .add) s
  | .add => go .recheck { s with readers := inc32 s.readers }
  | .recheck => go (if s.writing then .sub else .inside) s
  | .sub => go .waitAgain { s with readers := dec32 s.readers }
  | .waitAgain => go (if s.writing then .waitAgain else .addAgain) s
  | .addAgain => go .inside { s with readers := inc32 s.readers }
  | .inside => go .idle { s with readers := dec32 s.readers }

def writerStep (s : State n) : State n :=
  match s.writer with
  | .idle => { s with writing := true, writer := .drain }
  | .drain => if 0 < s.readers then s else { s with writer := .inside }
  | .inside => { s with writing := false, writer := .idle }

def step (s : State n) : Event n → State n
  | .reader i => readerStep s i
  | .writer => writerStep s

def settled (s : State n) : Event n → Bool
  | .reader _ => true
  | .writer => s.writer ≠ .idle ∨ ∀ i, s.pcs i ≠ .addAgain

def Reader.counted : Reader → Bool
  | .recheck | .sub | .inside => true
  | _ => false

structure Inv (s : State n) : Prop where
  count : s.readers = countAt Reader.counted s.pcs
  writing : s.writing = true ↔ s.writer ≠ .idle
  again : s.writing = true → ∀ i, s.pcs i ≠ .addAgain
  apart : s.writer = .inside → ∀ i, s.pcs i ≠ .inside

section Step
variable {s : State n}

lemma Inv.move (h : Inv s) (i : Fin n) {pc : Reader} {readers : ℕ}
    (hreaders : readers + (s.pcs i).counted.toNat = s.readers + pc.counted.toNat)
    (hagain : pc = .addAgain → s.writing = false) (hin : pc = .inside → s.writing = false) :
    Inv { s with readers := readers, pcs := Function.update s.pcs i pc } := by
  have hcount := countAt_update Reader.counted s.pcs i pc
  have hold := h.count
  refine ⟨by dsimp only; omega, h.writing, fun hw j => ?_, fun hw j => ?_⟩
  · by_cases hj : j = i
    · subst hj
      dsimp only
      rw [update_self]
      intro hpc
      exact Bool.false_ne_true ((hagain hpc).symm.trans hw)
    · dsimp only
      rw [update_of_ne hj]
      exact h.again hw j
  · by_cases hj : j = i
    · subst hj
      dsimp only
      rw [update_self]
      intro hpc
      have hwriting : s.writing = true := h.writing.2 (by rw [show s.writer = .inside from hw]; decide)
      exact Bool.false_ne_true ((hin hpc).symm.trans hwriting)
    · dsimp only
      rw [update_of_ne hj]
      exact h.apart hw j

variable (hn : n < 2 ^ 32)
include hn

lemma inv_readerStep (h : Inv s) (i : Fin n) : Inv (readerStep s i) := by
  have hbound := countAt_le Reader.counted s.pcs
  have hcount := h.count
  have hinc : ∀ {pc : Reader}, pc.counted = false → s.pcs i = pc → inc32 s.readers = s.readers + 1 := by
    intro pc hpc hi
    have hup := countAt_update Reader.counted s.pcs i .inside
    have hle := countAt_le Reader.counted (Function.update s.pcs i .inside)
    rw [hi, hpc] at hup
    have hone : (Reader.counted .inside).toNat = 1 := rfl
    rw [hone, Bool.toNat_false] at hup
    exact Nat.mod_eq_of_lt (by omega)
  have hdec : ∀ {pc : Reader}, pc.counted = true → s.pcs i = pc → dec32 s.readers + 1 = s.readers := by
    intro pc hpc hi
    have hpos : 0 < countAt Reader.counted s.pcs := countAt_pos (i := i) (by rw [hi, hpc])
    unfold dec32
    omega
  unfold readerStep
  split
  all_goals rename_i hi; dsimp only
  · exact h.move i (by rw [hi]; rfl) nofun nofun
  · split_ifs with hw
    · exact h.move i (by rw [hi]) nofun nofun
    · exact h.move i (by rw [hi]; rfl) nofun nofun
  · exact h.move i (by rw [hi, hinc rfl hi]; rfl) nofun nofun
  · split_ifs with hw
    · exact h.move i (by rw [hi]; rfl) nofun nofun
    · exact h.move i (by rw [hi]; rfl) nofun (fun _ => Bool.eq_false_iff.2 hw)
  · exact h.move i (by rw [hi]; exact hdec rfl hi) nofun nofun
  · split_ifs with hw
    · exact h.move i (by rw [hi]) nofun nofun
    · exact h.move i (by rw [hi]; rfl) (fun _ => Bool.eq_false_iff.2 hw) nofun
  · -- the snapshot has not begun since the last look
    refine h.move i (by rw [hi, hinc rfl hi]; rfl) nofun (fun _ => Bool.eq_false_iff.2 (fun hw => ?_))
    exact h.again hw i hi
  · exact h.move i (by rw [hi]; exact hdec rfl hi) nofun nofun

lemma inv_step (e : Event n) (h : Inv s) (hsettled : settled s e) : Inv (step s e) := by
  cases e with
  | reader i => exact inv_readerStep hn h i
  | writer =>
    unfold step writerStep
    cases hw : s.writer with
    | idle =>
      have hnone : ∀ i, s.pcs i ≠ .addAgain := (of_decide_eq_true hsettled).resolve_left (fun hne => hne hw)
      exact ⟨h.count, by simp, fun _ => hnone, nofun⟩
    | drain =>
      dsimp only
      split_ifs with hpos
      · exact h
      · refine ⟨h.count, ?_, h.again, fun _ i hi => ?_⟩
        · have hwriting : s.writing = true := h.writing.2 (by rw [hw]; decide)
          simp [hwriting]
        · -- a reader inside is counted
          have hcounted := @countAt_pos _ _ Reader.counted s.pcs i (by rw [hi]; rfl)
          have hcount := h.count
          omega
    | inside => exact ⟨h.count, by simp, nofun, nofun⟩

end Step

/-- **The barrier excludes writers and readers** in every run in which no snapshot begins while a reader stands before
its second increment. -/
theorem excludes (hn : n < 2 ^ 32) (es : List (Event n)) (h : Run.along step settled {} es) (i : Fin n) :
    ¬((Run.run step {} es).pcs i = .inside ∧ (Run.run step {} es).writer = .inside) := by
  have hinit : Inv ({} : State n) := ⟨by simp [countAt, Reader.counted], by simp, nofun, nofun⟩
  have hrun := Run.along_run step (fun s e hs he => inv_step hn e hs he) hinit h
  exact fun hboth => hrun.apart hboth.2 i hboth.1

/-- a reader that waits for a snapshot to end, and then comes in -/
theorem excludes_retry : let es : List (Event 1) :=
      [.reader 0, .reader 0, .writer, .reader 0, .reader 0, .reader 0, .writer, .writer, .reader 0, .reader 0, .writer]
    (Run.run step {} es).pcs 0 = .inside ∧
      ¬((Run.run step {} es).pcs 0 = .inside ∧ (Run.run step {} es).writer = .inside) :=
  ⟨by decide +kernel, excludes (by decide) _ (by decide +kernel) 0⟩

/-- **Both are inside**: the reader has seen the first snapshot end, the second one begins and sees no reader, and the
reader counts itself and returns. -/
theorem second_snapshot_overlaps : let es : List (Event 1) :=
      [.reader 0, .reader 0, .writer, .reader 0, .reader 0, .reader 0, .writer, .writer, .reader 0, .writer, .writer,
        .reader 0]
    (Run.run step {} es).pcs 0 = .inside ∧ (Run.run step {} es).writer = .inside := by
  decide +kernel

end SnapshotBarrier

/-! ## RPC references -/

namespace RpcRefs

/-- where a transport stands that calls a handler: `check` and `swap` carry the local `refs` of `TryAcquireRpcRef` -/
inductive Handler
  | idle
  | check (refs : ℕ)
  | swap (refs : ℕ)
  | inside
  deriving DecidableEq

inductive Drainer
  | idle
  | drop
  | poll (waited : ℕ)
  deriving DecidableEq

structure State (n m : ℕ) where
  rpcRefs : ℕ := 1
  rpcAlive : Bool := true
  drainStarted : Bool := false
  handlers : Fin n → Handler := fun _ => .idle
  drainers : Fin m → Drainer := fun _ => .idle

/-- a step of a handler, whose `compare_exchange_weak` may fail for no reason; a step of a drain; `Shutdown` -/
inductive Event (n m : ℕ)
  | handler (i : Fin n) (spurious : Bool)
  | drainer (j : Fin m)
  | shutdown

def maxWaitMs : ℕ := 5000

variable {n m : ℕ}

def handlerStep (s : State n m) (i : Fin n) (spurious : Bool) : State n m :=
  let go (pc : Handler) (s : State n m) : State n m := { s with handlers := Function.update s.handlers i pc }
  match s.handlers i with
  | .idle => go (.check s.rpcRefs) s
  | .check refs => go (if s.rpcAlive = false ∨ refs = 0 then .idle else .swap refs) s
  | .swap refs =>
    if s.rpcRefs = refs ∧ spurious = false then go .inside { s with rpcRefs := inc32 refs } else go (.check s.rpcRefs) s
  | .inside => go .idle { s with rpcRefs := dec32 s.rpcRefs }

def drainerStep (s : State n m) (j : Fin m) : State n m :=
  let go (pc : Drainer) (s : State n m) : State n m := { s with drainers := Function.update s.drainers j pc }
  match s.drainers j with
  | .idle => if s.drainStarted then s else go .drop { s with drainStarted := true }
  | .drop => go (.poll 0) { s with rpcRefs := dec32 s.rpcRefs }
  | .poll waited => go (if s.rpcRefs = 0 ∨ maxWaitMs ≤ waited then .idle else .poll (waited + 1)) s

def step (s : State n m) : Event n m → State n m
  | .handler i spurious => handlerStep s i spurious
  | .drainer j => drainerStep s j
  | .shutdown => { s with rpcAlive := false }

def State.inside (s : State n m) : ℕ := countAt (fun pc => decide (pc = Handler.inside)) s.handlers

def State.dropping (s : State n m) : ℕ := countAt (fun pc => decide (pc = Drainer.drop)) s.drainers

def State.baseHeld (s : State n m) : Bool := s.drainStarted = false ∨ ∃ j, s.drainers j = .drop

structure Inv (s : State n m) : Prop where
  refs : s.rpcRefs + s.drainStarted.toNat = s.inside + 1 + s.dropping
  once : s.dropping ≤ s.drainStarted.toNat
  seen : ∀ i refs, s.handlers i = .swap refs → refs ≠ 0

namespace Inv

variable {s : State n m} (h : Inv s)
include h

lemma pos_of_inside {i : Fin n} (hi : s.handlers i = .inside) : 0 < s.rpcRefs := by
  have hpos : 0 < s.inside := countAt_pos (decide_eq_true hi)
  have hrefs := h.refs
  have honce := h.once
  have hstarted := Bool.toNat_le s.drainStarted
  omega

lemma pos_of_drop {j : Fin m} (hj : s.drainers j = .drop) : 0 < s.rpcRefs := by
  have hpos : 0 < s.dropping := countAt_pos (decide_eq_true hj)
  have hrefs := h.refs
  have hstarted := Bool.toNat_le s.drainStarted
  omega

lemma refs_eq : s.rpcRefs = s.inside + s.baseHeld.toNat := by
  have hrefs := h.refs
  have honce := h.once
  by_cases hdrop : ∃ j, s.drainers j = .drop
  · obtain ⟨j, hj⟩ := hdrop
    have hpos : 0 < s.dropping := countAt_pos (decide_eq_true hj)
    have hheld : s.baseHeld = true := decide_eq_true (Or.inr ⟨j, hj⟩)
    have hstarted := Bool.toNat_le s.drainStarted
    rw [hheld, Bool.toNat_true]
    omega
  · have hnone : s.dropping = 0 := by
      unfold State.dropping countAt
      refine Finset.sum_eq_zero (fun j _ => ?_)
      dsimp only
      rw [decide_eq_false (fun hj => hdrop ⟨j, hj⟩), Bool.toNat_false]
    have hheld : s.baseHeld = !s.drainStarted := by
      unfold State.baseHeld
      cases s.drainStarted <;> simp [hdrop]
    rw [hheld]
    cases hs : s.drainStarted with
    | false | true => rw [hs] at hrefs; simp at hrefs ⊢; omega

lemma moveHandler (i : Fin n) {pc : Handler} {refs : ℕ}
    (hrefs : refs + (decide (s.handlers i = .inside)).toNat = s.rpcRefs + (decide (pc = .inside)).toNat)
    (hseen : ∀ r, pc = .swap r → r ≠ 0) :
    Inv { s with rpcRefs := refs, handlers := Function.update s.handlers i pc } := by
  have hcount := countAt_update (fun pc => decide (pc = Handler.inside)) s.handlers i pc
  have hold := h.refs
  unfold State.inside at hold
  refine ⟨?_, h.once, fun j r hj => ?_⟩
  · show refs + s.drainStarted.toNat = countAt _ (Function.update s.handlers i pc) + 1 + s.dropping
    omega
  · dsimp only at hj
    by_cases hji : j = i
    · subst hji
      rw [update_self] at hj
      exact hseen r hj
    · rw [update_of_ne hji] at hj
      exact h.seen j r hj

lemma moveDrainer (j : Fin m) {pc : Drainer} {refs : ℕ} {started : Bool}
    (hrefs : refs + started.toNat + (decide (s.drainers j = .drop)).toNat =
      s.rpcRefs + s.drainStarted.toNat + (decide (pc = .drop)).toNat)
    (honce : (decide (pc = .drop)).toNat + s.dropping ≤ started.toNat + (decide (s.drainers j = .drop)).toNat) :
    Inv { s with rpcRefs := refs, drainStarted := started, drainers := Function.update s.drainers j pc } := by
  have hcount := countAt_update (fun pc => decide (pc = Drainer.drop)) s.drainers j pc
  have hold := h.refs
  unfold State.dropping at hold honce
  refine ⟨?_, ?_, h.seen⟩
  · show refs + started.toNat = s.inside + 1 + countAt _ (Function.update s.drainers j pc)
    omega
  · show countAt _ (Function.update s.drainers j pc) ≤ started.toNat
    omega

end Inv

lemma dec32_add_one {k : ℕ} (hk : 0 < k) (hlt : k < 2 ^ 32) : dec32 k + 1 = k := by
  unfold dec32
  omega

lemma zero_step {s : State n m} (h : Inv s) (hzero : s.rpcRefs = 0) (e : Event n m) : (step s e).rpcRefs = 0 := by
  cases e with
  | shutdown => exact hzero
  | handler i spurious =>
    simp only [step, handlerStep]
    split
    all_goals rename_i hi
    · exact hzero
    · exact hzero
    · rw [if_neg (fun hsame => h.seen i _ hi (hsame.1.symm.trans hzero))]
      exact hzero
    · exact absurd hzero (h.pos_of_inside hi).ne'
  | drainer j =>
    simp only [step, drainerStep]
    split
    all_goals rename_i hj
    · split_ifs
      · exact hzero
      · exact hzero
    · exact absurd hzero (h.pos_of_drop hj).ne'
    · exact hzero

section Step
variable (hn : n + 1 < 2 ^ 32) {s : State n m}
include hn

lemma Inv.lt (h : Inv s) : s.rpcRefs < 2 ^ 32 := by
  have hle : s.inside ≤ n := countAt_le _ _
  have hrefs := h.refs_eq
  have hbase := Bool.toNat_le s.baseHeld
  omega

lemma inv_step (h : Inv s) (e : Event n m) : Inv (step s e) := by
  have hlt := h.lt hn
  cases e with
  | shutdown => exact ⟨h.refs, h.once, h.seen⟩
  | handler i spurious =>
    simp only [step, handlerStep]
    split
    all_goals rename_i hi
    · exact h.moveHandler i (by rw [hi]; rfl) nofun
    · rename_i refs
      split_ifs with hgone
      · exact h.moveHandler i (by rw [hi]; rfl) nofun
      · refine h.moveHandler i (by rw [hi]; rfl) (fun r hr => ?_)
        cases hr
        exact fun hzero => hgone (Or.inr hzero)
    · rename_i refs
      split_ifs with hsame
      · -- the handler is not yet one of those inside
        have hup := countAt_update (fun pc => decide (pc = Handler.inside)) s.handlers i .inside
        have hle := countAt_le (fun pc => decide (pc = Handler.inside)) (Function.update s.handlers i .inside)
        have hrefs := h.refs_eq
        have hbase := Bool.toNat_le s.baseHeld
        simp only [hi, reduceCtorEq, decide_false, decide_true, Bool.toNat_false, Bool.toNat_true] at hup
        unfold State.inside at hrefs
        have hinc : inc32 refs = s.rpcRefs + 1 := by
          rw [← hsame.1]
          exact Nat.mod_eq_of_lt (by omega)
        exact h.moveHandler i (by rw [hi, hinc]; rfl) nofun
      · exact h.moveHandler i (by rw [hi]; rfl) nofun
    · have hpos := h.pos_of_inside hi
      exact h.moveHandler i (by rw [hi]; exact dec32_add_one hpos hlt) nofun
  | drainer j =>
    simp only [step, drainerStep]
    split
    all_goals rename_i hj
    · split_ifs with hstarted
      · exact h
      · have hfalse := Bool.eq_false_iff.2 hstarted
        have honce := h.once
        rw [hfalse, Bool.toNat_false] at honce
        exact h.moveDrainer j (by rw [hj, hfalse]; rfl) (by rw [hj]; simpa using honce)
    · have hpos := h.pos_of_drop hj
      have honce := h.once
      have hdec := dec32_add_one hpos hlt
      refine h.moveDrainer j ?_ (by rw [hj]; simp; omega)
      rw [hj]
      simp
      omega
    · rename_i waited
      have honce := h.once
      split_ifs
      · exact h.moveDrainer j (by rw [hj]; rfl) (by rw [hj]; simpa using honce)
      · exact h.moveDrainer j (by rw [hj]; rfl) (by rw [hj]; simpa using honce)

lemma inv_run (h : Inv s) (es : List (Event n m)) : Inv (Run.run step s es) := by
  induction es generalizing s with
  | nil => exact h
  | cons e es ih => exact ih (inv_step hn h e)

lemma zero_run (h : Inv s) (hzero : s.rpcRefs = 0) (es : List (Event n m)) : (Run.run step s es).rpcRefs = 0 := by
  induction es generalizing s with
  | nil => exact hzero
  | cons e es ih => exact ih (inv_step hn h e) (zero_step h hzero e)

end Step

lemma inv_init : Inv ({} : State n m) :=
  ⟨by simp [State.inside, State.dropping, countAt], by simp [State.dropping, countAt], nofun⟩

/-- **Draining is safe**, with fewer than `2 ^ 32 - 1` handlers: the counter is the number of handlers inside, and one
for the base reference; it is positive whenever one is taken off; and once it is zero it stays zero with nobody inside,
so that no later `TryAcquireRpcRef` succeeds. -/
theorem drain_safe (hn : n + 1 < 2 ^ 32) (es : List (Event n m)) : let s := Run.run step ({} : State n m) es
    s.rpcRefs = s.inside + s.baseHeld.toNat ∧ (∀ i, s.handlers i = .inside → 0 < s.rpcRefs) ∧
      (∀ j, s.drainers j = .drop → 0 < s.rpcRefs) ∧
      (s.rpcRefs = 0 → ∀ later, (Run.run step s later).rpcRefs = 0 ∧
        ∀ i, (Run.run step s later).handlers i ≠ .inside) := by
  intro s
  have h : Inv s := inv_run hn inv_init es
  refine ⟨h.refs_eq, fun i hi => h.pos_of_inside hi, fun j hj => h.pos_of_drop hj, fun hzero later => ?_⟩
  have hlater := zero_run hn h hzero later
  exact ⟨hlater, fun i hi => absurd hlater ((inv_run hn h later).pos_of_inside hi).ne'⟩

/-- one handler inside, and a drain that waits for it -/
theorem drain_safe_one : let es : List (Event 1 1) :=
      [.handler 0 false, .handler 0 false, .handler 0 false, .drainer 0, .drainer 0]
    let s := Run.run step {} es
    s.rpcRefs = s.inside + s.baseHeld.toNat ∧ s.rpcRefs = 1 :=
  ⟨(drain_safe (by decide) _).1, by decide +kernel⟩

/-! ### More handlers than the counter can count -/

def acquire (i : Fin n) : List (Event n m) := [.handler i false, .handler i false, .handler i false]

lemma run_acquire {s : State n m} {i : Fin n} (hi : s.handlers i = .idle) (halive : s.rpcAlive = true)
    (hpos : s.rpcRefs ≠ 0) : Run.run step s (acquire i) =
      { s with rpcRefs := inc32 s.rpcRefs, handlers := Function.update s.handlers i .inside } := by
  simp [acquire, Run.run, step, handlerStep, hi, halive, hpos]

lemma run_acquires {is : List (Fin n)} (hnodup : is.Nodup) {s : State n m} (hidle : ∀ i ∈ is, s.handlers i = .idle)
    (halive : s.rpcAlive = true) (hpos : s.rpcRefs ≠ 0) (hfit : s.rpcRefs + is.length ≤ 2 ^ 32) :
    Run.run step s (is.flatMap acquire) =
      { s with rpcRefs := if is = [] then s.rpcRefs else (s.rpcRefs + is.length) % 2 ^ 32
               handlers := fun i => if i ∈ is then .inside else s.handlers i } := by
  induction is generalizing s with
  | nil => simp [Run.run]
  | cons i is ih =>
    obtain ⟨hi, hnodup'⟩ := nodup_cons.1 hnodup
    have hrun : Run.run step s ((i :: is).flatMap acquire) =
        Run.run step (Run.run step s (acquire i)) (is.flatMap acquire) := by
      rw [flatMap_cons]
      exact foldl_append
    rw [hrun, run_acquire (hidle i mem_cons_self) halive hpos]
    have hother : ∀ j ∈ is, Function.update s.handlers i .inside j = .idle := by
      intro j hj
      have hne : j ≠ i := fun heq => hi (heq ▸ hj)
      rw [update_of_ne hne]
      exact hidle j (mem_cons_of_mem i hj)
    have hhandlers : (fun j => if j ∈ is then Handler.inside else Function.update s.handlers i .inside j) =
        fun j => if j ∈ i :: is then .inside else s.handlers j := by
      funext j
      by_cases hj : j = i
      · subst hj
        simp
      · simp [hj]
    rw [length_cons] at hfit
    by_cases hnil : is = []
    · subst hnil
      simp only [flatMap_nil, Run.run, foldl_nil, length_singleton]
      rw [← hhandlers]
      simp [inc32]
    · have hlen := length_pos_iff.2 hnil
      have hinc : inc32 s.rpcRefs = s.rpcRefs + 1 := Nat.mod_eq_of_lt (by omega)
      have hrest := @ih hnodup' { s with rpcRefs := s.rpcRefs + 1, handlers := Function.update s.handlers i .inside }
        hother halive (Nat.succ_ne_zero _) (by dsimp only; omega)
      rw [hinc, hrest, if_neg hnil, if_neg (by simp), hhandlers, length_cons, Nat.add_assoc, Nat.add_comm 1]

/-- **The counter wraps** with `2 ^ 32 - 1` handlers inside: it is zero while the base reference is held. -/
theorem refs_wrap : ∃ n, ∃ es : List (Event n 0),
    (Run.run step {} es).rpcRefs = 0 ∧ (Run.run step {} es).inside = n ∧ 0 < n ∧
      (Run.run step {} es).baseHeld = true := by
  have hall : ∀ n, 0 < n → n + 1 = 2 ^ 32 → ∃ es : List (Event n 0), (Run.run step {} es).rpcRefs = 0 ∧
      (Run.run step {} es).inside = n ∧ (Run.run step {} es).baseHeld = true := by
    intro n hpos hn
    have hne : finRange n ≠ [] := by
      rw [← length_pos_iff, length_finRange]
      exact hpos
    refine ⟨(finRange n).flatMap acquire, ?_⟩
    rw [run_acquires (nodup_finRange n) (fun _ _ => rfl) rfl Nat.one_ne_zero
      (by rw [length_finRange]; dsimp only; omega), if_neg hne, length_finRange]
    refine ⟨?_, ?_, rfl⟩
    · show (1 + n) % 2 ^ 32 = 0
      rw [Nat.add_comm, hn, Nat.mod_self]
    · simp [State.inside, countAt]
  obtain ⟨es, hrefs, hinside, hbase⟩ := hall (2 ^ 32 - 1) (by decide) (by decide)
  exact ⟨2 ^ 32 - 1, es, hrefs, hinside, by decide, hbase⟩

end RpcRefs

end MaxRedis.Raft

/-
What the counter `obj_memory_usage` of a shard counts.

`DbSlice` adds the capacity of a key when the key is inserted, and takes off the capacities of key and value when the
entry goes.
-/
import MaxRedis.Core.Run
import MaxRedis.Kv.StateMachine

namespace MaxRedis.Kv

open Platform List

namespace DbSlice

lemma ofInt_natCast (n : ℕ) : UInt64.ofInt n = .ofNat n := by
  rw [UInt64.ofInt, ← UInt64.toNat_inj, UInt64.toNat_ofNat', UInt64.toNat_ofNat']
  omega

lemma ofInt_sub (x y : ℤ) : UInt64.ofInt (x - y) = .ofInt x - .ofInt y := by
  rw [Int.sub_eq_add_neg, UInt64.ofInt_add, UInt64.ofInt_neg, UInt64.sub_eq_add_neg]

variable [Platform] (db : DbSlice)

def footprint (key : Str) (v : PrimeValue) : ℕ := capacity key + capacity v.value

def memory (db : DbSlice) : ℕ := (db.mainTable.entries.map fun e => footprint e.1 e.2).sum

lemma sum_kerase (key : Str) (es : List (Sigma fun _ : Str => PrimeValue)) :
    (es.map fun e => footprint e.1 e.2).sum =
      ((es.dlookup key).elim 0 (footprint key)) + ((es.kerase key).map fun e => footprint e.1 e.2).sum := by
  induction es with
  | nil => rfl
  | cons e es ih =>
    obtain ⟨k, v⟩ := e
    by_cases hk : key = k
    · subst hk
      have herase : (⟨key, v⟩ :: es : List (Sigma fun _ : Str => PrimeValue)).kerase key = es := kerase_cons_eq rfl
      rw [herase, dlookup_cons_eq]
      rfl
    · rw [kerase_cons_ne hk, dlookup_cons_ne _ _ hk, map_cons, sum_cons, ih, map_cons,
        sum_cons]
      omega

lemma memory_insert (usage : UInt64) (key : Str) (v : PrimeValue) :
    (DbSlice.mk (db.mainTable.insert key v) usage).memory + (db.lookup key).elim 0 (footprint key) =
      db.memory + footprint key v := by
  have h := sum_kerase key db.mainTable.entries
  have hinsert : (DbSlice.mk (db.mainTable.insert key v) usage).memory =
      footprint key v + ((db.mainTable.entries.kerase key).map fun e => footprint e.1 e.2).sum := rfl
  have hlookup : db.lookup key = db.mainTable.entries.dlookup key := rfl
  rw [hinsert, hlookup, memory]
  omega

lemma memory_evict {key : Str} {v : PrimeValue} (h : db.lookup key = some v) :
    (db.evict key v).memory + footprint key v = db.memory := by
  have hsum := sum_kerase key db.mainTable.entries
  have hlookup : db.mainTable.entries.dlookup key = some v := h
  have hevict : (db.evict key v).memory = ((db.mainTable.entries.kerase key).map fun e => footprint e.1 e.2).sum := rfl
  rw [hlookup] at hsum
  rw [hevict, memory, hsum]
  exact Nat.add_comm _ _

def Counts (db : DbSlice) (drift : ℤ) : Prop := db.objMemoryUsage = .ofInt (db.memory - drift)

section Counted
variable {db : DbSlice} {drift : ℤ} (h : db.Counts drift) {v : PrimeValue} (now : UInt64)
include h

lemma Counts.evict {key : Str} (hv : db.lookup key = some v) : (db.evict key v).Counts drift := by
  have hmem := db.memory_evict hv
  have hless : ((db.evict key v).memory : ℤ) - drift = db.memory - drift - footprint key v := by omega
  unfold Counts at h ⊢
  rw [hless, ofInt_sub, ← h, ofInt_natCast, footprint, UInt64.ofNat_add]
  rfl

lemma Counts.emplace {key : Str} (hnone : db.lookup key = none) :
    (db.emplace key).Counts (drift + capacity ([] : Str)) := by
  have hmem : (db.emplace key).memory + _ = _ := db.memory_insert _ key {}
  rw [hnone, Option.elim_none, Nat.add_zero, footprint] at hmem
  have hmore : ((db.emplace key).memory : ℤ) - (drift + capacity ([] : Str)) = db.memory - drift + capacity key := by
    rw [hmem]
    push_cast
    ring
  unfold Counts at h ⊢
  rw [hmore, UInt64.ofInt_add, ← h, ofInt_natCast]
  rfl

lemma Counts.setExpire (key : Str) (ms : UInt64) : (db.setExpire key ms).1.Counts drift := by
  unfold DbSlice.setExpire
  cases hv : db.lookup key with
  | none => exact h
  | some v =>
    have hmem := db.memory_insert db.objMemoryUsage key { v with expireMs := ms }
    rw [hv, Option.elim_some] at hmem
    have hsame :
        (DbSlice.mk (db.mainTable.insert key { v with expireMs := ms }) db.objMemoryUsage).memory = db.memory :=
      Nat.add_right_cancel hmem
    unfold Counts at h ⊢
    rw [hsame]
    exact h

lemma Counts.assign {key val : Str} (hv : db.lookup key = some v) :
    (db.assign key val).Counts (drift + (capacity val - capacity v.value)) := by
  have hmem : (db.assign key val).memory + _ = _ :=
    db.memory_insert db.objMemoryUsage key { (db.lookup key).getD {} with value := val }
  rw [hv, Option.elim_some, footprint, footprint] at hmem
  have hsame : ((db.assign key val).memory : ℤ) - (drift + (capacity val - capacity v.value)) = db.memory - drift := by
    dsimp only at hmem
    omega
  unfold Counts at h ⊢
  rw [hsame]
  exact h

lemma Counts.addOrFind (key : Str) :
    (db.addOrFind now key).1.Counts (drift + if (db.addOrFind now key).2 then (capacity ([] : Str) : ℤ) else 0) := by
  unfold DbSlice.addOrFind
  cases hv : db.lookup key with
  | none => exact h.emplace hv
  | some v =>
    by_cases he : v.expired now = true
    · simp only [he, if_true]
      refine (h.evict hv).emplace ?_
      rw [lookup_evict, Function.update_self]
    · simp only [he, Bool.false_eq_true, if_false, Int.add_zero]
      exact h

lemma Counts.find (key : Str) : (db.find now key).1.Counts drift := by
  unfold DbSlice.find
  cases hv : db.lookup key with
  | none => exact h
  | some v =>
    dsimp only
    split_ifs
    · exact h.evict hv
    · exact h

lemma Counts.del (key : Str) : (db.del key).1.Counts drift := by
  unfold DbSlice.del
  cases hv : db.lookup key with
  | none => exact h
  | some v => exact h.evict hv

end Counted

end DbSlice

/-! ## Operations -/

/-- what the state machine (`set`, `get`, `del`, `expire`) and the import of a snapshot (`load`) do on a shard; `Set` is
`set` without options -/
inductive SliceOp
  | set (now : UInt64) (key val : Str) (nx xx : Bool) (expireAtMs : UInt64)
  | load (now : UInt64) (key val : Str) (expireMs : UInt64)
  | get (now : UInt64) (key : Str)
  | del (key : Str)
  | expire (key : Str) (expireAtMs : UInt64)

namespace SliceOp

variable [Platform]

def on (db : DbSlice) : SliceOp → DbSlice
  | set now key val nx xx expireAtMs => ((ShardTask.set now key val nx xx expireAtMs).run db).1
  | load now key val expireMs => (((db.addOrFind now key).1.assign key val).setExpire key expireMs).1
  | get now key => (db.find now key).1
  | del key => (db.del key).1
  | expire key expireAtMs => (db.setExpire key expireAtMs).1

def blank (db : DbSlice) (now : UInt64) (key : Str) : ℤ := if (db.addOrFind now key).2 then capacity ([] : Str) else 0

def change (db : DbSlice) (now : UInt64) (key val : Str) : ℤ :=
  capacity val - capacity ((alive now (db.lookup key)).getD {}).value

def drift (db : DbSlice) : SliceOp → ℤ
  | set now key val nx xx expireAtMs =>
    blank db now key + if ((ShardTask.set now key val nx xx expireAtMs).run db).2 then change db now key val else 0
  | load now key val _ => blank db now key + change db now key val
  | _ => 0

/-- The operation stores no value of another capacity than the one it replaces; for a new key that is 0. -/
def keeps (db : DbSlice) : SliceOp → Bool
  | set now key val nx xx _ =>
    match alive now (db.lookup key) with
    | some v => nx || capacity val == capacity v.value
    | none => capacity (if xx then ([] : Str) else val) == 0
  | load now key val _ =>
    match alive now (db.lookup key) with
    | some v => capacity val == capacity v.value
    | none => capacity val == 0
  | _ => true

lemma addOrFind_new (db : DbSlice) (now : UInt64) (key : Str) :
    (db.addOrFind now key).2 = (alive now (db.lookup key)).isNone := by
  unfold DbSlice.addOrFind
  cases hkey : db.lookup key with
  | none => rfl
  | some v =>
    rw [alive_some]
    by_cases he : v.expired now = true <;> simp [he]

lemma drift_eq_zero {db : DbSlice} {op : SliceOp} (h : op.keeps db) : op.drift db = 0 := by
  cases op with
  | set now key val nx xx expireAtMs =>
    simp only [keeps] at h
    simp only [drift, blank, change, ShardTask.set, addOrFind_new]
    cases hv : alive now (db.lookup key) with
    | none =>
      rw [hv] at h
      cases xx
      · by_cases he : 0 < expireAtMs <;> simp_all
      · simp_all
    | some v =>
      rw [hv] at h
      cases nx <;> simp_all
  | load now key val expireMs =>
    simp only [keeps] at h
    simp only [drift, blank, change, addOrFind_new]
    cases hv : alive now (db.lookup key) with
    | none =>
      rw [hv] at h
      simp_all
    | some v =>
      rw [hv] at h
      simp_all
  | get | del | expire => rfl

lemma counts_on {db : DbSlice} {d : ℤ} (h : db.Counts d) (op : SliceOp) : (op.on db).Counts (d + op.drift db) := by
  have hassign : ∀ now key val, ((db.addOrFind now key).1.assign key val).Counts
      (d + (blank db now key + change db now key val)) := by
    intro now key val
    rw [← Int.add_assoc]
    refine (h.addOrFind now key).assign ?_
    rw [(db.lookup_addOrFind now key).1, Function.update_self]
  cases op with
  | set now key val nx xx expireAtMs =>
    have hrun : (ShardTask.set now key val nx xx expireAtMs).run db = ((db.addOrFind now key).1, false) ∨
        (ShardTask.set now key val nx xx expireAtMs).run db =
          ((((db.addOrFind now key).1.assign key val).setExpire key expireAtMs).1, true) ∨
        (ShardTask.set now key val nx xx expireAtMs).run db = ((db.addOrFind now key).1.assign key val, true) := by
      simp only [ShardTask.set]
      split_ifs <;> simp
    unfold on drift
    dsimp only
    rcases hrun with hrun | hrun | hrun
    · rw [hrun, if_neg Bool.false_ne_true, Int.add_zero]
      exact h.addOrFind now key
    · rw [hrun, if_pos rfl]
      exact (hassign now key val).setExpire key expireAtMs
    · rw [hrun, if_pos rfl]
      exact hassign now key val
  | load now key val expireMs => exact (hassign now key val).setExpire key expireMs
  | get now key => exact (Int.add_zero d).symm ▸ h.find now key
  | del key => exact (Int.add_zero d).symm ▸ h.del key
  | expire key expireAtMs => exact (Int.add_zero d).symm ▸ h.setExpire key expireAtMs

/-- **The counter is exact** after every run of operations that keep the capacities of the values: it is the sum of the
capacities over the stored entries. -/
theorem memory_exact (ops : List SliceOp) (hkeeps : Run.along on keeps {} ops)
    (hfit : (Run.run on {} ops : DbSlice).memory < 2 ^ 64) :
    (Run.run on {} ops : DbSlice).objMemoryUsage.toNat = (Run.run on {} ops : DbSlice).memory := by
  have hstep : ∀ (db : DbSlice) (op : SliceOp), db.Counts 0 → op.keeps db → (op.on db).Counts 0 := by
    intro db op h hop
    have hon := counts_on h op
    rw [drift_eq_zero hop, Int.add_zero] at hon
    exact hon
  have hrun := Run.along_run on hstep (s := {}) rfl hkeeps
  rw [DbSlice.Counts, Int.sub_zero, DbSlice.ofInt_natCast] at hrun
  rw [hrun, UInt64.toNat_ofNat_of_lt' hfit]

end SliceOp

/-- a set that NX refuses, and a key that is deleted, with capacities that are the sizes -/
theorem SliceOp.memory_exact_refused :
    (Run.run on {} [.set 0 [1] [] false false 0, .set 0 [1] [2] true false 0, .set 0 [3] [] false false 0, .del [3]] :
      DbSlice).objMemoryUsage.toNat = 1 :=
  (memory_exact [.set 0 [1] [] false false 0, .set 0 [1] [2] true false 0, .set 0 [3] [] false false 0, .del [3]]
    (by decide +kernel) (by decide +kernel)).trans (by decide +kernel)

/-- **The counter wraps**: the value of a key was never added, and is taken off with the key. -/
theorem SliceOp.memory_wraps :
    (Run.run on {} [.set 0 [1] [2] false false 0, .del [1]] : DbSlice).objMemoryUsage.toNat = 2 ^ 64 - 1 ∧
      (Run.run on {} [.set 0 [1] [2] false false 0, .del [1]] : DbSlice).memory = 0 := by
  decide +kernel

end MaxRedis.Kv

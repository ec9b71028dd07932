/-
One shard of the store (`DbSlice`): a table from keys to values with an expiry time. A key that has expired stays in the
table until a lookup or an insertion meets it; a deletion and a change of its expiry time still find it.
-/
import Mathlib.Data.List.AList
import Mathlib.Tactic

namespace MaxRedis.Kv

open Function

abbrev Str := List UInt8

/-- what the store takes from outside of it: the capacity of a string, and the hash of a key (`XXH64`) -/
class Platform where
  capacity : Str → ℕ
  size_le_capacity : ∀ s, s.length ≤ capacity s
  hash : Str → UInt64

structure PrimeValue where
  value : Str := []
  expireMs : UInt64 := 0
  deriving DecidableEq

namespace PrimeValue

def expired (v : PrimeValue) (now : UInt64) : Bool := v.expireMs ≠ 0 ∧ v.expireMs ≤ now

lemma expired_mono {v : PrimeValue} {now t : UInt64} (ht : now ≤ t) (h : v.expired now) : v.expired t := by
  simp only [expired, decide_eq_true_eq] at h ⊢
  exact ⟨h.1, UInt64.le_trans h.2 ht⟩

end PrimeValue

def alive (now : UInt64) (v : Option PrimeValue) : Option PrimeValue := v.filter (fun v => !v.expired now)

lemma alive_some (now : UInt64) (v : PrimeValue) : alive now (some v) = if v.expired now then none else some v := by
  unfold alive
  rw [Option.filter_some]
  cases v.expired now <;> rfl

lemma alive_of_le {v : Option PrimeValue} {w : PrimeValue} {now t : UInt64} (ht : now ≤ t) (h : alive t v = some w) :
    alive now v = some w := by
  cases v with
  | none => cases h
  | some v =>
    rw [alive_some] at h ⊢
    by_cases he : v.expired now = true
    · rw [if_pos (PrimeValue.expired_mono ht he)] at h
      cases h
    · rw [if_neg he]
      split_ifs at h
      exact h

lemma alive_eq_none_of_le {v : Option PrimeValue} {now t : UInt64} (ht : now ≤ t) (h : alive now v = none) :
    alive t v = none := by
  cases hw : alive t v with
  | none => rfl
  | some =>
    rw [alive_of_le ht hw] at h
    cases h

/-- `MainTable`; the order of the entries is the order in which the table is visited -/
abbrev MainTable := AList (fun _ : Str => PrimeValue)

structure DbSlice where
  mainTable : MainTable := ∅
  objMemoryUsage : UInt64 := 0

namespace DbSlice

open Platform

def lookup (db : DbSlice) (key : Str) : Option PrimeValue := db.mainTable.lookup key

lemma update_lookup {db : DbSlice} {key : Str} {v : Option PrimeValue} (h : db.lookup key = v) :
    Function.update db.lookup key v = db.lookup := by
  rw [← h, update_eq_self]

lemma lookup_of_insert {db : DbSlice} {table : MainTable} {usage : UInt64} {key : Str} {v : PrimeValue}
    (h : table = db.mainTable.insert key v) :
    (DbSlice.mk table usage).lookup = Function.update db.lookup key (some v) := by
  funext k
  subst h
  show (db.mainTable.insert key v).lookup k = _
  by_cases hk : k = key
  · subst hk
    rw [AList.lookup_insert, update_self]
  · rw [AList.lookup_insert_ne hk, update_of_ne hk]
    rfl

/-! ## Values and expiry times -/

def assign (db : DbSlice) (key val : Str) : DbSlice :=
  { db with mainTable := db.mainTable.insert key { (db.lookup key).getD {} with value := val } }

def setExpire (db : DbSlice) (key : Str) (expireAtMs : UInt64) : DbSlice × Bool :=
  match db.lookup key with
  | none => (db, false)
  | some v => ({ db with mainTable := db.mainTable.insert key { v with expireMs := expireAtMs } }, true)

lemma lookup_assign (db : DbSlice) (key val : Str) :
    (db.assign key val).lookup = Function.update db.lookup key (some { (db.lookup key).getD {} with value := val }) :=
  lookup_of_insert rfl

lemma lookup_setExpire (db : DbSlice) (key : Str) (expireAtMs : UInt64) :
    (db.setExpire key expireAtMs).1.lookup =
      Function.update db.lookup key ((db.lookup key).map fun v => { v with expireMs := expireAtMs }) ∧
    (db.setExpire key expireAtMs).2 = (db.lookup key).isSome := by
  unfold setExpire
  cases h : db.lookup key with
  | none => exact ⟨(update_lookup h).symm, rfl⟩
  | some => exact ⟨lookup_of_insert rfl, rfl⟩

/-! ## Keys come and go -/

section Keys
variable [Platform] (db : DbSlice)

def evict (db : DbSlice) (key : Str) (v : PrimeValue) : DbSlice where
  mainTable := db.mainTable.erase key
  objMemoryUsage := db.objMemoryUsage - (.ofNat (capacity key) + .ofNat (capacity v.value))

def emplace (db : DbSlice) (key : Str) : DbSlice where
  mainTable := db.mainTable.insert key {}
  objMemoryUsage := db.objMemoryUsage + .ofNat (capacity key)

def find (db : DbSlice) (now : UInt64) (key : Str) : DbSlice × Option PrimeValue :=
  match db.lookup key with
  | none => (db, none)
  | some v => if v.expired now then (db.evict key v, none) else (db, some v)

def addOrFind (db : DbSlice) (now : UInt64) (key : Str) : DbSlice × Bool :=
  match db.lookup key with
  | none => (db.emplace key, true)
  | some v => if v.expired now then ((db.evict key v).emplace key, true) else (db, false)

def del (db : DbSlice) (key : Str) : DbSlice × Bool :=
  match db.lookup key with
  | none => (db, false)
  | some v => (db.evict key v, true)

lemma lookup_evict (key : Str) (v : PrimeValue) :
    (db.evict key v).lookup = Function.update db.lookup key none := by
  funext k
  show (db.mainTable.erase key).lookup k = _
  by_cases hk : k = key
  · subst hk
    rw [AList.lookup_erase, update_self]
  · rw [AList.lookup_erase_ne hk, update_of_ne hk]
    rfl

lemma lookup_emplace (key : Str) : (db.emplace key).lookup = Function.update db.lookup key (some {}) :=
  lookup_of_insert rfl

lemma lookup_find (now : UInt64) (key : Str) :
    (db.find now key).1.lookup = Function.update db.lookup key (alive now (db.lookup key)) ∧
    (db.find now key).2 = alive now (db.lookup key) := by
  unfold find
  cases h : db.lookup key with
  | none => exact ⟨(update_lookup h).symm, rfl⟩
  | some v =>
    rw [alive_some]
    by_cases he : v.expired now = true
    · simp only [he, if_true]
      exact ⟨lookup_evict db key v, trivial⟩
    · simp only [he]
      exact ⟨(update_lookup h).symm, rfl⟩

lemma lookup_addOrFind (now : UInt64) (key : Str) :
    (db.addOrFind now key).1.lookup = Function.update db.lookup key (some ((alive now (db.lookup key)).getD {})) ∧
    (db.addOrFind now key).2 = (alive now (db.lookup key)).isNone := by
  unfold addOrFind
  cases h : db.lookup key with
  | none => exact ⟨lookup_emplace db key, rfl⟩
  | some v =>
    rw [alive_some]
    by_cases he : v.expired now = true
    · simp only [he, if_true]
      refine ⟨?_, rfl⟩
      rw [lookup_emplace, lookup_evict, update_idem]
      rfl
    · simp only [he]
      exact ⟨(update_lookup h).symm, rfl⟩

lemma lookup_del (key : Str) :
    (db.del key).1.lookup = Function.update db.lookup key none ∧ (db.del key).2 = (db.lookup key).isSome := by
  unfold del
  cases h : db.lookup key with
  | none => exact ⟨(update_lookup h).symm, rfl⟩
  | some v => exact ⟨lookup_evict db key v, rfl⟩

end Keys

end DbSlice

end MaxRedis.Kv

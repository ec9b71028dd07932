/-
The replicated store (`KvStateMachine`): keys spread over shards by their hash, and the commands of the log carried out
on them.
-/
import MaxRedis.Kv.Commands
import MaxRedis.Raft.Types

namespace MaxRedis.Kv

open Function

open Raft (ApplyResult)

/-! ## Tasks -/

/-- code for the shard of `key`, and what it does to what is held there -/
structure ShardTask [Platform] (key : Str) (α : Type) where
  run : DbSlice → DbSlice × α
  cell : Option PrimeValue → Option PrimeValue × α
  acts : ∀ db, (run db).1.lookup = Function.update db.lookup key (cell (db.lookup key)).1 ∧
    (run db).2 = (cell (db.lookup key)).2

namespace ShardTask

variable [Platform]

lemma other {key : Str} {α : Type} (task : ShardTask key α) (db : DbSlice) {k : Str} (hk : k ≠ key) :
    (task.run db).1.lookup k = db.lookup k := by
  rw [(task.acts db).1, update_of_ne hk]

def set (now : UInt64) (key val : Str) (nx xx : Bool) (expireAtMs : UInt64) : ShardTask key Bool where
  run db :=
    let found := db.addOrFind now key
    if nx ∧ ¬ found.2 then (found.1, false)
    else if xx ∧ found.2 then (found.1, false)
    else if 0 < expireAtMs then (((found.1.assign key val).setExpire key expireAtMs).1, true)
    else (found.1.assign key val, true)
  cell v :=
    let old := (alive now v).getD {}
    if nx ∧ (alive now v).isSome then (some old, false)
    else if xx ∧ (alive now v).isNone then (some old, false)
    else (some ⟨val, if 0 < expireAtMs then expireAtMs else old.expireMs⟩, true)
  acts db := by
    obtain ⟨hfound, hnew⟩ := db.lookup_addOrFind now key
    have hassign : ((db.addOrFind now key).1.assign key val).lookup =
        Function.update db.lookup key (some { (alive now (db.lookup key)).getD {} with value := val }) := by
      rw [DbSlice.lookup_assign, hfound, Function.update_idem, Function.update_self]
      rfl
    have hsome : (alive now (db.lookup key)).isSome = !(alive now (db.lookup key)).isNone := by
      cases alive now (db.lookup key) <;> rfl
    dsimp only
    rw [hnew, hsome]
    simp only [Bool.not_eq_true', Bool.not_eq_true]
    split_ifs with h1 h2 h3
    · exact ⟨hfound, rfl⟩
    · exact ⟨hfound, rfl⟩
    · refine ⟨?_, rfl⟩
      rw [(DbSlice.lookup_setExpire _ _ _).1, hassign, Function.update_idem, Function.update_self]
      rfl
    · exact ⟨hassign, rfl⟩

def del (key : Str) : ShardTask key Bool where
  run db := db.del key
  cell v := (none, v.isSome)
  acts db := db.lookup_del key

def expire (key : Str) (expireAtMs : UInt64) : ShardTask key Bool where
  run db := db.setExpire key expireAtMs
  cell v := (v.map fun v => { v with expireMs := expireAtMs }, v.isSome)
  acts db := db.lookup_setExpire key expireAtMs

def get (now : UInt64) (key : Str) : ShardTask key (Option PrimeValue) where
  run db := db.find now key
  cell v := (alive now v, alive now v)
  acts db := db.lookup_find now key

end ShardTask

/-! ## Shards -/

def shard [Platform] (n : ℕ) [NeZero n] (key : Str) : Fin n := Fin.ofNat n (Platform.hash key).toNat

structure KvStateMachine [Platform] (n : ℕ) [NeZero n] where
  shards : Fin n → DbSlice
  own : ∀ i k, (shards i).lookup k ≠ none → shard n k = i

namespace KvStateMachine

variable [Platform] {n : ℕ} [NeZero n]

def empty : KvStateMachine n where
  shards _ := {}
  own _ _ h := absurd rfl h

def lookup (s : KvStateMachine n) (key : Str) : Option PrimeValue := (s.shards (shard n key)).lookup key

def await {key : Str} {α : Type} (s : KvStateMachine n) (task : ShardTask key α) : KvStateMachine n × α :=
  let sid := shard n key
  let out := task.run (s.shards sid)
  ({ shards := Function.update s.shards sid out.1
     own := by
       intro i k hk
       by_cases hi : i = sid
       · subst hi
         rw [Function.update_self] at hk
         by_cases hkey : k = key
         · rw [hkey]
         · rw [task.other _ hkey] at hk
           exact s.own _ k hk
       · rw [Function.update_of_ne hi] at hk
         exact s.own i k hk }, out.2)

lemma lookup_await {key : Str} {α : Type} (s : KvStateMachine n) (task : ShardTask key α) :
    (s.await task).1.lookup = Function.update s.lookup key (task.cell (s.lookup key)).1 ∧
    (s.await task).2 = (task.cell (s.lookup key)).2 := by
  refine ⟨?_, (task.acts _).2⟩
  funext k
  show (Function.update s.shards (shard n key) (task.run (s.shards (shard n key))).1 (shard n k)).lookup k = _
  by_cases hk : k = key
  · subst hk
    rw [update_self, (task.acts _).1, update_self, update_self]
    rfl
  · rw [update_of_ne hk]
    by_cases hs : shard n k = shard n key
    · rw [hs, update_self, task.other _ hk, ← hs]
      rfl
    · rw [update_of_ne hs]
      rfl

def applySet (s : KvStateMachine n) (now : UInt64) (key val : Str) (nx xx : Bool) (expireAtMs : UInt64) :
    KvStateMachine n × Bool :=
  s.await (.set now key val nx xx expireAtMs)

def del (s : KvStateMachine n) (key : Str) : KvStateMachine n × Bool := s.await (.del key)

def expire (s : KvStateMachine n) (key : Str) (expireAtMs : UInt64) : KvStateMachine n × Bool :=
  s.await (.expire key expireAtMs)

def get (s : KvStateMachine n) (now : UInt64) (key : Str) : KvStateMachine n × Option PrimeValue :=
  s.await (.get now key)

/-! ## Commands -/

def delAll (s : KvStateMachine n) (deleted : ℕ) : List Str → KvStateMachine n × ℕ
  | [] => (s, deleted)
  | key :: keys =>
    let out := s.del key
    delAll out.1 (if out.2 then deleted + 1 else deleted) keys

end KvStateMachine

def expireAt (now : UInt64) (ttlMs : Option UInt64) : UInt64 := (ttlMs.map (now + ·)).getD 0

def rows (applied : Bool) : ApplyResult := ⟨.ok, if applied then 1 else 0⟩

namespace KvStateMachine

variable [Platform] {n : ℕ} [NeZero n]

def apply (s : KvStateMachine n) (now : UInt64) : KvCommand → KvStateMachine n × ApplyResult
  | .malformed => (s, ⟨.error, 0⟩)
  | .set key val o => (s.applySet now key val o.nx o.xx (expireAt now o.ttlMs)).map id rows
  | .del keys => (s.delAll 0 keys).map id (fun deleted => ⟨.ok, deleted % 2 ^ 32⟩)
  | .expire key ttlMs => (s.expire key (expireAt now (some ttlMs))).map id rows

def applyLogEntry (s : KvStateMachine n) (now : UInt64) (command : Str) : KvStateMachine n × ApplyResult :=
  s.apply now (parseCommand command)

end KvStateMachine

/-! ## The store without its shards -/

abbrev Store := Str → Option PrimeValue

namespace Store

variable [Platform]

def await {key : Str} {α : Type} (st : Store) (task : ShardTask key α) : Store × α :=
  (Function.update st key (task.cell (st key)).1, (task.cell (st key)).2)

def delAll (st : Store) (deleted : ℕ) : List Str → Store × ℕ
  | [] => (st, deleted)
  | key :: keys => delAll (Function.update st key none) (if (st key).isSome then deleted + 1 else deleted) keys

def apply (st : Store) (now : UInt64) : KvCommand → Store × ApplyResult
  | .malformed => (st, ⟨.error, 0⟩)
  | .set key val o => (st.await (.set now key val o.nx o.xx (expireAt now o.ttlMs))).map id rows
  | .del keys => (st.delAll 0 keys).map id (fun deleted => ⟨.ok, deleted % 2 ^ 32⟩)
  | .expire key ttlMs => (st.await (.expire key (expireAt now (some ttlMs)))).map id rows

end Store

namespace KvStateMachine

variable [Platform] {n : ℕ} [NeZero n] (s : KvStateMachine n)

lemma delAll_refines (deleted : ℕ) (keys : List Str) :
    (s.delAll deleted keys).map lookup id = Store.delAll s.lookup deleted keys := by
  induction keys generalizing s deleted with
  | nil => rfl
  | cons key keys ih =>
    obtain ⟨hl, hb⟩ := s.lookup_await (.del key)
    rw [delAll, ih]
    show Store.delAll (s.await (.del key)).1.lookup (if (s.await (.del key)).2 then deleted + 1 else deleted) keys = _
    rw [hl, hb]
    rfl

lemma apply_refines (now : UInt64) (c : KvCommand) :
    (s.apply now c).map lookup id = Store.apply s.lookup now c := by
  cases c with
  | malformed => rfl
  | set key val o =>
    obtain ⟨hl, hb⟩ := s.lookup_await (.set now key val o.nx o.xx (expireAt now o.ttlMs))
    exact Prod.ext hl (congrArg rows hb)
  | del keys =>
    have h := s.delAll_refines 0 keys
    have hl : (s.delAll 0 keys).1.lookup = (Store.delAll s.lookup 0 keys).1 := congrArg Prod.fst h
    have hb : (s.delAll 0 keys).2 = (Store.delAll s.lookup 0 keys).2 := congrArg Prod.snd h
    exact Prod.ext hl (congrArg (fun deleted => (⟨.ok, deleted % 2 ^ 32⟩ : ApplyResult)) hb)
  | expire key ttlMs =>
    obtain ⟨hl, hb⟩ := s.lookup_await (.expire key (expireAt now (some ttlMs)))
    exact Prod.ext hl (congrArg rows hb)

lemma applyLogEntry_refines (now : UInt64) (command : Str) :
    (s.applyLogEntry now command).1.lookup = (Store.apply s.lookup now (parseCommand command)).1 ∧
    (s.applyLogEntry now command).2 = (Store.apply s.lookup now (parseCommand command)).2 := by
  have h := s.apply_refines now (parseCommand command)
  exact ⟨congrArg Prod.fst h, congrArg Prod.snd h⟩

end KvStateMachine

/-! ## Two replicas -/

structure Entry where
  command : Str
  first : UInt64
  second : UInt64

def clocksAgree (st : Store) (e : Entry) : Bool :=
  (!(parseCommand e.command).timed || decide (e.first = e.second)) &&
  match parseCommand e.command with
  | .set key _ _ => (st key).all (fun v => v.expired e.first == v.expired e.second)
  | _ => true

lemma alive_congr {v : Option PrimeValue} {t t' : UInt64} (h : v.all (fun v => v.expired t == v.expired t')) :
    alive t v = alive t' v := by
  cases v with
  | none => rfl
  | some v =>
    have he : v.expired t = v.expired t' := by simpa using h
    rw [alive_some, alive_some, he]

lemma expireAt_congr {ttl : Option UInt64} {t t' : UInt64} (h : ttl.isSome = false ∨ t = t') :
    expireAt t ttl = expireAt t' ttl := by
  cases ttl with
  | none => rfl
  | some =>
    rcases h with h | h
    · cases h
    · rw [h]

lemma Store.apply_congr [Platform] (st : Store) (e : Entry) (h : clocksAgree st e) :
    Store.apply st e.first (parseCommand e.command) = Store.apply st e.second (parseCommand e.command) := by
  simp only [clocksAgree, Bool.and_eq_true, Bool.or_eq_true, Bool.not_eq_true', decide_eq_true_eq] at h
  obtain ⟨htime, hkey⟩ := h
  cases hc : parseCommand e.command with
  | malformed | del => rfl
  | set key val o =>
    rw [hc] at htime hkey
    have hat : expireAt e.first o.ttlMs = expireAt e.second o.ttlMs := expireAt_congr htime
    have hold : alive e.first (st key) = alive e.second (st key) := alive_congr hkey
    have hcell : (ShardTask.set e.first key val o.nx o.xx (expireAt e.first o.ttlMs)).cell (st key) =
        (ShardTask.set e.second key val o.nx o.xx (expireAt e.second o.ttlMs)).cell (st key) := by
      simp only [ShardTask.set, hat, hold]
    simp only [Store.apply, Store.await, hcell]
  | expire _ ttlMs =>
    rw [hc] at htime
    have hat : expireAt e.first (some ttlMs) = expireAt e.second (some ttlMs) := expireAt_congr htime
    simp only [Store.apply, hat]

section Replicas
variable [Platform] {n m : ℕ} [NeZero n] [NeZero m]

def clocksAgreeAlong (s : KvStateMachine n) : List Entry → Bool
  | [] => true
  | e :: log => clocksAgree s.lookup e && clocksAgreeAlong (s.applyLogEntry e.first e.command).1 log

def applyLog (time : Entry → UInt64) (s : KvStateMachine n) (log : List Entry) : KvStateMachine n :=
  log.foldl (fun s e => (s.applyLogEntry (time e) e.command).1) s

lemma applyLog_congr {log : List Entry} {s : KvStateMachine n} {s' : KvStateMachine m} (hs : s.lookup = s'.lookup)
    (h : clocksAgreeAlong s log) : (applyLog Entry.first s log).lookup = (applyLog Entry.second s' log).lookup := by
  induction log generalizing s s' with
  | nil => exact hs
  | cons e _ ih =>
    simp only [clocksAgreeAlong, Bool.and_eq_true] at h
    apply ih _ h.2
    calc (s.applyLogEntry e.first e.command).1.lookup
        = (Store.apply s.lookup e.first (parseCommand e.command)).1 := (s.applyLogEntry_refines _ _).1
      _ = (Store.apply s.lookup e.second (parseCommand e.command)).1 := by rw [Store.apply_congr _ e h.1]
      _ = (Store.apply s'.lookup e.second (parseCommand e.command)).1 := by rw [hs]
      _ = (s'.applyLogEntry e.second e.command).1.lookup := (s'.applyLogEntry_refines _ _).1.symm

/-- **Replicas agree where their clocks do.** -/
theorem replicas_agree (log : List Entry) (h : clocksAgreeAlong (KvStateMachine.empty : KvStateMachine n) log)
    (key : Str) : (applyLog Entry.first (KvStateMachine.empty : KvStateMachine n) log).lookup key =
      (applyLog Entry.second (KvStateMachine.empty : KvStateMachine m) log).lookup key := by
  have hempty : (KvStateMachine.empty : KvStateMachine n).lookup = (KvStateMachine.empty : KvStateMachine m).lookup :=
    rfl
  exact congrFun (applyLog_congr hempty h) key

end Replicas

instance : Platform where
  capacity := List.length
  size_le_capacity _ := le_rfl
  hash key := .ofNat key.length

def setText (key val : Char) (options : List Str) : Str :=
  encodeRespArray (ascii ['S', 'E', 'T'] :: ascii [key] :: ascii [val] :: options)

theorem replicas_agree_sameTime : let log : List Entry :=
      [⟨setText 'k' 'v' [ascii ['P', 'X'], ascii ['9']], 1000, 1000⟩, ⟨setText 'k' 'w' [], 1003, 1008⟩,
      ⟨setText 'j' 'v' [ascii ['N', 'X']], 1007, 1009⟩]
    clocksAgreeAlong (KvStateMachine.empty : KvStateMachine 1) log ∧
    ∀ key, (applyLog Entry.first (KvStateMachine.empty : KvStateMachine 1) log).lookup key =
      (applyLog Entry.second (KvStateMachine.empty : KvStateMachine 2) log).lookup key :=
  ⟨by decide +kernel, replicas_agree _ (by decide +kernel)⟩

/-- **Replicas differ by their clocks.** -/
theorem replicas_differ :
    let ex : List Entry := [⟨setText 'k' 'v' [ascii ['E', 'X'], ascii ['1', '0']], 1000, 2000⟩]
    let nx : List Entry := [⟨setText 'k' 'v' [ascii ['P', 'X'], ascii ['9']], 1000, 1000⟩,
      ⟨setText 'k' 'w' [ascii ['N', 'X']], 1005, 1010⟩]
    let first (log : List Entry) :=
      (applyLog Entry.first (KvStateMachine.empty : KvStateMachine 1) log).lookup (ascii ['k'])
    let second (log : List Entry) :=
      (applyLog Entry.second (KvStateMachine.empty : KvStateMachine 1) log).lookup (ascii ['k'])
    (first ex = some ⟨ascii ['v'], 11000⟩ ∧ second ex = some ⟨ascii ['v'], 12000⟩) ∧
    (first nx = some ⟨ascii ['v'], 1009⟩ ∧ second nx = some ⟨ascii ['w'], 0⟩) := by
  decide +kernel

end MaxRedis.Kv

/-
What becomes of keys with an expiry time, and of a SET that is refused.

A key that has expired stays in the table until a lookup or an insertion meets it.
-/
import MaxRedis.Core.Run
import MaxRedis.Kv.Cells

namespace MaxRedis.Kv

open List Option Function

open Raft (ApplyResult)

lemma rows_eq_one {applied : Bool} : (rows applied).affectedRows = 1 ↔ applied := by
  cases applied <;> simp [rows]

/-! ## A SET that is refused -/

section Refused
variable [Platform] {n : ℕ} [NeZero n] {db : DbSlice} {now expireAtMs : UInt64} {key val : Str} {nx xx : Bool}

def DbSlice.dbSize (db : DbSlice) : ℕ := db.mainTable.entries.length

namespace KvStateMachine

def dbSize (s : KvStateMachine n) : ℕ := ((List.finRange n).map (fun i => (s.shards i).dbSize)).sum

lemma await_eq_self {key : Str} {α : Type} {s : KvStateMachine n} {task : ShardTask key α}
    (h : (task.run (s.shards (shard n key))).1 = s.shards (shard n key)) : (s.await task).1 = s := by
  have hshards : (s.await task).1.shards = s.shards := by
    show Function.update s.shards (shard n key) (task.run (s.shards (shard n key))).1 = s.shards
    rw [h, update_eq_self]
  cases s with
  | mk shards own =>
    generalize (KvStateMachine.await ⟨shards, own⟩ task).1 = out at hshards
    cases out with
    | mk =>
      cases hshards
      rfl

end KvStateMachine

lemma DbSlice.addOrFind_of_alive
    (h : (alive now (db.lookup key)).isSome) : db.addOrFind now key = (db, false) := by
  unfold addOrFind
  cases hkey : db.lookup key with
  | none =>
    rw [hkey] at h
    cases h
  | some v =>
    rw [hkey, alive_some] at h
    by_cases he : v.expired now = true
    · rw [if_pos he] at h
      cases h
    · simp only [he]
      rfl

lemma ShardTask.set_refused {v : Option PrimeValue}
    (h : ((ShardTask.set now key val nx xx expireAtMs).cell v).2 = false) :
    (alive now v).isSome ∨ xx = true ∧ (alive now v).isNone := by
  simp only [ShardTask.set] at h
  split_ifs at h with hnx hxx
  · exact Or.inl hnx.2
  · exact Or.inr hxx

lemma ShardTask.set_missing {v : Option PrimeValue} (hv : alive now v = none) :
    (ShardTask.set now key val nx true expireAtMs).cell v = (some ⟨[], 0⟩, false) := by
  simp [ShardTask.set, hv]

lemma ShardTask.set_run_of_alive
    (h : (alive now (db.lookup key)).isSome) (hrun : ((ShardTask.set now key val nx xx expireAtMs).run db).2 = false) :
    ((ShardTask.set now key val nx xx expireAtMs).run db).1 = db := by
  simp only [ShardTask.set, DbSlice.addOrFind_of_alive h] at hrun ⊢
  cases nx with
  | true => simp
  | false =>
    simp only [Bool.false_eq_true, false_and, and_false, if_false] at hrun
    split_ifs at hrun

/-- **A SET that is refused changes nothing** exactly if it has no XX or finds its key alive. -/
theorem refused_set_changes_nothing (s : KvStateMachine n) (now : UInt64) (command : Str) (args : List Str)
    (hset : commandArgs command = some (ascii ['S', 'E', 'T'] :: args))
    (hrows : (s.applyLogEntry now command).2.affectedRows = 0) :
    let out := (s.applyLogEntry now command).1
    ((∀ key, out.lookup key = s.lookup key) ∧ (∀ t key, (out.get t key).2 = (s.get t key).2) ∧
      out.dbSize = s.dbSize) ↔
    ∀ key val o, parseCommand command = .set key val o → o.xx → (alive now (s.lookup key)).isSome := by
  intro out
  refine ⟨fun h key val o hc hxx => ?_, fun hlive => ?_⟩
  · -- the key was inserted before XX was looked at
    by_contra hno
    have hnone : alive now (s.lookup key) = none := by simpa using hno
    have hsame := h.1 key
    rw [show out = (s.applySet now key val o.nx o.xx (expireAt now o.ttlMs)).1 by
      show (s.applyLogEntry now command).1 = _
      rw [KvStateMachine.applyLogEntry, hc]
      rfl, KvStateMachine.applySet, (s.lookup_await _).1, hxx, update_self, ShardTask.set_missing hnone] at hsame
    rw [← hsame] at hnone
    cases hnone
  have hparse : parseCommand command = parseArgs (ascii ['S', 'E', 'T'] :: args) := by rw [parseCommand, hset]
  have hsame : (s.applyLogEntry now command).1 = s := by
    rcases parseArgs_set args with hmal | ⟨key, val, opts, o, -, -, hargs⟩
    · rw [KvStateMachine.applyLogEntry, hparse, hmal]
      rfl
    · have hc := hparse.trans hargs
      rw [KvStateMachine.applyLogEntry, hc] at hrows ⊢
      have hfalse : (s.applySet now key val o.nx o.xx (expireAt now o.ttlMs)).2 = false := by
        by_contra h
        have hone := rows_eq_one.2 (by simpa using h)
        exact absurd (hrows.symm.trans hone) (by decide)
      have hcell := (s.lookup_await (.set now key val o.nx o.xx (expireAt now o.ttlMs))).2.symm.trans hfalse
      have halive : (alive now (s.lookup key)).isSome := by
        rcases ShardTask.set_refused hcell with h | ⟨hxx, -⟩
        · exact h
        · exact hlive key val o hc hxx
      exact KvStateMachine.await_eq_self (ShardTask.set_run_of_alive halive hfalse)
  rw [show out = s from hsame]
  exact ⟨fun _ => rfl, fun _ _ => rfl, rfl⟩

end Refused

theorem refused_set_changes_nothing_nx :
    let s : KvStateMachine 1 := (KvStateMachine.empty.applyLogEntry 1000 (setText 'k' 'v' [])).1
    let out := s.applyLogEntry 2000 (setText 'k' 'w' [ascii ['N', 'X']])
    out.2.affectedRows = 0 ∧ (∀ key, out.1.lookup key = s.lookup key) ∧
      (∀ t key, (out.1.get t key).2 = (s.get t key).2) ∧ out.1.dbSize = s.dbSize := by
  refine ⟨by decide +kernel, (refused_set_changes_nothing _ 2000 _ [ascii ['k'], ascii ['w'], ascii ['N', 'X']]
    (by decide +kernel) (by decide +kernel)).2 ?_⟩
  intro key val o hc hxx
  have hparse : parseCommand (setText 'k' 'w' [ascii ['N', 'X']]) = .set (ascii ['k'])
      (ascii ['w']) ⟨true, false, none⟩ := by
    decide +kernel
  cases hparse.symm.trans hc
  cases hxx

/-- SET with XX leaves an empty value under a key that is not there. -/
theorem refused_set_adds :
    let out := (KvStateMachine.empty : KvStateMachine 1).applyLogEntry 1000 (setText 'k' 'v' [ascii ['X', 'X']])
    out.2.affectedRows = 0 ∧ ((KvStateMachine.empty : KvStateMachine 1).get 1000 (ascii ['k'])).2 = none ∧
      (out.1.get 1000 (ascii ['k'])).2 = some ⟨[], 0⟩ ∧ out.1.dbSize = 1 := by
  decide +kernel

/-! ## Expired means absent -/

lemma alive_alive {now t : UInt64} (h : now ≤ t) (v : Option PrimeValue) : alive t (alive now v) = alive t v := by
  cases v with
  | none => rfl
  | some v =>
    by_cases he : v.expired now = true
    · rw [alive_some now, if_pos he, alive_some t, if_pos (PrimeValue.expired_mono h he)]
      rfl
    · rw [alive_some now, if_neg he]

namespace Store

def expel (now : UInt64) (st : Store) : Store := fun k => alive now (st k)

variable {now : UInt64} {st st' : Store}

lemma expel_expel {t : UInt64} (h : now ≤ t) (st : Store) : (st.expel now).expel t = st.expel t :=
  funext fun k => alive_alive h (st k)

lemma expel_update (h : st.expel now = st'.expel now) (key : Str) (x : Option PrimeValue) :
    Store.expel now (Function.update st key x) = Store.expel now (Function.update st' key x) := by
  funext k
  unfold expel
  by_cases hk : k = key
  · subst hk
    rw [update_self, update_self]
  · rw [update_of_ne hk, update_of_ne hk]
    exact congrFun h k

lemma delAll_expel {keys : List Str} (h : st.expel now = st'.expel now) (hkeys : ∀ key ∈ keys, st key = st' key)
    (deleted : ℕ) : (st.delAll deleted keys).2 = (st'.delAll deleted keys).2 ∧
      (st.delAll deleted keys).1.expel now = (st'.delAll deleted keys).1.expel now := by
  induction keys generalizing st st' deleted with
  | nil => exact ⟨rfl, h⟩
  | cons key _ ih =>
    rw [delAll, hkeys key mem_cons_self]
    apply ih (expel_update h key none)
    intro k hk
    by_cases hkey : k = key
    · rw [hkey, update_self, update_self]
    · rw [update_of_ne hkey, update_of_ne hkey]
      exact hkeys k (mem_cons_of_mem key hk)

end Store

section Expired
variable [Platform] {n : ℕ} [NeZero n]

inductive Op where
  | entry (command : Str)
  | get (key : Str)

inductive Outcome where
  | applied (r : ApplyResult)
  | found (v : Option PrimeValue)
  deriving DecidableEq

def KvStateMachine.perform (s : KvStateMachine n) (now : UInt64) : Op → KvStateMachine n × Outcome
  | .entry command => (s.applyLogEntry now command).map id .applied
  | .get key => (s.get now key).map id .found

def KvStateMachine.outcomes (s : KvStateMachine n) : List (UInt64 × Op) → List Outcome
  | [] => []
  | (now, op) :: ops => (s.perform now op).2 :: (s.perform now op).1.outcomes ops

namespace Store

def perform (st : Store) (now : UInt64) : Op → Store × Outcome
  | .entry command => (st.apply now (parseCommand command)).map id .applied
  | .get key => (st.await (.get now key)).map id .found

def eagerOutcomes (st : Store) : List (UInt64 × Op) → List Outcome
  | [] => []
  | (now, op) :: ops =>
    let out := (st.expel now).perform now op
    out.2 :: eagerOutcomes out.1 ops

end Store

def KvCommand.touched : KvCommand → List Str
  | .del keys => keys
  | .expire key _ => [key]
  | _ => []

def Op.touched : Op → List Str
  | .entry command => (parseCommand command).touched
  | .get _ => []

def spares (s : KvStateMachine n) (e : UInt64 × Op) : Bool :=
  e.2.touched.all (fun key => (s.lookup key).all (fun v => !v.expired e.1))

namespace Store

variable {now : UInt64} {st st' : Store}

lemma await_expel {key : Str} {α : Type} (task : ShardTask key α) (h : st.expel now = st'.expel now)
    (hcell : task.cell (st key) = task.cell (st' key)) :
    (st.await task).2 = (st'.await task).2 ∧ (st.await task).1.expel now = (st'.await task).1.expel now := by
  unfold await
  rw [hcell]
  exact ⟨rfl, expel_update h key _⟩

lemma apply_expel {c : KvCommand} (h : st.expel now = st'.expel now) (htouched : ∀ key ∈ c.touched, st key = st' key) :
    (st.apply now c).2 = (st'.apply now c).2 ∧ (st.apply now c).1.expel now = (st'.apply now c).1.expel now := by
  cases c with
  | malformed => exact ⟨rfl, h⟩
  | set key val o =>
    have halive : alive now (st key) = alive now (st' key) := congrFun h key
    obtain ⟨hres, hst⟩ := await_expel (.set now key val o.nx o.xx (expireAt now o.ttlMs)) h
      (by simp only [ShardTask.set, halive])
    exact ⟨congrArg rows hres, hst⟩
  | del =>
    obtain ⟨hres, hst⟩ := delAll_expel h htouched 0
    exact ⟨congrArg (fun deleted => (⟨.ok, deleted % 2 ^ 32⟩ : ApplyResult)) hres, hst⟩
  | expire key ttlMs =>
    obtain ⟨hres, hst⟩ := await_expel (.expire key (expireAt now (some ttlMs))) h
      (by rw [htouched key mem_cons_self])
    exact ⟨congrArg rows hres, hst⟩

/-- **An operation reports the same with and without the keys that have expired**, and leaves the same keys alive. -/
theorem perform_expel {op : Op} (h : st.expel now = st') (hspares : ∀ key ∈ op.touched, alive now (st key) = st key) :
    (st.perform now op).2 = (st'.perform now op).2 ∧
      (st.perform now op).1.expel now = (st'.perform now op).1.expel now := by
  have hsame : st.expel now = st'.expel now := by rw [← h, expel_expel (UInt64.le_refl now)]
  cases op with
  | get key =>
    have halive : alive now (st key) = alive now (st' key) := congrFun hsame key
    obtain ⟨hres, hst⟩ := await_expel (.get now key) hsame (by simp only [ShardTask.get, halive])
    exact ⟨congrArg Outcome.found hres, hst⟩
  | entry command =>
    have htouched : ∀ key ∈ (parseCommand command).touched, st key = st' key := by
      intro key hkey
      rw [← hspares key hkey, ← h]
      rfl
    obtain ⟨hres, hst⟩ := apply_expel hsame htouched
    exact ⟨congrArg Outcome.applied hres, hst⟩

end Store

lemma KvStateMachine.perform_refines (s : KvStateMachine n) (now : UInt64) (op : Op) :
    (s.perform now op).1.lookup = (Store.perform s.lookup now op).1 ∧
    (s.perform now op).2 = (Store.perform s.lookup now op).2 := by
  cases op with
  | entry command =>
    obtain ⟨hl, hr⟩ := s.applyLogEntry_refines now command
    exact ⟨hl, congrArg Outcome.applied hr⟩
  | get key =>
    obtain ⟨hl, hr⟩ := s.lookup_await (.get now key)
    exact ⟨hl, congrArg Outcome.found hr⟩

abbrev KvStateMachine.after (s : KvStateMachine n) (ops : List (UInt64 × Op)) : KvStateMachine n :=
  Run.run (fun s e => (s.perform e.1 e.2).1) s ops

lemma outcomes_eq_eager {s : KvStateMachine n} {st : Store} {ops : List (UInt64 × Op)} {t : UInt64}
    (hsim : Store.expel t s.lookup = st.expel t) (hclock : (t :: ops.map Prod.fst).Pairwise (· ≤ ·))
    (hspares : Run.along (fun s e => (s.perform e.1 e.2).1) spares s ops) : s.outcomes ops = st.eagerOutcomes ops := by
  induction ops generalizing s st t with
  | nil => rfl
  | cons e _ ih =>
    obtain ⟨now, op⟩ := e
    rw [pairwise_cons] at hclock
    obtain ⟨hle, hlater⟩ := hclock
    have hnow : t ≤ now := hle now mem_cons_self
    obtain ⟨hfirst, hrest⟩ := Bool.and_eq_true_iff.1 hspares
    have hsim' : Store.expel now s.lookup = st.expel now := by
      rw [← Store.expel_expel hnow, hsim, Store.expel_expel hnow]
    have htouched : ∀ key ∈ op.touched, alive now (s.lookup key) = s.lookup key := by
      intro key hkey
      have := all_eq_true.1 hfirst key hkey
      cases hv : s.lookup key with
      | none => rfl
      | some =>
        rw [hv] at this
        rw [alive_some, if_neg (by simpa using this)]
    obtain ⟨hl, hr⟩ := s.perform_refines now op
    obtain ⟨hres, hst⟩ := Store.perform_expel hsim' htouched
    rw [KvStateMachine.outcomes, hr]
    congr 1
    exact ih (by rw [hl, hst]) hlater hrest

/-- **What has expired is absent.** -/
theorem expired_is_absent (s : KvStateMachine n) (ops : List (UInt64 × Op))
    (hclock : (ops.map Prod.fst).Pairwise (· ≤ ·))
    (hspares : Run.along (fun s e => (s.perform e.1 e.2).1) spares s ops) :
    s.outcomes ops = Store.eagerOutcomes s.lookup ops := by
  have hzero : (0 :: ops.map Prod.fst).Pairwise (· ≤ ·) :=
    pairwise_cons.2 ⟨fun _ _ => UInt64.zero_le, hclock⟩
  exact outcomes_eq_eager rfl hzero hspares

end Expired

def delText (key : Char) : Str := encodeRespArray [ascii ['D', 'E', 'L'], ascii [key]]

def expireText (key : Char) (seconds : List Char) : Str :=
  encodeRespArray [ascii ['E', 'X', 'P', 'I', 'R', 'E'], ascii [key], ascii seconds]

theorem expired_is_absent_read :
    let ops : List (UInt64 × Op) := [(1000, .entry (setText 'k' 'v' [ascii ['P', 'X'], ascii ['9']])),
      (1005, .entry (expireText 'k' ['1'])), (2005, .get (ascii ['k'])), (2006, .entry (delText 'k'))]
    (KvStateMachine.empty : KvStateMachine 1).outcomes ops = Store.eagerOutcomes (fun _ => none) ops :=
  expired_is_absent KvStateMachine.empty _ (by decide +kernel) (by decide +kernel)

/-- A key that has expired is deleted as if it were there, and EXPIRE brings it back. -/
theorem expired_is_found :
    let set : UInt64 × Op := (1000, .entry (setText 'k' 'v' [ascii ['P', 'X'], ascii ['9']]))
    let deleted : List (UInt64 × Op) := [set, (2000, .entry (delText 'k'))]
    let revived : List (UInt64 × Op) := [set, (2000, .entry (expireText 'k' ['9'])), (2001, .get (ascii ['k']))]
    (KvStateMachine.empty : KvStateMachine 1).outcomes deleted = [.applied ⟨.ok, 1⟩, .applied ⟨.ok, 1⟩] ∧
    Store.eagerOutcomes (fun _ => none) deleted = [.applied ⟨.ok, 1⟩, .applied ⟨.ok, 0⟩] ∧
    (KvStateMachine.empty : KvStateMachine 1).outcomes revived =
      [.applied ⟨.ok, 1⟩, .applied ⟨.ok, 1⟩, .found (some ⟨ascii ['v'], 11000⟩)] ∧
    Store.eagerOutcomes (fun _ => none) revived = [.applied ⟨.ok, 1⟩, .applied ⟨.ok, 0⟩, .found none] := by
  decide +kernel

/-! ## A SET without expiry time -/

def KvCommand.writes (k : Str) : KvCommand → Bool
  | .malformed => false
  | .set key _ _ => key = k
  | .del keys => keys.contains k
  | .expire key _ => key = k

def Op.writes (k : Str) : Op → Bool
  | .entry command => (parseCommand command).writes k
  | .get _ => false

section Lasts
variable [Platform] {n : ℕ} [NeZero n]

lemma ShardTask.set_applied {now : UInt64} {key val : Str} {nx xx : Bool} {expireAtMs : UInt64} {v : Option PrimeValue}
    (h : ((ShardTask.set now key val nx xx expireAtMs).cell v).2 = true) :
    ((ShardTask.set now key val nx xx expireAtMs).cell v).1 =
      some ⟨val, if 0 < expireAtMs then expireAtMs else ((alive now v).getD {}).expireMs⟩ := by
  simp only [ShardTask.set] at h ⊢
  split_ifs at h ⊢
  all_goals rfl

lemma Store.apply_other {st : Store} {now : UInt64} {c : KvCommand} {k : Str} (h : c.writes k = false) :
    (st.apply now c).1 k = st k := by
  cases c with
  | malformed => rfl
  | set => exact update_of_ne (by simpa [KvCommand.writes, eq_comm] using h) _ _
  | del keys =>
    rw [show (st.apply now (.del keys)).1 k = _ from Store.delAll_fst st 0 keys k, if_neg]
    simpa [KvCommand.writes] using h
  | expire => exact update_of_ne (by simpa [KvCommand.writes, eq_comm] using h) _ _

lemma KvStateMachine.perform_keeps {s : KvStateMachine n} {k val : Str} (h : s.lookup k = some ⟨val, 0⟩)
    {e : UInt64 × Op}
    (he : e.2.writes k = false) : (s.perform e.1 e.2).1.lookup k = some ⟨val, 0⟩ := by
  obtain ⟨now, op⟩ := e
  rw [(s.perform_refines now op).1]
  cases op with
  | entry => exact (Store.apply_other he).trans h
  | get key =>
    show Function.update s.lookup key (alive now (s.lookup key)) k = _
    by_cases hk : k = key
    · subst hk
      rw [update_self, h]
      rfl
    · rw [update_of_ne hk, h]

/-- **A SET without expiry time lasts.** -/
theorem plain_set_lasts (s : KvStateMachine n) (now : UInt64) (command key val : Str) (o : SetOptions)
    (hc : parseCommand command = .set key val o) (hplain : o.ttlMs = none)
    (happlied : (s.applyLogEntry now command).2.affectedRows = 1)
    (hold : ∀ v, alive now (s.lookup key) = some v → v.expireMs = 0) (ops : List (UInt64 × Op))
    (hops : ∀ e ∈ ops, e.2.writes key = false) (t : UInt64) :
    (((s.applyLogEntry now command).1.after ops).get t key).2 = some ⟨val, 0⟩ := by
  have hset : (s.applyLogEntry now command).1.lookup key = some ⟨val, 0⟩ := by
    rw [KvStateMachine.applyLogEntry, hc] at happlied ⊢
    obtain ⟨hl, hb⟩ := s.lookup_await (.set now key val o.nx o.xx (expireAt now o.ttlMs))
    have htrue := hb.symm.trans (rows_eq_one.1 happlied)
    show (s.await (.set now key val o.nx o.xx (expireAt now o.ttlMs))).1.lookup key = _
    rw [hl, update_self, ShardTask.set_applied htrue, hplain, show expireAt now none = 0 from rfl,
      if_neg (UInt64.lt_irrefl 0)]
    cases hv : alive now (s.lookup key) with
    | none => rfl
    | some v => rw [getD_some, hold v hv]
  have hkept : ((s.applyLogEntry now command).1.after ops).lookup key = some ⟨val, 0⟩ := by
    generalize (s.applyLogEntry now command).1 = s' at hset
    induction ops generalizing s' with
    | nil => exact hset
    | cons e _ ih =>
      exact ih (fun x hx => hops x (mem_cons_of_mem e hx)) _
        (KvStateMachine.perform_keeps hset (hops e mem_cons_self))
  rw [KvStateMachine.get, (KvStateMachine.lookup_await _ _).2, hkept]
  rfl

end Lasts

theorem plain_set_lasts_k :
    (((((KvStateMachine.empty : KvStateMachine 1).applyLogEntry 1000 (setText 'k' 'v' [])).1.after
      [(1500, .entry (delText 'j')), (1600, .get (ascii ['k']))]).get 5000 (ascii ['k']))).2 = some ⟨ascii ['v'], 0⟩ :=
  plain_set_lasts KvStateMachine.empty 1000 _ _ _ {} (by decide +kernel) rfl (by decide +kernel) (by rintro v ⟨⟩)
    _ (by decide +kernel) 5000

/-- SET k v PX 500, and then SET k w: the second value disappears with the first expiry time. -/
theorem plain_set_expires :
    let first := ((KvStateMachine.empty : KvStateMachine 1).applyLogEntry 1000
      (setText 'k' 'v' [ascii ['P', 'X'], ascii ['5', '0', '0']])).1
    let second := first.applyLogEntry 1100 (setText 'k' 'w' [])
    second.2.affectedRows = 1 ∧ (second.1.get 1499 (ascii ['k'])).2 = some ⟨ascii ['w'], 1500⟩ ∧
      (second.1.get 1500 (ascii ['k'])).2 = none := by
  decide +kernel

/-! ## Times to live -/

def ttlOf (unit : ℕ) (s : Str) : Option ℕ :=
  match simpleAtoi s with
  | none => none
  | some ttl => if ttl < 0 then none else some (ttl.toNat * unit)

def setTtl (ttl : Option ℕ) : List Str → Option ℕ
  | [] => ttl
  | [_] => ttl
  | opt :: arg :: rest =>
    if opt = ascii ['N', 'X'] ∨ opt = ascii ['X', 'X'] then setTtl ttl (arg :: rest)
    else if opt = ascii ['E', 'X'] then setTtl (ttlOf 1000 arg) rest
    else if opt = ascii ['P', 'X'] then setTtl (ttlOf 1 arg) rest
    else setTtl ttl (arg :: rest)

def timeToLive : List Str → Option (Str × ℕ)
  | name :: key :: args =>
    if name = ascii ['S', 'E', 'T'] then (setTtl none (args.drop 1)).map (key, ·)
    else if name = ascii ['E', 'X', 'P', 'I', 'R', 'E'] then (args.head?.bind (ttlOf 1000)).map (key, ·)
    else none
  | _ => none

lemma parseTtl_eq (unit : ℕ) (s : Str) : parseTtl (.ofNat unit) s = (ttlOf unit s).map UInt64.ofNat := by
  unfold parseTtl ttlOf
  cases simpleAtoi s with
  | none => rfl
  | some =>
    dsimp only
    split_ifs
    · rfl
    · rw [map_some, UInt64.ofNat_mul]

lemma setOptions_ttl {o o' : SetOptions} {ttl : Option ℕ} {opts : List Str} (h : setOptions o opts = some o')
    (ho : o.ttlMs = ttl.map UInt64.ofNat) : o'.ttlMs = (setTtl ttl opts).map UInt64.ofNat := by
  have hex : ∀ arg, parseTtl 1000 arg = (ttlOf 1000 arg).map UInt64.ofNat := parseTtl_eq 1000
  have hpx : ∀ arg, parseTtl 1 arg = (ttlOf 1 arg).map UInt64.ofNat := parseTtl_eq 1
  fun_induction setOptions o opts generalizing ttl with
  | case1 | case2 | case3 | case4 => cases h; exact ho
  | case5 _ _ _ ih => rw [setTtl, if_pos (Or.inl rfl)]; exact ih h ho
  | case6 _ _ _ _ ih => rw [setTtl, if_pos (Or.inr rfl)]; exact ih h ho
  | case7 | case9 => cases h
  | case8 _ _ _ _ hparse _ _ ih =>
    rw [setTtl, if_neg (by decide), if_pos rfl]
    exact ih h (by rw [← hex, hparse])
  | case10 _ _ _ _ hparse _ _ _ ih =>
    rw [setTtl, if_neg (by decide), if_neg (by decide), if_pos rfl]
    exact ih h (by rw [← hpx, hparse])
  | case11 _ _ _ _ hnx hxx hex' hpx' ih =>
    rw [setTtl, if_neg (not_or.2 ⟨hnx, hxx⟩), if_neg hex', if_neg hpx']
    exact ih h ho

section Deadlines
variable [Platform] {n : ℕ} [NeZero n] {s : KvStateMachine n}

structure SetsTtl (s : KvStateMachine n) (now : UInt64) (key : Str) (ttl : ℕ) (command : Str) : Prop where
  asks : (commandArgs command).bind timeToLive = some (key, ttl)
  applied : (s.applyLogEntry now command).2.affectedRows = 1

lemma SetsTtl.lookup {now : UInt64} {key command : Str} {ttl : ℕ}
    (h : SetsTtl s now key ttl command) (hpos : 0 < now + UInt64.ofNat ttl) :
    ∃ val, (s.applyLogEntry now command).1.lookup key = some ⟨val, now + UInt64.ofNat ttl⟩ := by
  obtain ⟨hasks, happlied⟩ := h
  obtain ⟨args, hargs, httl⟩ := bind_eq_some_iff.1 hasks
  have hparse : parseCommand command = parseArgs args := by rw [parseCommand, hargs]
  rw [KvStateMachine.applyLogEntry, hparse] at happlied ⊢
  unfold timeToLive at httl
  split at httl
  · rename_i name key' args
    split_ifs at httl with hset hexpire
    · subst hset
      obtain ⟨ttl', hopts, heq⟩ := map_eq_some_iff.1 httl
      cases heq
      rcases parseArgs_set (key :: args) with hmal | ⟨_, val, opts, o, hcons, ho, hcmd⟩
      · rw [hmal] at happlied
        cases happlied
      · cases hcons
        have hms : o.ttlMs = some (UInt64.ofNat ttl) := by
          have hnone : ({} : SetOptions).ttlMs = (none : Option ℕ).map UInt64.ofNat := rfl
          rw [setOptions_ttl ho hnone, show setTtl none opts = some ttl from hopts]
          rfl
        rw [hcmd] at happlied ⊢
        obtain ⟨hl, hb⟩ := s.lookup_await (.set now key val o.nx o.xx (expireAt now o.ttlMs))
        have htrue := hb.symm.trans (rows_eq_one.1 happlied)
        refine ⟨val, ?_⟩
        show (s.await (.set now key val o.nx o.xx (expireAt now o.ttlMs))).1.lookup key = _
        rw [hl, update_self, ShardTask.set_applied htrue, hms]
        exact congrArg (fun e => some (PrimeValue.mk val e)) (if_pos hpos)
    · subst hexpire
      obtain ⟨ttl', harg, heq⟩ := map_eq_some_iff.1 httl
      cases heq
      obtain ⟨seconds, hhead, hsec⟩ := bind_eq_some_iff.1 harg
      obtain ⟨rest, rfl⟩ := head?_eq_some_iff.1 hhead
      have hms : parseTtl 1000 seconds = some (UInt64.ofNat ttl) := by
        rw [show parseTtl 1000 seconds = _ from parseTtl_eq 1000 seconds, hsec]
        rfl
      rw [parseArgs_expire, hms] at happlied ⊢
      obtain ⟨hl, hb⟩ := s.lookup_await (.expire key (expireAt now (some (UInt64.ofNat ttl))))
      have htrue := hb.symm.trans (rows_eq_one.1 happlied)
      obtain ⟨v, hv⟩ := isSome_iff_exists.1 htrue
      refine ⟨v.value, ?_⟩
      show (s.await (.expire key (expireAt now (some (UInt64.ofNat ttl))))).1.lookup key = _
      rw [hl, update_self, hv]
      rfl
  · cases httl

lemma KvStateMachine.get_eq_none {key val : Str} {deadline : UInt64} (hpos : 0 < deadline)
    (h : s.lookup key = some ⟨val, deadline⟩) (t : UInt64) : (s.get t key).2 = none ↔ deadline ≤ t := by
  rw [KvStateMachine.get, (s.lookup_await _).2, h]
  show alive t (some ⟨val, deadline⟩) = none ↔ _
  rw [alive_some]
  have hne : deadline ≠ 0 := UInt64.pos_iff_ne_zero.1 hpos
  by_cases ht : deadline ≤ t
  · simp [PrimeValue.expired, ht, hne]
  · simp [PrimeValue.expired, ht]

end Deadlines

def seconds (digits : List Char) : Str := setText 'k' 'v' [ascii ['E', 'X'], ascii digits]

end MaxRedis.Kv

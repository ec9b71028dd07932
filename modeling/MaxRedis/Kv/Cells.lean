/-
Commands on a store in which nothing expires.

As long as no expiry time is reached, the clock does not matter, and of a key only the value and whether there is an
expiry time are of interest (`Cell`).
-/
import MaxRedis.Kv.StateMachine

namespace MaxRedis.Kv

variable {st : Store}

open Option

abbrev Cell := Option (Str × Bool)

def Store.cells (st : Store) (k : Str) : Cell := (st k).map (fun v => (v.value, decide (v.expireMs ≠ 0)))

namespace KvCommand

def act (k : Str) : KvCommand → Cell → Cell
  | .malformed, x => x
  | .set key val o, x =>
    if k ≠ key then x
    else if o.nx ∧ x.isSome then x
    else if o.xx ∧ x.isNone then some ([], false)
    else some (val, o.ttlMs.isSome || x.any Prod.snd)
  | .del keys, x => if k ∈ keys then none else x
  | .expire key _, x => if k = key then x.map (fun p => (p.1, true)) else x

def ttl : KvCommand → Option UInt64
  | .set _ _ o => o.ttlMs
  | .expire _ ttlMs => some ttlMs
  | _ => none

def lasts (last now : UInt64) (c : KvCommand) : Bool :=
  c.ttl.all (fun ttl => last.toNat < now.toNat + ttl.toNat ∧ last.toNat + ttl.toNat < 2 ^ 64)

lemma lasts_mono {last now later : UInt64} (hle : now ≤ later) {c : KvCommand} (h : c.lasts last now) :
    c.lasts last later := by
  unfold lasts at h ⊢
  cases httl : c.ttl with
  | none => rfl
  | some =>
    rw [httl] at h
    simp only [all_some, decide_eq_true_eq] at h ⊢
    have := UInt64.le_iff_toNat_le.1 hle
    omega

end KvCommand

/-! ## Nothing expires -/

def Lasting (last : UInt64) (st : Store) : Prop := ∀ k v, st k = some v → v.expireMs = 0 ∨ last < v.expireMs

lemma Lasting.alive {last now : UInt64} (h : Lasting last st) (hnow : now ≤ last) (k : Str) :
    alive now (st k) = st k := by
  cases hk : st k with
  | none => rfl
  | some v =>
    rw [alive_some, if_neg]
    simp only [PrimeValue.expired, decide_eq_true_eq, not_and, UInt64.not_le]
    intro hne
    exact UInt64.lt_of_le_of_lt hnow ((h k v hk).resolve_left hne)

lemma Lasting.update {last : UInt64} (h : Lasting last st) {key : Str} {x : Option PrimeValue}
    (hx : ∀ v, x = some v → v.expireMs = 0 ∨ last < v.expireMs) : Lasting last (Function.update st key x) := by
  intro k v hk
  by_cases hkey : k = key
  · subst hkey
    rw [Function.update_self] at hk
    exact hx v hk
  · rw [Function.update_of_ne hkey] at hk
    exact h k v hk

lemma expireAt_lasts {last now ttl : UInt64} (hnow : now ≤ last)
    (h : last.toNat < now.toNat + ttl.toNat ∧ last.toNat + ttl.toNat < 2 ^ 64) : last < expireAt now (some ttl) := by
  have hle := UInt64.le_iff_toNat_le.1 hnow
  show last < now + ttl
  rw [UInt64.lt_iff_toNat_lt, UInt64.toNat_add, Nat.mod_eq_of_lt (by omega)]
  exact h.1

lemma ne_zero_of_lt {a b : UInt64} (h : a < b) : b ≠ 0 := by
  rintro rfl
  exact absurd (UInt64.lt_iff_toNat_lt.1 h) (Nat.not_lt_zero _)

namespace Store

lemma delAll_fst (st : Store) (deleted : ℕ) (keys : List Str) (k : Str) :
    (Store.delAll st deleted keys).1 k = if k ∈ keys then none else st k := by
  induction keys generalizing st deleted with
  | nil => simp [Store.delAll]
  | cons key _ ih =>
    rw [Store.delAll, ih]
    by_cases hk : k = key
    · subst hk
      simp
    · simp [hk]

lemma cells_update {st : Store} {key : Str} {x : Option PrimeValue} {f : Str → Cell → Cell}
    (hother : ∀ k, k ≠ key → f k (st.cells k) = st.cells k)
    (hkey : x.map (fun v => (v.value, decide (v.expireMs ≠ 0))) = f key (st.cells key)) :
    Store.cells (Function.update st key x) = fun k => f k (st.cells k) := by
  funext k
  by_cases hk : k = key
  · subst hk
    rw [cells, Function.update_self, hkey]
  · rw [cells, Function.update_of_ne hk, hother k hk]
    rfl

variable [Platform] {last now : UInt64}

lemma set_cells {v : Option PrimeValue} (hv : alive now v = v)
    (hlast : ∀ w, v = some w → w.expireMs = 0 ∨ last < w.expireMs) (key val : Str) (o : SetOptions)
    {expireAtMs : UInt64} (hat : expireAtMs = 0 ∧ o.ttlMs.isSome = false ∨ last < expireAtMs ∧ o.ttlMs.isSome = true) :
    let out := ((ShardTask.set now key val o.nx o.xx expireAtMs).cell v).1
    (∀ w, out = some w → w.expireMs = 0 ∨ last < w.expireMs) ∧
    out.map (fun v => (v.value, decide (v.expireMs ≠ 0))) =
      (KvCommand.set key val o).act key (v.map (fun v => (v.value, decide (v.expireMs ≠ 0)))) := by
  have hnew : ∀ old : PrimeValue, (old.expireMs = 0 ∨ last < old.expireMs) →
      let at' := if 0 < expireAtMs then expireAtMs else old.expireMs
      (at' = 0 ∨ last < at') ∧ decide (at' ≠ 0) = (o.ttlMs.isSome || decide (old.expireMs ≠ 0)) := by
    intro old hold
    rcases hat with ⟨rfl, httl⟩ | ⟨hlt, httl⟩
    · simpa [httl] using hold
    · have hpos : 0 < expireAtMs := UInt64.pos_iff_ne_zero.2 (ne_zero_of_lt hlt)
      simp only [if_pos hpos, httl, Bool.true_or, decide_eq_true_eq]
      exact ⟨Or.inr hlt, ne_zero_of_lt hlt⟩
  simp only [ShardTask.set, hv, KvCommand.act]
  cases v with
  | none =>
    obtain ⟨hfresh, hcell⟩ := hnew {} (Or.inl rfl)
    cases o.xx with
    | true => simp
    | false =>
      simp only [isSome_none, Bool.false_eq_true, and_false]
      refine ⟨?_, ?_⟩
      · rintro w hw
        cases hw
        exact hfresh
      · simpa using hcell
  | some old =>
    obtain ⟨hfresh, hcell⟩ := hnew old (hlast old rfl)
    cases o.nx with
    | true => simpa using hlast old rfl
    | false =>
      simp only [isNone_some, Bool.false_eq_true, and_false]
      refine ⟨?_, ?_⟩
      · rintro w hw
        cases hw
        exact hfresh
      · simpa using hcell

theorem cells_apply {st : Store} {c : KvCommand} (h : Lasting last st) (hnow : now ≤ last) (hc : c.lasts last now) :
    Lasting last (Store.apply st now c).1 ∧ Store.cells (Store.apply st now c).1 = fun k => c.act k (st.cells k) := by
  cases c with
  | malformed => exact ⟨h, rfl⟩
  | set key val o =>
    have hat : expireAt now o.ttlMs = 0 ∧ o.ttlMs.isSome = false ∨ last < expireAt now o.ttlMs ∧
      o.ttlMs.isSome = true := by
      cases httl : o.ttlMs with
      | none => exact Or.inl ⟨rfl, rfl⟩
      | some =>
        simp only [KvCommand.lasts, KvCommand.ttl, httl, all_some, decide_eq_true_eq] at hc
        exact Or.inr ⟨expireAt_lasts hnow hc, rfl⟩
    obtain ⟨hlasting, hcell⟩ := set_cells (h.alive hnow key) (h key) key val o hat
    refine ⟨h.update hlasting, cells_update ?_ hcell⟩
    intro k hk
    rw [KvCommand.act, if_pos hk]
  | del keys =>
    constructor
    · intro k v hk
      rw [show (Store.apply st now (.del keys)).1 k = _ from delAll_fst st 0 keys k] at hk
      split_ifs at hk
      exact h k v hk
    · funext k
      rw [cells, show (Store.apply st now (.del keys)).1 k = _ from delAll_fst st 0 keys k, KvCommand.act]
      split_ifs <;> rfl
  | expire =>
    simp only [KvCommand.lasts, KvCommand.ttl, all_some, decide_eq_true_eq] at hc
    have hlt := expireAt_lasts hnow hc
    refine ⟨h.update ?_, cells_update ?_ ?_⟩
    · rintro v hv
      obtain ⟨w, -, rfl⟩ := map_eq_some_iff.1 hv
      exact Or.inr hlt
    · intro k hk
      rw [KvCommand.act, if_neg hk]
    · rw [KvCommand.act, if_pos rfl, cells, ShardTask.expire, map_map, map_map]
      congr 1
      funext v
      simp [ne_zero_of_lt hlt]

end Store

/-! ## Once more -/

/-- what a recorded command may do: SET and DEL are recorded, those that the state machine refuses too -/
def KvCommand.recorded : KvCommand → Bool
  | .expire _ _ => false
  | _ => true

def KvCommand.misses (st : Store) : KvCommand → Bool
  | .set key _ o => o.xx && (st key).isNone
  | _ => false

def KvCommand.givesExpiry (st : Store) : KvCommand → Bool
  | .expire key _ => (st key).any (fun v => v.expireMs = 0)
  | _ => false

lemma KvCommand.act_of_not_recorded {c : KvCommand} (hrec : c = .malformed ∨ c.recorded = false)
    (hexpiry : c.givesExpiry st = false) (k : Str) : c.act k (st.cells k) = st.cells k := by
  cases c with
  | malformed => rfl
  | set | del => simp [recorded] at hrec
  | expire =>
    rw [act]
    split_ifs with hk
    · subst hk
      unfold Store.cells
      cases hv : st k with
      | none => rfl
      | some v =>
        rw [givesExpiry, hv] at hexpiry
        have hne : v.expireMs ≠ 0 := by simpa using hexpiry
        simp [hne]
    · rfl

def Cell.replay (cs : List KvCommand) (k : Str) (x : Cell) : Cell := cs.foldl (fun x c => c.act k x) x

lemma Cell.replay_append (cs ds : List KvCommand) (k : Str) (x : Cell) :
    Cell.replay (cs ++ ds) k x = Cell.replay ds k (Cell.replay cs k x) :=
  List.foldl_append

section Replay
variable {cs : List KvCommand} {c : KvCommand} {k : Str} {x y : Cell}

lemma KvCommand.act_isSome (h : x.isSome = y.isSome) : (c.act k x).isSome = (c.act k y).isSome := by
  have hnone : x.isNone = y.isNone := by rw [← not_isSome, h, not_isSome]
  cases c with
  | malformed => exact h
  | set =>
    simp only [act, h, hnone]
    split_ifs
    · exact h
    · exact h
    · rfl
    · rfl
  | del =>
    simp only [act]
    split_ifs
    · rfl
    · exact h
  | expire =>
    simp only [act]
    split_ifs
    · simpa using h
    · exact h

lemma KvCommand.act_expiry (h : x.map Prod.snd = y.map Prod.snd) :
    (c.act k x).map Prod.snd = (c.act k y).map Prod.snd := by
  cases x with
  | none =>
    cases y with
    | none => rfl
    | some => cases h
  | some x =>
    cases y with
    | none => cases h
    | some y =>
      have hsnd : x.2 = y.2 := some.inj h
      cases c with
      | malformed => exact h
      | set =>
        simp only [act, isSome_some, isNone_some]
        split_ifs <;> simp [hsnd]
      | del | expire =>
        simp only [act]
        split_ifs <;> simp [hsnd]

lemma Cell.replay_isSome (h : x.isSome = y.isSome) : (Cell.replay cs k x).isSome = (Cell.replay cs k y).isSome := by
  induction cs generalizing x y with
  | nil => exact h
  | cons _ _ ih => exact ih (KvCommand.act_isSome h)

lemma Cell.replay_expiry (h : x.map Prod.snd = y.map Prod.snd) :
    (Cell.replay cs k x).map Prod.snd = (Cell.replay cs k y).map Prod.snd := by
  induction cs generalizing x y with
  | nil => exact h
  | cons _ _ ih => exact ih (KvCommand.act_expiry h)

lemma KvCommand.act_none (hc : c.recorded) (h : c.act k x = none) : (∀ y, c.act k y = y) ∨ ∀ y, c.act k y = none := by
  cases c with
  | malformed => exact Or.inl (fun _ => rfl)
  | expire => cases hc
  | del keys =>
    by_cases hk : k ∈ keys
    · exact Or.inr (fun y => if_pos hk)
    · exact Or.inl (fun y => if_neg hk)
  | set key =>
    by_cases hk : k = key
    · simp only [act] at h
      split_ifs at h with h1 h2 h3
      · exact absurd hk h1
      · rw [h] at h2
        exact absurd h2.2 (by simp)
    · exact Or.inl (fun y => if_pos hk)

lemma Cell.replay_none (hcs : ∀ c ∈ cs, c.recorded) (h : Cell.replay cs k none = none) :
    (∀ y, Cell.replay cs k y = y) ∨ ∀ y, Cell.replay cs k y = none := by
  induction cs using List.reverseRecOn with
  | nil => exact Or.inl (fun _ => rfl)
  | append_singleton cs c ih =>
    have hlast : ∀ y, Cell.replay (cs ++ [c]) k y = c.act k (Cell.replay cs k y) :=
      fun y => Cell.replay_append cs [c] k y
    rw [hlast] at h
    rcases KvCommand.act_none (hcs c (by simp)) h with hid | hdel
    · rw [hid] at h
      simp only [hlast, hid]
      exact ih (fun d hd => hcs d (by simp [hd])) h
    · exact Or.inr (fun y => by rw [hlast, hdel])

/-- **The recorded commands leave the store as it is.** -/
theorem Cell.replay_act (hcs : ∀ c ∈ cs, c.recorded) (hc : c.recorded) (hx : Cell.replay cs k x = x)
    (hxx : ∀ val o, c = .set k val o → o.xx → x.isSome) : Cell.replay (cs ++ [c]) k (c.act k x) = c.act k x := by
  rw [Cell.replay_append]
  show c.act k (Cell.replay cs k (c.act k x)) = c.act k x
  cases c with
  | malformed => exact hx
  | expire => cases hc
  | del keys =>
    by_cases hk : k ∈ keys
    · simp only [KvCommand.act, if_pos hk]
    · simp only [KvCommand.act, if_neg hk, hx]
  | set key val o =>
    by_cases hk : k ≠ key
    · simp only [KvCommand.act, if_pos hk, hx]
    · obtain rfl := not_not.1 hk
      cases x with
      | none =>
        -- the others leave a missing key alone, or delete it
        have hnoxx : o.xx = false := by
          by_contra h
          exact absurd (hxx val o rfl (by simpa using h)) (by simp)
        have hact : (KvCommand.set k val o).act k none = some (val, o.ttlMs.isSome) := by simp [KvCommand.act, hnoxx]
        rcases Cell.replay_none hcs hx with hid | hdel
        · rw [hid]
          simp only [KvCommand.act]
          split_ifs <;> simp_all
        · rw [hdel, hact]
      | some p =>
        by_cases hnx : o.nx = true
        · have hact : (KvCommand.set k val o).act k (some p) = some p := by simp [KvCommand.act, hnx]
          rw [hact, hx, hact]
        · -- the key is there again, with an expiry time if it had one
          have hact : ∀ q, (KvCommand.set k val o).act k (some q) = some (val, o.ttlMs.isSome || q.2) := by
            intro q
            simp [KvCommand.act, hnx]
          rw [hact]
          have hthere : (Cell.replay cs k (some (val, o.ttlMs.isSome || p.2))).isSome =
            (Cell.replay cs k (some p)).isSome :=
            Cell.replay_isSome rfl
          rw [hx] at hthere
          obtain ⟨q, hq⟩ := isSome_iff_exists.1 hthere
          rw [hq, hact]
          cases httl : o.ttlMs.isSome with
          | true => rfl
          | false =>
            have hexp : (Cell.replay cs k (some (val, p.2))).map Prod.snd = (Cell.replay cs k (some p)).map Prod.snd :=
              Cell.replay_expiry rfl
            rw [httl, Bool.false_or] at hq
            rw [hq, hx] at hexp
            rw [Bool.false_or, Bool.false_or, some.inj hexp]

end Replay

end MaxRedis.Kv

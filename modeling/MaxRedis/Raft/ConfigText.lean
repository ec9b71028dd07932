/-
The text of a configuration entry (`ConfigChangeCommand` in `command_encoder.cc`).

The text is a list of words between single spaces: a name, the version, and the voters and the learners, each behind
their number.
-/
import MaxRedis.Kv.Commands
import MaxRedis.Raft.Types

namespace MaxRedis.Raft

open Kv List Option

/-! ## Numbers -/

/-- what `strtoull` reads: spaces, a sign and digits. `none` if there is no digit. -/
def signedDigits (s : Str) : Option (Bool × ℕ) :=
  let s := s.dropWhile isSpace
  let negative : Bool := s.head? = some 45
  let digits := (if negative ∨ s.head? = some 43 then s.tail else s).takeWhile isDigit
  if digits = [] then none else some (negative, digitsValue digits)

def applySign (negative : Bool) (value : ℕ) : ℕ := if negative then (2 ^ 64 - value) % 2 ^ 64 else value

/-- `std::stoull`, and `std::stoul` where it has 64 bits; `none` if it throws -/
def stoull (s : Str) : Option ℕ :=
  match signedDigits s with
  | none => none
  | some (negative, value) => if value < 2 ^ 64 then some (applySign negative value) else none

lemma signedDigits_toDecimal (n : ℕ) {rest : Str} (hrest : ∀ c ∈ rest.head?, isDigit c = false) :
    signedDigits (toDecimal n ++ rest) = some (false, n) := by
  have hdigits : ∀ c ∈ toDecimal n, isDigit c := fun c hc => isDigit_of_mem_toDecimal hc
  have htake : (toDecimal n ++ rest).takeWhile isDigit = toDecimal n := by
    rw [takeWhile_append_of_pos hdigits]
    cases rest with
    | nil => simp
    | cons c => rw [takeWhile_cons_of_neg (by simp [hrest c rfl]), append_nil]
  have hvalue := digitsValue_toDecimal n
  have hne := toDecimal_ne_nil n
  cases hs : toDecimal n with
  | nil => exact absurd hs hne
  | cons c cs =>
    rw [hs] at hdigits htake hvalue
    have hc := hdigits c mem_cons_self
    rw [cons_append] at htake ⊢
    have hspace : (c :: (cs ++ rest)).dropWhile isSpace = c :: (cs ++ rest) :=
      dropWhile_cons_of_neg (by simp [isSpace_of_isDigit hc])
    have hminus : c ≠ 45 := by rintro rfl; exact absurd hc (by decide)
    have hplus : c ≠ 43 := by rintro rfl; exact absurd hc (by decide)
    simp only [signedDigits, hspace]
    simp [hminus, hplus, htake, hvalue]

lemma stoull_toDecimal {n : ℕ} (h : n < 2 ^ 64) : stoull (toDecimal n) = some n := by
  have hparts := @signedDigits_toDecimal n [] (by simp)
  rw [append_nil] at hparts
  rw [stoull, hparts]
  exact if_pos h

/-! ## The text -/

namespace ConfigChangeCommand

def serialize (target : ClusterConfig Str) : Str :=
  ascii "CONFIG_CHANGE ".toList ++ toDecimal target.version ++
    32 :: toDecimal target.voters.ids.length ++ target.voters.ids.flatMap (fun v => 32 :: v) ++
    32 :: toDecimal target.learners.ids.length ++ target.learners.ids.flatMap (fun l => 32 :: l)

def nextToken (s : Str) : Str × Str := (s.takeWhile (· ≠ 32), (s.dropWhile (· ≠ 32)).drop 1)

def insertTokens : ℕ → Str → IdSet Str → IdSet Str × Str
  | 0, s, ids => (ids, s)
  | k + 1, s, ids =>
    let (id, s) := nextToken s
    insertTokens k s (if id = [] then ids else ids.insert id)

def readIds (s : Str) : Option (IdSet Str × Str) :=
  let (num, s) := nextToken s
  if num = [] then some (.empty, s) else (stoull num).map (fun k => insertTokens k s .empty)

def readVersion (s : Str) : Option (ℕ × Str) :=
  let (ver, s) := nextToken s
  if ver = [] then some (0, s) else (stoull ver).map (fun v => (v, s))

def deserialize (data : Str) : Option (ClusterConfig Str) := do
  let (version, s) ← readVersion (nextToken data).2
  let (voters, s) ← readIds s
  let (learners, _) ← readIds s
  return ⟨version, voters, learners⟩

end ConfigChangeCommand

def dispatch (command : Str) : Option (Command Str Str) :=
  if (ascii "CONFIG_CHANGE".toList).isPrefixOf command then
    (ConfigChangeCommand.deserialize command).map .configChange
  else some (.client command)

/-! ## Sets -/

lemma IdSet.foldl_insert_ids {N : Type} [DecidableEq N] {set : IdSet N} {ids : List N}
    (h : (set.ids ++ ids).Nodup) : (ids.foldl IdSet.insert set).ids = set.ids ++ ids := by
  induction ids generalizing set with
  | nil => simp
  | cons id ids ih =>
    have hnew : id ∉ set.ids := by
      intro hmem
      exact disjoint_of_nodup_append h hmem mem_cons_self
    have hinsert : (set.insert id).ids = set.ids ++ [id] := by
      rw [IdSet.insert, dif_neg hnew]
    have hsplit : set.ids ++ id :: ids = (set.insert id).ids ++ ids := by
      rw [hinsert, append_assoc]
      rfl
    rw [hsplit] at h ⊢
    exact ih h

lemma IdSet.foldl_insert_self {N : Type} [DecidableEq N] (set : IdSet N) :
    set.ids.foldl IdSet.insert .empty = set := by
  have hids := @IdSet.foldl_insert_ids N _ .empty set.ids set.nodup
  cases hset : set.ids.foldl IdSet.insert .empty
  cases set
  rw [hset] at hids
  simpa [IdSet.empty] using hids

lemma IdSet.same_self {N : Type} [DecidableEq N] (set : IdSet N) : set.same set = true := by
  simp [IdSet.same, IdSet.count]

/-! ## Reading it back -/

namespace ConfigChangeCommand

def joined : List Str → Str
  | [] => []
  | t :: ts => t ++ ts.flatMap (fun u => 32 :: u)

lemma serialize_eq (c : ClusterConfig Str) :
    serialize c = joined (ascii "CONFIG_CHANGE".toList :: toDecimal c.version :: toDecimal c.voters.ids.length ::
      (c.voters.ids ++ toDecimal c.learners.ids.length :: (c.learners.ids ++ []))) := by
  have hname : ascii "CONFIG_CHANGE ".toList = ascii "CONFIG_CHANGE".toList ++ [32] := by decide +kernel
  rw [serialize, hname]
  simp [joined]

lemma nextToken_joined {t : Str} (ht : 32 ∉ t) (ts : List Str) : nextToken (joined (t :: ts)) = (t, joined ts) := by
  have hword : ∀ c ∈ t, decide (c ≠ 32) = true := by
    intro c hc
    rw [decide_eq_true_eq]
    rintro rfl
    exact ht hc
  rw [nextToken, joined, takeWhile_append_of_pos hword, dropWhile_append_of_pos hword]
  cases ts with
  | nil | cons => simp [joined]

def Plain (id : Str) : Prop := id ≠ [] ∧ 32 ∉ id

lemma insertTokens_joined {ids : List Str} (hids : ∀ id ∈ ids, Plain id) (ts : List Str) (set : IdSet Str) :
    insertTokens ids.length (joined (ids ++ ts)) set = (ids.foldl IdSet.insert set, joined ts) := by
  induction ids generalizing set with
  | nil => rfl
  | cons _ _ ih =>
    obtain ⟨⟨hne, hspace⟩, hothers⟩ := List.forall_mem_cons.1 hids
    rw [cons_append, length_cons, insertTokens, nextToken_joined hspace]
    dsimp only
    rw [if_neg hne, ih hothers, foldl_cons]

lemma space_not_mem_toDecimal (n : ℕ) : 32 ∉ toDecimal n := by
  intro h
  exact absurd (isDigit_of_mem_toDecimal h) (by decide)

lemma readIds_joined {set : IdSet Str} (hset : ∀ id ∈ set.ids, Plain id) (hsize : set.ids.length < 2 ^ 64)
    (ts : List Str) : readIds (joined (toDecimal set.ids.length :: (set.ids ++ ts))) = some (set, joined ts) := by
  rw [readIds, nextToken_joined (space_not_mem_toDecimal _)]
  dsimp only
  rw [if_neg (toDecimal_ne_nil _), stoull_toDecimal hsize, map_some, insertTokens_joined hset,
    IdSet.foldl_insert_self]

lemma readVersion_joined {version : ℕ} (h : version < 2 ^ 64) (ts : List Str) :
    readVersion (joined (toDecimal version :: ts)) = some (version, joined ts) := by
  rw [readVersion, nextToken_joined (space_not_mem_toDecimal _)]
  dsimp only
  rw [if_neg (toDecimal_ne_nil _), stoull_toDecimal h, map_some]

structure Writable (c : ClusterConfig Str) : Prop where
  version : c.version < 2 ^ 64
  voters : c.voters.ids.length < 2 ^ 64
  learners : c.learners.ids.length < 2 ^ 64
  plainVoters : ∀ id ∈ c.voters.ids, Plain id
  plainLearners : ∀ id ∈ c.learners.ids, Plain id

lemma deserialize_serialize {c : ClusterConfig Str} (h : Writable c) : deserialize (serialize c) = some c := by
  rw [serialize_eq, deserialize, nextToken_joined (by decide +kernel)]
  rw [readVersion_joined h.version]
  simp only [bind_eq_bind, bind_some]
  rw [readIds_joined h.plainVoters h.voters]
  simp only [bind_some]
  rw [readIds_joined h.plainLearners h.learners]
  rfl

end ConfigChangeCommand

open ConfigChangeCommand

lemma dispatch_encode (args : List Str) :
    dispatch (encodeRespArray args) = some (.client (encodeRespArray args)) := rfl

/-- **Configuration entries are read back.** -/
theorem config_text_round_trip (c : ClusterConfig Str) (h : Writable c) :
    (∃ c', ConfigChangeCommand.deserialize (ConfigChangeCommand.serialize c) = some c' ∧ c'.version = c.version ∧
      c'.voters.same c.voters ∧ c'.learners.same c.learners) ∧
    ∀ args, dispatch (encodeRespArray args) = some (.client (encodeRespArray args)) :=
  ⟨⟨c, deserialize_serialize h, rfl, IdSet.same_self _, IdSet.same_self _⟩, dispatch_encode⟩

/-- ids that look like numbers -/
theorem config_text_round_trip_digits :
    let c : ClusterConfig Str := ⟨7, (IdSet.empty.insert (ascii ['2'])).insert (ascii ['1']),
      IdSet.empty.insert (ascii ['0'])⟩
    ∃ c', ConfigChangeCommand.deserialize (ConfigChangeCommand.serialize c) = some c' ∧ c'.version = 7 ∧
      c'.voters.same c.voters ∧ c'.learners.same c.learners := by
  intro c
  have hplain : ∀ id ∈ c.voters.ids ++ c.learners.ids, Plain id := by
    unfold Plain
    decide
  exact (config_text_round_trip c ⟨by decide, by decide, by decide,
    fun id hid => hplain id (mem_append_left _ hid), fun id hid => hplain id (mem_append_right _ hid)⟩).1

end MaxRedis.Raft

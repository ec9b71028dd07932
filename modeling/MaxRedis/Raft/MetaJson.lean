/-
The text of `meta.json` (`RaftStorage::Serialize` and `Deserialize`).

The reader looks for a field by its quoted name, anywhere in the text, and takes what stands behind the next colon.
-/
import Mathlib.Data.FinEnum
import MaxRedis.Core.Search
import MaxRedis.Raft.ConfigText
import MaxRedis.Raft.Replication

namespace MaxRedis.Raft

open Kv Search List

namespace MetaJson

variable (fs : List (Str × Value))

/-! ## Strings -/

def hexDigit (n : ℕ) : UInt8 := .ofNat (if n < 10 then 48 + n else 87 + n)

def escapeChar (c : UInt8) : Str :=
  if c = 34 then [92, 34]
  else if c = 92 then [92, 92]
  else if c = 10 then [92, 110]
  else if c = 13 then [92, 114]
  else if c = 9 then [92, 116]
  else if c < 32 then [92, 117, 48, 48, hexDigit (c.toNat / 16), hexDigit (c.toNat % 16)]
  else [c]

def escapeJson (raw : Str) : Str := raw.flatMap escapeChar

def hexValue (c : UInt8) : Option ℕ :=
  if 48 ≤ c ∧ c ≤ 57 then some (c.toNat - 48)
  else if 97 ≤ c ∧ c ≤ 102 then some (c.toNat - 87)
  else if 65 ≤ c ∧ c ≤ 70 then some (c.toNat - 55)
  else none

/-- `strtol` of base 16, if it reads the whole of the string: spaces, a sign, `0x` and digits -/
def strtolHex (s : Str) : Option ℤ :=
  let s := s.dropWhile isSpace
  let negative : Bool := s.head? = some 45
  let s := if negative ∨ s.head? = some 43 then s.tail else s
  let digits :=
    match s with
    | 48 :: x :: d :: rest => if (x = 120 ∨ x = 88) ∧ (hexValue d).isSome then d :: rest else s
    | _ => s
  let value : Option ℕ := digits.foldlM (fun n d => (hexValue d).map (n * 16 + ·)) 0
  if digits = [] then none else value.map (fun n => if negative then -(n : ℤ) else n)

/-- the character of a `\u` escape; nothing comes out for other codes than 1 to 127 -/
def unicodeChar (hex : Str) : Str :=
  match strtolHex hex with
  | some cp => if 0 < cp ∧ cp < 128 then [.ofNat cp.toNat] else []
  | none => []

def unescapeJson : Str → Str
  | 92 :: 34 :: s => 34 :: unescapeJson s
  | 92 :: 92 :: s => 92 :: unescapeJson s
  | 92 :: 110 :: s => 10 :: unescapeJson s
  | 92 :: 114 :: s => 13 :: unescapeJson s
  | 92 :: 116 :: s => 9 :: unescapeJson s
  | 92 :: 117 :: a :: b :: c :: d :: s => unicodeChar [a, b, c, d] ++ unescapeJson s
  | 92 :: 117 :: s => 117 :: unescapeJson s
  | c :: s => c :: unescapeJson s
  | [] => []

/-! ## The file -/

structure HardState where
  currentTerm : UInt64 := 0
  votedFor : Str := []
  configState : ConfigState := .stable
  jointConfig : JointConfig Str := {}
  deriving DecidableEq

def kFieldCurrentTerm : Str := ascii ['c', 'u', 'r', 'r', 'e', 'n', 't', '_', 't', 'e', 'r', 'm']
def kFieldVotedFor : Str := ascii ['v', 'o', 't', 'e', 'd', '_', 'f', 'o', 'r']
def kFieldConfigState : Str := ascii ['c', 'o', 'n', 'f', 'i', 'g', '_', 's', 't', 'a', 't', 'e']
def kFieldJointOldVoters : Str :=
  ascii ['j', 'o', 'i', 'n', 't', '_', 'o', 'l', 'd', '_', 'v', 'o', 't', 'e', 'r', 's']
def kFieldJointNewVoters : Str :=
  ascii ['j', 'o', 'i', 'n', 't', '_', 'n', 'e', 'w', '_', 'v', 'o', 't', 'e', 'r', 's']
def kFieldJointOldVersion : Str :=
  ascii ['j', 'o', 'i', 'n', 't', '_', 'o', 'l', 'd', '_', 'v', 'e', 'r', 's', 'i', 'o', 'n']
def kFieldJointNewVersion : Str :=
  ascii ['j', 'o', 'i', 'n', 't', '_', 'n', 'e', 'w', '_', 'v', 'e', 'r', 's', 'i', 'o', 'n']

def joinToken (set : IdSet Str) : Str :=
  set.ids.foldl (fun result id => (if result = [] then result else result ++ [44]) ++ escapeJson id) []

def stateNumber : ConfigState → ℕ
  | .stable => 0
  | .joint => 1

def serialize (st : HardState) : Str :=
  ascii ['{', '"'] ++ kFieldCurrentTerm ++ ascii ['"', ':'] ++ toDecimal st.currentTerm.toNat ++
    ascii [',', '"'] ++ kFieldVotedFor ++ ascii ['"', ':', '"'] ++ escapeJson st.votedFor ++ ascii ['"'] ++
    ascii [',', '"'] ++ kFieldConfigState ++ ascii ['"', ':'] ++ toDecimal (stateNumber st.configState) ++
    ascii [',', '"'] ++ kFieldJointOldVoters ++ ascii ['"', ':', '"'] ++
      joinToken st.jointConfig.oldConfig.voters ++ ascii ['"'] ++
    ascii [',', '"'] ++ kFieldJointNewVoters ++ ascii ['"', ':', '"'] ++
      joinToken st.jointConfig.newConfig.voters ++ ascii ['"'] ++
    ascii [',', '"'] ++ kFieldJointOldVersion ++ ascii ['"', ':'] ++
      toDecimal st.jointConfig.oldConfig.version ++
    ascii [',', '"'] ++ kFieldJointNewVersion ++ ascii ['"', ':'] ++
      toDecimal st.jointConfig.newConfig.version ++ ascii ['}', '\n']

def findField (data name : Str) : Option Str :=
  match search (34 :: (name ++ [34])) data with
  | none => none
  | some s =>
    match search [58] s with
    | none => none
    | some s => some ((s.drop 1).dropWhile (fun c => c = 32 ∨ c = 9))

def strtoull (s : Str) : Option ℕ :=
  match signedDigits s with
  | none => none
  | some (negative, value) => some (if value < 2 ^ 64 then applySign negative value else 2 ^ 64 - 1)

def parseUint (data name : Str) : Option ℕ :=
  match findField data name with
  | none => none
  | some s => strtoull s

def quoted : Bool → Str → Option Str
  | _, [] => none
  | true, c :: s => (quoted false s).map (c :: ·)
  | false, c :: s =>
    if c = 92 then (quoted true s).map (c :: ·)
    else if c = 34 then some []
    else (quoted false s).map (c :: ·)

def parseString (data name : Str) : Option Str :=
  match findField data name with
  | some (34 :: s) => (quoted false s).map unescapeJson
  | _ => none

/-- the pieces between commas, the one in `piece` begun; empty ones are skipped -/
def splitCommas (piece : Str) : Str → List Str
  | [] => if piece = [] then [] else [piece]
  | c :: s =>
    if c = 44 then if piece = [] then splitCommas [] s else piece :: splitCommas [] s
    else splitCommas (piece ++ [c]) s

def parseVoters (data name : Str) (out : IdSet Str) : IdSet Str :=
  match parseString data name with
  | none => out
  | some s => (splitCommas [] s).foldl (fun out piece => out.insert (unescapeJson piece)) out

def deserialize (data : Str) (st : HardState) : HardState where
  currentTerm := ((parseUint data kFieldCurrentTerm).map UInt64.ofNat).getD st.currentTerm
  votedFor := (parseString data kFieldVotedFor).getD st.votedFor
  configState :=
    ((parseUint data kFieldConfigState).map (fun v => if v = 0 then .stable else .joint)).getD st.configState
  jointConfig :=
    { oldConfig :=
        { st.jointConfig.oldConfig with
          voters := parseVoters data kFieldJointOldVoters st.jointConfig.oldConfig.voters
          version := (parseUint data kFieldJointOldVersion).getD st.jointConfig.oldConfig.version }
      newConfig :=
        { st.jointConfig.newConfig with
          voters := parseVoters data kFieldJointNewVoters st.jointConfig.newConfig.voters
          version := (parseUint data kFieldJointNewVersion).getD st.jointConfig.newConfig.version } }

/-! ## Escaped strings -/

lemma escapeJson_cons (c : UInt8) (s : Str) : escapeJson (c :: s) = escapeChar c ++ escapeJson s := flatMap_cons

lemma escapeJson_append (s t : Str) : escapeJson (s ++ t) = escapeJson s ++ escapeJson t := flatMap_append

lemma escapeChar_cases (c : UInt8) : (escapeChar c = [c] ∧ c ≠ 34 ∧ c ≠ 92) ∨
    ∃ d e, escapeChar c = 92 :: d :: e ∧ (d = 34 → c = 34 ∧ e = []) ∧ ∀ x ∈ e, x ≠ 34 ∧ x ≠ 92 := by
  have hhex : ∀ n < 16, hexDigit n ≠ 34 ∧ hexDigit n ≠ 92 := by decide
  have hc := c.toNat_lt
  unfold escapeChar
  split_ifs with h1 h2 h3 h4 h5 h6
  · exact Or.inr ⟨34, [], rfl, fun _ => ⟨h1, rfl⟩, by simp⟩
  · exact Or.inr ⟨92, [], rfl, by simp, by simp⟩
  · exact Or.inr ⟨110, [], rfl, by simp, by simp⟩
  · exact Or.inr ⟨114, [], rfl, by simp, by simp⟩
  · exact Or.inr ⟨116, [], rfl, by simp, by simp⟩
  · have hhigh := hhex (c.toNat / 16) (by omega)
    have hlow := hhex (c.toNat % 16) (by omega)
    exact Or.inr ⟨117, _, rfl, by simp, by simp [hhigh, hlow]⟩
  · exact Or.inl ⟨rfl, h1, h2⟩

lemma unescapeJson_cons {c : UInt8} (h : c ≠ 92) (s : Str) : unescapeJson (c :: s) = c :: unescapeJson s := by
  rw [unescapeJson]
  all_goals
    intros
    exact absurd ‹c = 92› h

lemma unescapeJson_escapeChar {c : UInt8} (h : c ≠ 0) (s : Str) :
    unescapeJson (escapeChar c ++ s) = c :: unescapeJson s := by
  have hcontrol : ∀ c : UInt8, c ≠ 0 → c < 32 →
      unicodeChar [48, 48, hexDigit (c.toNat / 16), hexDigit (c.toNat % 16)] = [c] := by decide +kernel
  unfold escapeChar
  split_ifs with h1 h2 h3 h4 h5 h6
  · rw [h1]; rfl
  · rw [h2]; rfl
  · rw [h3]; rfl
  · rw [h4]; rfl
  · rw [h5]; rfl
  · exact congrArg (· ++ unescapeJson s) (hcontrol c h h6)
  · exact unescapeJson_cons h2 s

theorem unescapeJson_escapeJson {s : Str} (h : 0 ∉ s) : unescapeJson (escapeJson s) = s := by
  induction s with
  | nil => rfl
  | cons _ _ ih =>
    obtain ⟨hc, hs⟩ := not_or.1 (mt mem_cons.2 h)
    rw [escapeJson_cons, unescapeJson_escapeChar (Ne.symm hc), ih hs]

lemma quoted_plain {e : Str} (h : ∀ x ∈ e, x ≠ 34 ∧ x ≠ 92) (s : Str) :
    quoted false (e ++ s) = (quoted false s).map (e ++ ·) := by
  induction e with
  | nil => simp
  | cons _ _ ih =>
    obtain ⟨⟨hquote, hslash⟩, he⟩ := forall_mem_cons.1 h
    rw [cons_append, quoted, if_neg hslash, if_neg hquote, ih he, Option.map_map]
    rfl

lemma quoted_escapeChar (c : UInt8) (s : Str) :
    quoted false (escapeChar c ++ s) = (quoted false s).map (escapeChar c ++ ·) := by
  rcases escapeChar_cases c with ⟨hc, hquote, hslash⟩ | ⟨d, e, hc, -, he⟩
  · rw [hc]
    exact quoted_plain (by simp [hquote, hslash]) s
  · rw [hc, cons_append, cons_append, quoted, if_pos rfl, quoted, quoted_plain he, Option.map_map,
      Option.map_map]
    rfl

lemma quoted_escapeJson (s rest : Str) : quoted false (escapeJson s ++ 34 :: rest) = some (escapeJson s) := by
  induction s with
  | nil => rfl
  | cons _ _ ih =>
    rw [escapeJson_cons, append_assoc, quoted_escapeChar, ih]
    rfl

/-! ## Fields -/

inductive Value where
  | num (n : ℕ)
  | str (s : Str)

def Value.text : Value → Str
  | .num n => toDecimal n
  | .str s => 34 :: (escapeJson s ++ [34])

def fieldText (name : Str) (v : Value) : Str := 34 :: (name ++ (34 :: 58 :: v.text))

def fieldsText (fs : List (Str × Value)) : Str := fs.flatMap (fun f => 44 :: fieldText f.1 f.2) ++ [125, 10]

lemma fieldText_append (name : Str) (v : Value) (s : Str) :
    fieldText name v ++ s = 34 :: (name ++ [34]) ++ (58 :: (v.text ++ s)) := by
  simp [fieldText]

lemma fieldsText_cons (name : Str) (v : Value) (fs : List (Str × Value)) :
    fieldsText ((name, v) :: fs) = 44 :: (fieldText name v ++ fieldsText fs) := by
  simp [fieldsText]

lemma head_fieldsText : ∃ c s, fieldsText fs = c :: s ∧ (c = 44 ∨ c = 125) := by
  cases fs with
  | nil => exact ⟨125, [10], rfl, Or.inr rfl⟩
  | cons f fs => exact ⟨44, _, fieldsText_cons f.1 f.2 fs, Or.inl rfl⟩

def isNameChar (c : UInt8) : Bool := c = 95 ∨ (97 ≤ c ∧ c ≤ 122)

def IsName (name : Str) : Prop := name ≠ [] ∧ ∀ c ∈ name, isNameChar c

instance (name : Str) : Decidable (IsName name) := inferInstanceAs (Decidable (name ≠ [] ∧ ∀ c ∈ name, isNameChar c))

lemma isNameChar_plain {c : UInt8} (h : isNameChar c) :
    escapeChar c = [c] ∧ c ≠ 34 ∧ c ≠ 92 ∧ c ≠ 44 ∧ c ≠ 58 ∧ c ≠ 125 := by
  have hall : ∀ c : UInt8, isNameChar c → escapeChar c = [c] ∧ c ≠ 34 ∧ c ≠ 92 ∧ c ≠ 44 ∧ c ≠ 58 ∧ c ≠ 125 := by
    decide +kernel
  exact hall c h

section Names
variable {name : Str} (hname : IsName name)
include hname

lemma IsName.quote_not_mem : 34 ∉ name := fun h => (isNameChar_plain (hname.2 34 h)).2.1 rfl

lemma IsName.colon_not_mem : 58 ∉ name := fun h => (isNameChar_plain (hname.2 58 h)).2.2.2.2.1 rfl

lemma IsName.not_begins {c : UInt8} (hc : c = 44 ∨ c = 58 ∨ c = 125) (s : Str) :
    ¬ 34 :: (name ++ [34]) <+: 34 :: c :: s := by
  intro h
  obtain ⟨hne, hchars⟩ := hname
  cases name with
  | nil => exact hne rfl
  | cons b =>
    obtain rfl : b = c := (cons_prefix_cons.1 (cons_prefix_cons.1 h).2).1
    obtain ⟨-, -, -, hcomma, hcolon, hbrace⟩ := isNameChar_plain (hchars b mem_cons_self)
    rcases hc with hc | hc | hc
    · exact hcomma hc
    · exact hcolon hc
    · exact hbrace hc

end Names

variable {name : Str} {v : Value} {before after : List (Str × Value)} {ids : List Str} (st : HardState)

lemma eq_of_begins (hchars : ∀ c ∈ name, isNameChar c) {s rest : Str}
    (h : name ++ [34] <+: escapeJson s ++ 34 :: rest) : s = name := by
  induction s generalizing name with
  | nil =>
    cases name with
    | nil => rfl
    | cons b =>
      exact absurd (cons_prefix_cons.1 h).1 (isNameChar_plain (hchars b mem_cons_self)).2.1
  | cons c _ ih =>
    rw [escapeJson_cons] at h
    rcases escapeChar_cases c with ⟨hc, hquote, -⟩ | ⟨d, e, hc, -⟩
    · rw [hc] at h
      cases name with
      | nil => exact absurd (cons_prefix_cons.1 h).1 (Ne.symm hquote)
      | cons b =>
        obtain ⟨rfl, htail⟩ := cons_prefix_cons.1 h
        rw [ih (fun x hx => hchars x (mem_cons_of_mem b hx)) htail]
    · rw [hc] at h
      cases name with
      | nil => exact absurd (cons_prefix_cons.1 h).1 (by decide)
      | cons b =>
        exact absurd (cons_prefix_cons.1 h).1 (isNameChar_plain (hchars b mem_cons_self)).2.2.1

def Imitates (name s : Str) : Prop := s = name ∨ 34 :: name <:+ s

instance (name s : Str) : Decidable (Imitates name s) := inferInstanceAs (Decidable (s = name ∨ 34 :: name <:+ s))

lemma clear_escapeJson (hname : IsName name) {s : Str} (h : ¬ 34 :: name <:+ s) (rest : Str) :
    Clear (34 :: (name ++ [34])) (escapeJson s) (34 :: rest) := by
  induction s with
  | nil => trivial
  | cons c s ih =>
    have htail : ¬ 34 :: name <:+ s := fun hs => h (hs.trans (suffix_cons c s))
    rw [escapeJson_cons, clear_append]
    refine ⟨?_, ih htail⟩
    by_cases hc : c = 34
    · -- the escape of a quote: the name would have to be the rest of the string
      subst hc
      refine ⟨not_begins_of_ne (by decide), ?_, trivial⟩
      intro hbegins
      have hrest : s = name := eq_of_begins hname.2 (cons_prefix_cons.1 hbegins).2
      exact h (hrest ▸ suffix_refl _)
    · apply clear_of_not_mem
      rcases escapeChar_cases c with ⟨hchar, hquote, -⟩ | ⟨d, e, hchar, hd, he⟩
      · simpa [hchar] using Ne.symm hquote
      · rw [hchar]
        intro hmem
        simp only [mem_cons] at hmem
        rcases hmem with h92 | hd34 | hmem
        · exact absurd h92 (by decide)
        · exact hc (hd hd34.symm).1
        · exact (he 34 hmem).1 rfl

lemma clear_valueText (hname : IsName name) (hv : ∀ s, v = .str s → ¬ Imitates name s)
    (fs : List (Str × Value)) : Clear (34 :: (name ++ [34])) v.text (fieldsText fs) := by
  cases v with
  | num =>
    apply clear_of_not_mem
    intro hmem
    exact absurd (isDigit_of_mem_toDecimal hmem) (by decide)
  | str s =>
    obtain ⟨hs, hend⟩ := not_or.1 (hv s rfl)
    obtain ⟨c, rest, hfs, hc⟩ := head_fieldsText fs
    refine ⟨?_, clear_append.2 ⟨?_, ?_, trivial⟩⟩
    · intro hbegins
      rw [append_assoc] at hbegins
      exact hs (eq_of_begins hname.2 (cons_prefix_cons.1 hbegins).2)
    · exact clear_escapeJson hname hend _
    · rw [hfs]
      exact hname.not_begins (by tauto) rest

lemma escapeJson_name (hname : IsName name) : escapeJson name = name := by
  have hflat : name.flatMap escapeChar = name.flatMap (fun c => [c]) :=
    flatMap_congr (fun c hc => (isNameChar_plain (hname.2 c hc)).1)
  rw [escapeJson, hflat, flatMap_singleton']

lemma clear_fieldText {name other : Str} (hname : IsName name) (hother : IsName other) (hne : other ≠ name)
    (hv : ∀ s, v = .str s → ¬ Imitates name s) (fs : List (Str × Value)) :
    Clear (34 :: (name ++ [34])) (fieldText other v) (fieldsText fs) := by
  refine ⟨?_, clear_append.2 ⟨?_, ?_, ?_, clear_valueText hname hv fs⟩⟩
  · intro hbegins
    rw [append_assoc, ← escapeJson_name hother] at hbegins
    exact hne (eq_of_begins hname.2 (cons_prefix_cons.1 hbegins).2)
  · exact clear_of_not_mem hother.quote_not_mem
  · exact hname.not_begins (by tauto) _
  · exact not_begins_of_ne (by decide)

lemma search_fieldsText (hname : IsName name)
    (hbefore : ∀ f ∈ before, IsName f.1 ∧ f.1 ≠ name ∧ ∀ s, f.2 = .str s → ¬ Imitates name s) :
    search (34 :: (name ++ [34])) (fieldsText (before ++ (name, v) :: after)) =
      some (fieldText name v ++ fieldsText after) := by
  induction before with
  | nil =>
    rw [nil_append, fieldsText_cons, search, if_neg (not_begins_of_ne (by decide)), fieldText_append,
      search_found]
  | cons _ _ ih =>
    obtain ⟨⟨hother, hne, hv⟩, hothers⟩ := forall_mem_cons.1 hbefore
    rw [cons_append, fieldsText_cons, search, if_neg (not_begins_of_ne (by decide)),
      search_skip (clear_fieldText hname hother hne hv _), ih hothers]

def objectText (fs : List (Str × Value)) : Str := 123 :: (fieldsText fs).tail

lemma search_objectText :
    search (34 :: (name ++ [34])) (objectText fs) = search (34 :: (name ++ [34])) (fieldsText fs) := by
  obtain ⟨c, s, hfs, hc⟩ := head_fieldsText fs
  have hquote : c ≠ 34 := by rcases hc with rfl | rfl <;> decide
  rw [objectText, hfs, search, search, if_neg (not_begins_of_ne hquote)]
  rfl

lemma dropBlank_valueText (v : Value) (s : Str) :
    (v.text ++ s).dropWhile (fun c => c = 32 ∨ c = 9) = v.text ++ s := by
  cases v with
  | num n =>
    have hne := toDecimal_ne_nil n
    have hdigits : ∀ c ∈ toDecimal n, isDigit c := fun c hc => isDigit_of_mem_toDecimal hc
    rw [Value.text]
    cases hs : toDecimal n with
    | nil => exact absurd hs hne
    | cons c =>
      rw [hs] at hdigits
      have hc := hdigits c mem_cons_self
      apply dropWhile_cons_of_neg
      rw [decide_eq_true_eq]
      rintro (rfl | rfl)
      · exact absurd hc (by decide)
      · exact absurd hc (by decide)
  | str => rfl

/-- **A field is found.** -/
theorem findField_objectText (hname : IsName name)
    (hbefore : ∀ f ∈ before, IsName f.1 ∧ f.1 ≠ name ∧ ∀ s, f.2 = .str s → ¬ Imitates name s) :
    findField (objectText (before ++ (name, v) :: after)) name = some (v.text ++ fieldsText after) := by
  have hcolon : search [58] (fieldText name v ++ fieldsText after) = some (58 :: (v.text ++ fieldsText after)) := by
    have hskip : Clear [58] (34 :: (name ++ [34])) (58 :: (v.text ++ fieldsText after)) := by
      apply clear_of_not_mem
      simp [hname.colon_not_mem]
    rw [fieldText_append, search_skip hskip]
    exact search_found [58] _
  rw [findField, search_objectText, search_fieldsText hname hbefore]
  dsimp only
  rw [hcolon]
  dsimp only
  rw [drop_one, tail_cons, dropBlank_valueText]

lemma strtoull_toDecimal {n : ℕ} (h : n < 2 ^ 64) (fs : List (Str × Value)) :
    strtoull (toDecimal n ++ fieldsText fs) = some n := by
  obtain ⟨c, s, hfs, hc⟩ := head_fieldsText fs
  have hend : ∀ c ∈ (fieldsText fs).head?, isDigit c = false := by
    intro d hd
    obtain rfl : c = d := by simpa [hfs] using hd
    rcases hc with rfl | rfl
    · rfl
    · rfl
  rw [strtoull, signedDigits_toDecimal n hend]
  exact congrArg some (if_pos h)

/-! ## Lists of voters -/

def joinIds (ids : List Str) : Str :=
  ids.foldl (fun result id => (if result = [] then result else result ++ [44]) ++ id) []

lemma escapeJson_eq_nil {s : Str} : escapeJson s = [] ↔ s = [] := by
  constructor
  · intro h
    cases s with
    | nil => rfl
    | cons c =>
      rw [escapeJson_cons] at h
      rcases escapeChar_cases c with ⟨hc, -⟩ | ⟨d, e, hc, -⟩
      · rw [hc] at h
        cases h
      · rw [hc] at h
        cases h
  · rintro rfl
    rfl

lemma joinToken_eq (set : IdSet Str) : joinToken set = escapeJson (joinIds set.ids) := by
  have hfold : ∀ (ids : List Str) (result : Str),
      ids.foldl (fun result id => (if result = [] then result else result ++ [44]) ++ escapeJson id)
        (escapeJson result) =
      escapeJson (ids.foldl (fun result id => (if result = [] then result else result ++ [44]) ++ id) result) := by
    intro ids
    induction ids with
    | nil => exact fun result => rfl
    | cons _ _ ih =>
      intro result
      rw [foldl_cons, foldl_cons, ← ih]
      by_cases hempty : result = []
      · rw [if_pos (escapeJson_eq_nil.2 hempty), if_pos hempty, escapeJson_append]
      · rw [if_neg (mt escapeJson_eq_nil.1 hempty), if_neg hempty, escapeJson_append, escapeJson_append]
        rfl
  exact hfold set.ids []

lemma joinIds_cons {id : Str} (hid : id ≠ []) (ids : List Str) :
    joinIds (id :: ids) = id ++ ids.flatMap (fun x => 44 :: x) := by
  have hfold : ∀ (ids : List Str) (result : Str), result ≠ [] →
      ids.foldl (fun result id => (if result = [] then result else result ++ [44]) ++ id) result =
        result ++ ids.flatMap (fun x => 44 :: x) := by
    intro ids
    induction ids with
    | nil => simp
    | cons _ _ ih =>
      intro result hne
      rw [foldl_cons, if_neg hne, ih _ (by simp)]
      simp
  exact hfold ids id hid

lemma splitCommas_word {w : Str} (hw : 44 ∉ w) (piece s : Str) :
    splitCommas piece (w ++ s) = splitCommas (piece ++ w) s := by
  induction w generalizing piece with
  | nil => simp
  | cons _ _ ih =>
    obtain ⟨hc, hw⟩ := not_or.1 (mt mem_cons.2 hw)
    rw [cons_append, splitCommas, if_neg (Ne.symm hc), ih hw, append_assoc]
    rfl

structure Listable (id : Str) : Prop where
  ne : id ≠ []
  noNul : 0 ∉ id
  noComma : 44 ∉ id
  steady : unescapeJson id = id

lemma splitCommas_joinIds (h : ∀ id ∈ ids, Listable id) : splitCommas [] (joinIds ids) = ids := by
  have hrest : ∀ (ids : List Str), (∀ id ∈ ids, Listable id) → ∀ piece ≠ [],
      splitCommas piece (ids.flatMap (fun x => 44 :: x)) = piece :: ids := by
    intro ids
    induction ids with
    | nil =>
      intro _ piece hpiece
      rw [flatMap_nil, splitCommas, if_neg hpiece]
    | cons id _ ih =>
      intro h piece hpiece
      obtain ⟨hid, hids⟩ := forall_mem_cons.1 h
      rw [flatMap_cons, cons_append, splitCommas, if_pos rfl, if_neg hpiece, splitCommas_word hid.noComma,
        nil_append, ih hids id hid.ne]
  cases ids with
  | nil => rfl
  | cons id ids =>
    obtain ⟨hid, hids⟩ := forall_mem_cons.1 h
    rw [joinIds_cons hid.ne, splitCommas_word hid.noComma, nil_append, hrest ids hids id hid.ne]

lemma joinIds_noNul (h : ∀ id ∈ ids, Listable id) : 0 ∉ joinIds ids := by
  cases ids with
  | nil => simp [joinIds]
  | cons id =>
    rw [joinIds_cons (h id mem_cons_self).ne]
    intro hmem
    rcases mem_append.1 hmem with hmem | hmem
    · exact (h id mem_cons_self).noNul hmem
    · obtain ⟨x, hx, hmem⟩ := mem_flatMap.1 hmem
      rcases mem_cons.1 hmem with hzero | hmem
      · exact absurd hzero (by decide)
      · exact (h x (mem_cons_of_mem id hx)).noNul hmem

lemma suffix_of_comma {w a b : Str} (hw : 44 ∉ w) (h : w <:+ a ++ 44 :: b) : w <:+ b := by
  rcases suffix_or_suffix_of_suffix h (suffix_append a (44 :: b)) with hshort | hlong
  · rcases suffix_cons_iff.1 hshort with rfl | hb
    · exact absurd mem_cons_self hw
    · exact hb
  · exact absurd (hlong.subset mem_cons_self) hw

lemma not_imitates_joinIds (hname : IsName name) (hne : ∀ id ∈ ids, id ≠ [])
    (h : ∀ id ∈ ids, ¬ Imitates name id) : ¬ Imitates name (joinIds ids) := by
  have hcomma : 44 ∉ name := fun hmem => (isNameChar_plain (hname.2 44 hmem)).2.2.2.1 rfl
  have hcomma' : 44 ∉ 34 :: name := by simp [hcomma]
  have hrest : ∀ (ids : List Str) (id : Str), (∀ x ∈ id :: ids, ¬ Imitates name x) →
      ¬ Imitates name (id ++ ids.flatMap (fun x => 44 :: x)) := by
    intro ids
    induction ids with
    | nil =>
      intro id h
      simpa using h
    | cons x _ ih =>
      intro id h
      have htail := ih x (fun y hy => h y (mem_cons_of_mem id hy))
      rintro (heq | hend)
      · apply hcomma
        rw [← heq]
        simp
      · exact htail (Or.inr (suffix_of_comma hcomma' hend))
  cases ids with
  | nil =>
    rintro (heq | hend)
    · exact hname.1 heq.symm
    · simp [joinIds] at hend
  | cons id ids =>
    rw [joinIds_cons (hne id mem_cons_self)]
    exact hrest ids id h

/-! ## The file read back -/

def fields (st : HardState) : List (Str × Value) :=
  [(kFieldCurrentTerm, .num st.currentTerm.toNat), (kFieldVotedFor, .str st.votedFor),
    (kFieldConfigState, .num (stateNumber st.configState)),
    (kFieldJointOldVoters, .str (joinIds st.jointConfig.oldConfig.voters.ids)),
    (kFieldJointNewVoters, .str (joinIds st.jointConfig.newConfig.voters.ids)),
    (kFieldJointOldVersion, .num st.jointConfig.oldConfig.version),
    (kFieldJointNewVersion, .num st.jointConfig.newConfig.version)]

lemma serialize_eq : serialize st = objectText (fields st) := by
  have hopen : ascii ['{', '"'] = [123, 34] := by decide
  have hnext : ascii [',', '"'] = [44, 34] := by decide
  have hnum : ascii ['"', ':'] = [34, 58] := by decide
  have hstr : ascii ['"', ':', '"'] = [34, 58, 34] := by decide
  have hquote : ascii ['"'] = [34] := by decide
  have hclose : ascii ['}', '\n'] = [125, 10] := by decide
  unfold serialize
  rw [hopen, hnext, hnum, hstr, hquote, hclose, joinToken_eq, joinToken_eq]
  simp only [objectText, fields, fieldsText, fieldText, Value.text, flatMap_cons, flatMap_nil,
    cons_append, nil_append, append_assoc, append_nil, tail_cons]

def jointFields : List Str :=
  [kFieldConfigState, kFieldJointOldVoters, kFieldJointNewVoters, kFieldJointOldVersion, kFieldJointNewVersion]

lemma names_fields : (fields st).map Prod.fst = kFieldCurrentTerm :: kFieldVotedFor :: jointFields :=
  rfl

lemma isName_of_mem (h : name ∈ kFieldCurrentTerm :: kFieldVotedFor :: jointFields) : IsName name := by
  have hnames : ∀ name ∈ kFieldCurrentTerm :: kFieldVotedFor :: jointFields, IsName name := by decide +kernel
  exact hnames name h

lemma nodup_names : (kFieldCurrentTerm :: kFieldVotedFor :: jointFields).Nodup := by decide +kernel

section Found
variable {st : HardState} {name : Str} {before after : List (Str × Value)}

lemma findField_serialize {v : Value} (hsplit : fields st = before ++ (name, v) :: after)
    (hfree : ∀ n s, (n, Value.str s) ∈ before → ¬ Imitates name s) :
    findField (serialize st) name = some (v.text ++ fieldsText after) := by
  have hnames := names_fields st
  have hnodup := nodup_names
  rw [hsplit, map_append] at hnames
  rw [← hnames] at hnodup
  rw [serialize_eq, hsplit]
  apply findField_objectText (isName_of_mem (hnames ▸ by simp))
  rintro ⟨n, w⟩ hf
  refine ⟨isName_of_mem (hnames ▸ mem_append_left _ (mem_map_of_mem hf)), ?_, ?_⟩
  · rintro rfl
    exact disjoint_of_nodup_append hnodup (mem_map_of_mem hf) mem_cons_self
  · rintro s rfl
    exact hfree n s hf

lemma parseUint_serialize {n : ℕ} (hsplit : fields st = before ++ (name, .num n) :: after) (hn : n < 2 ^ 64)
    (hfree : ∀ n s, (n, Value.str s) ∈ before → ¬ Imitates name s) : parseUint (serialize st) name = some n := by
  rw [parseUint, findField_serialize hsplit hfree]
  exact strtoull_toDecimal hn after

lemma parseString_serialize {s : Str} (hsplit : fields st = before ++ (name, .str s) :: after) (hs : 0 ∉ s)
    (hfree : ∀ n s, (n, Value.str s) ∈ before → ¬ Imitates name s) : parseString (serialize st) name = some s := by
  have htext : (Value.str s).text ++ fieldsText after = 34 :: (escapeJson s ++ 34 :: fieldsText after) := by
    simp [Value.text]
  rw [parseString, findField_serialize hsplit hfree, htext]
  calc (quoted false (escapeJson s ++ 34 :: fieldsText after)).map unescapeJson
      = some (unescapeJson (escapeJson s)) := by rw [quoted_escapeJson, Option.map_some]
    _ = some s := by rw [unescapeJson_escapeJson hs]

lemma parseVoters_serialize {set : IdSet Str}
    (hsplit : fields st = before ++ (name, .str (joinIds set.ids)) :: after) (hset : ∀ id ∈ set.ids, Listable id)
    (hfree : ∀ n s, (n, Value.str s) ∈ before → ¬ Imitates name s) : parseVoters (serialize st) name .empty = set := by
  rw [parseVoters, parseString_serialize hsplit (joinIds_noNul hset) hfree]
  dsimp only
  rw [splitCommas_joinIds hset]
  calc set.ids.foldl (fun out piece => out.insert (unescapeJson piece)) .empty
      = set.ids.foldl IdSet.insert .empty := by
        apply foldl_ext
        intro out id hid
        rw [(hset id hid).steady]
    _ = set := set.foldl_insert_self

end Found

lemma deserialize_hard (st before : HardState) (h : 0 ∉ st.votedFor) :
    (deserialize (serialize st) before).currentTerm = st.currentTerm ∧
    (deserialize (serialize st) before).votedFor = st.votedFor := by
  have hterm : fields st = [] ++ (kFieldCurrentTerm, .num st.currentTerm.toNat) :: (fields st).drop 1 := rfl
  have hvote : fields st = (fields st).take 1 ++ (kFieldVotedFor, .str st.votedFor) :: (fields st).drop 2 := rfl
  unfold deserialize
  rw [parseUint_serialize hterm st.currentTerm.toNat_lt (by simp),
    parseString_serialize hvote h (by simp [fields])]
  exact ⟨UInt64.ofNat_toNat, rfl⟩

/-- **Term and vote survive.** -/
theorem term_and_vote_survive (st before : HardState) (h : 0 ∉ st.votedFor) :
    (deserialize (serialize st) before).currentTerm = st.currentTerm ∧
    (deserialize (serialize st) before).votedFor = st.votedFor :=
  deserialize_hard st before h

/-- a vote for a node that is named as the field, behind a quote, a backslash and a line feed -/
theorem term_and_vote_survive_quoted :
    let st : HardState := { currentTerm := 7, votedFor := 34 :: 92 :: 10 :: kFieldVotedFor }
    (deserialize (serialize st) {}).currentTerm = 7 ∧
    (deserialize (serialize st) {}).votedFor = 34 :: 92 :: 10 :: kFieldVotedFor :=
  term_and_vote_survive _ {} (by decide)

structure Legible (st : HardState) : Prop where
  oldVersion : st.jointConfig.oldConfig.version < 2 ^ 64
  newVersion : st.jointConfig.newConfig.version < 2 ^ 64
  oldVoters : ∀ id ∈ st.jointConfig.oldConfig.voters.ids, Listable id
  newVoters : ∀ id ∈ st.jointConfig.newConfig.voters.ids, Listable id
  vote : ∀ name ∈ jointFields, ¬ Imitates name st.votedFor
  oldNames : ∀ name ∈ jointFields, ∀ id ∈ st.jointConfig.oldConfig.voters.ids, ¬ Imitates name id
  newNames : ∀ name ∈ jointFields, ∀ id ∈ st.jointConfig.newConfig.voters.ids, ¬ Imitates name id

lemma Legible.free {st : HardState} (h : Legible st) (hname : name ∈ jointFields)
    (hsplit : fields st = before ++ (name, v) :: after) :
    ∀ n s, (n, Value.str s) ∈ before → ¬ Imitates name s := by
  have hisName : IsName name := isName_of_mem (by simp [hname])
  intro n s hmem
  have hfield : (n, Value.str s) ∈ fields st := by
    rw [hsplit]
    exact mem_append_left _ hmem
  simp only [fields, mem_cons, Prod.mk.injEq, Value.str.injEq, reduceCtorEq, and_false, not_mem_nil,
    or_false, false_or] at hfield
  rcases hfield with ⟨-, rfl⟩ | ⟨-, rfl⟩ | ⟨-, rfl⟩
  · exact h.vote name hname
  · exact not_imitates_joinIds hisName (fun id hid => (h.oldVoters id hid).ne) (h.oldNames name hname)
  · exact not_imitates_joinIds hisName (fun id hid => (h.newVoters id hid).ne) (h.newNames name hname)

def withoutLearners (joint : JointConfig Str) : JointConfig Str :=
  ⟨⟨joint.oldConfig.version, joint.oldConfig.voters, .empty⟩, ⟨joint.newConfig.version, joint.newConfig.voters, .empty⟩⟩

lemma deserialize_joint {st : HardState} (h : Legible st) :
    (deserialize (serialize st) {}).configState = st.configState ∧
    (deserialize (serialize st) {}).jointConfig = withoutLearners st.jointConfig := by
  have hstate : fields st = (fields st).take 2 ++ (kFieldConfigState, .num (stateNumber st.configState)) ::
      (fields st).drop 3 := rfl
  have hold : fields st = (fields st).take 3 ++
      (kFieldJointOldVoters, .str (joinIds st.jointConfig.oldConfig.voters.ids)) :: (fields st).drop 4 := rfl
  have hnew : fields st = (fields st).take 4 ++
      (kFieldJointNewVoters, .str (joinIds st.jointConfig.newConfig.voters.ids)) :: (fields st).drop 5 := rfl
  have holdVersion : fields st = (fields st).take 5 ++
      (kFieldJointOldVersion, .num st.jointConfig.oldConfig.version) :: (fields st).drop 6 := rfl
  have hnewVersion : fields st = (fields st).take 6 ++
      (kFieldJointNewVersion, .num st.jointConfig.newConfig.version) :: (fields st).drop 7 := rfl
  have hnumber : stateNumber st.configState < 2 ^ 64 := by cases st.configState <;> decide
  unfold deserialize
  rw [parseUint_serialize hstate hnumber (h.free (by simp [jointFields]) hstate),
    parseUint_serialize holdVersion h.oldVersion (h.free (by simp [jointFields]) holdVersion),
    parseUint_serialize hnewVersion h.newVersion (h.free (by simp [jointFields]) hnewVersion)]
  constructor
  · cases hs : st.configState with
    | stable | joint => rfl
  · rw [parseVoters_serialize hold h.oldVoters (h.free (by simp [jointFields]) hold),
      parseVoters_serialize hnew h.newVoters (h.free (by simp [jointFields]) hnew)]
    rfl

def HardState.ofStorage (s : RaftStorage Str) : HardState :=
  ⟨.ofNat s.currentTerm, s.votedFor.getD [], s.configState, s.jointConfig⟩

/-- **The text holds what `MetaFile` holds.** -/
theorem load_refines {s : RaftStorage Str} (h : Legible (.ofStorage s)) (hvote : 0 ∉ s.votedFor.getD []) :
    deserialize (serialize (.ofStorage s)) {} = .ofStorage (RaftStorage.load s.serialize) := by
  obtain ⟨hterm, hvoted⟩ := deserialize_hard (.ofStorage s) {} hvote
  obtain ⟨hstate, hjoint⟩ := deserialize_joint h
  cases hread : deserialize (serialize (.ofStorage s)) {} with
  | mk term vote state joint =>
    rw [hread] at hterm hvoted hstate hjoint
    obtain rfl : term = _ := hterm
    obtain rfl : vote = _ := hvoted
    obtain rfl : state = _ := hstate
    obtain rfl : joint = _ := hjoint
    rfl

lemma withoutLearners_self {joint : JointConfig Str} (hold : joint.oldConfig.learners.ids = [])
    (hnew : joint.newConfig.learners.ids = []) : withoutLearners joint = joint := by
  have hempty : ∀ set : IdSet Str, set.ids = [] → set = .empty := by
    rintro ⟨ids, hids⟩ rfl
    rfl
  obtain ⟨⟨v, voters, learners⟩, ⟨v', voters', learners'⟩⟩ := joint
  rw [withoutLearners, hempty learners hold, hempty learners' hnew]

lemma beginConfigChange_joint {C L : Type} [LogStorage Str C L] {nd : RaftNode Str C L} (hrole : nd.role = .leader)
    (hstate : nd.configState = .joint) : (nd.beginConfigChange nd.jointConfig.newConfig).2 = true ∧
    (nd.beginConfigChange nd.jointConfig.newConfig).1.jointFinalizeAppended = true := by
  unfold RaftNode.beginConfigChange
  simp [hrole, hstate, IdSet.same_self]

def restartedLeader (st : HardState) : RaftNode Str Str (CommandLog Str Str) :=
  { nodeId := ascii ['a']
    log := {}
    role := .leader
    configState := (deserialize (serialize st) {}).configState
    jointConfig := (deserialize (serialize st) {}).jointConfig }

def addedVoter : HardState where
  currentTerm := 3
  votedFor := ascii ['a']
  configState := .joint
  jointConfig := ⟨⟨1, IdSet.empty.insert (ascii ['a']), .empty⟩,
    ⟨2, (IdSet.empty.insert (ascii ['a'])).insert (ascii ['b']), .empty⟩⟩

lemma legible_addedVoter : Legible addedVoter := by
  have hlistable : ∀ id ∈ [ascii ['a'], ascii ['b']], Listable id := by
    intro id hid
    simp only [mem_cons, not_mem_nil, or_false] at hid
    rcases hid with rfl | rfl
    · exact ⟨by decide, by decide, by decide, by decide⟩
    · exact ⟨by decide, by decide, by decide, by decide⟩
  have hnames : ∀ name ∈ jointFields, ∀ id ∈ [ascii ['a'], ascii ['b']], ¬ Imitates name id := by decide +kernel
  have hone : ∀ id ∈ addedVoter.jointConfig.oldConfig.voters.ids, id ∈ [ascii ['a'], ascii ['b']] := by decide
  have htwo : ∀ id ∈ addedVoter.jointConfig.newConfig.voters.ids, id ∈ [ascii ['a'], ascii ['b']] := by decide
  exact {
    oldVersion := by decide
    newVersion := by decide
    oldVoters := fun id hid => hlistable id (hone id hid)
    newVoters := fun id hid => hlistable id (htwo id hid)
    vote := fun name hname => hnames name hname _ mem_cons_self
    oldNames := fun name hname id hid => hnames name hname id (hone id hid)
    newNames := fun name hname id hid => hnames name hname id (htwo id hid) }

theorem load_refines_added :
    let s : RaftStorage Str := ⟨3, some (ascii ['a']), .joint, addedVoter.jointConfig, {}⟩
    deserialize (serialize (.ofStorage s)) {} = .ofStorage (RaftStorage.load s.serialize) :=
  load_refines legible_addedVoter (by decide)

end MetaJson

end MaxRedis.Raft

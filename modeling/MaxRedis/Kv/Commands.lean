/-
The text of a replicated command and what it asks for.

A command is a RESP array of bulk strings (`encodeRespArray`, `parseRespArray`).
-/
import Mathlib.Data.List.DropRight
import MaxRedis.Kv.DbSlice

namespace MaxRedis.Kv

open List

def ascii (cs : List Char) : Str := cs.map (fun c => c.toNat.toUInt8)

/-! ## RESP -/

def crlf : Str := [13, 10]

def toDecimal (n : ℕ) : Str := ascii (Nat.toDigits 10 n)

def encodeRespArray (args : List Str) : Str :=
  42 :: toDecimal args.length ++ crlf ++ args.flatMap (fun arg => 36 :: toDecimal arg.length ++ crlf ++ arg ++ crlf)

def findCrlf : Str → Option ℕ
  | 13 :: 10 :: _ => some 0
  | _ :: s => (findCrlf s).map (· + 1)
  | [] => none

def isDigit (c : UInt8) : Bool := 48 ≤ c ∧ c ≤ 57

def parseSize (s : Str) : Option UInt64 :=
  s.foldlM (fun n c => if isDigit c then some (n * 10 + (c - 48).toUInt64) else none) 0

def parseBulk (data : Str) (pos : ℕ) : Option (Str × Option ℕ) :=
  if data.length ≤ pos + 1 ∨ data[pos]? ≠ some 36 then none
  else
    match findCrlf (data.drop (pos + 1)) with
    | none => none
    | some width =>
      match parseSize ((data.drop (pos + 1)).take width) with
      | none => none
      | some len =>
        let start := pos + 1 + width + 2
        let stop := (start + len.toNat) % 2 ^ 64
        if data.length < stop then none
        else
          let closed := stop + 2 ≤ data.length ∧ data[stop]? = some 13 ∧ data[stop + 1]? = some 10
          some ((data.drop start).take len.toNat, if closed then some (stop + 2) else none)

/-- the loop over `count` bulk strings; what it has pushed stays pushed when it gives up -/
def parseBulks (data : Str) : ℕ → ℕ → List Str → Bool × List Str
  | 0, _, out => (true, out)
  | count + 1, pos, out =>
    match parseBulk data pos with
    | none => (false, out)
    | some (arg, none) => (false, out ++ [arg])
    | some (arg, some pos) => parseBulks data count pos (out ++ [arg])

def parseRespArray (data : Str) : Bool × List Str :=
  match data with
  | 42 :: rest =>
    match findCrlf rest with
    | none => (false, [])
    | some width =>
      match parseSize (rest.take width) with
      | none => (false, [])
      | some count => parseBulks data count.toNat (1 + width + 2) []
  | _ => (false, [])

/-! ## Arguments -/

/-- the words between single spaces, the one in `word` begun; a space at the end starts no word -/
def splitSpaces (word : Str) : Str → List Str
  | [] => if word = [] then [] else [word]
  | c :: s => if c = 32 then word :: splitSpaces [] s else splitSpaces (word ++ [c]) s

def commandArgs (command : Str) : Option (List Str) :=
  match parseRespArray command with
  | (true, []) => none
  | (false, []) => some (splitSpaces [] command)
  | (_, args) => some args

def isSpace (c : UInt8) : Bool := c = 32 ∨ (9 ≤ c ∧ c ≤ 13)

def simpleAtoi (s : Str) : Option ℤ :=
  match (s.dropWhile isSpace).rdropWhile isSpace with
  | [] => none
  | c :: cs =>
    let negative := c = 45
    let digits := if negative ∨ c = 43 then cs else c :: cs
    if digits = [] ∨ ¬ digits.all isDigit then none
    else
      let value : ℕ := digits.foldl (fun n d => n * 10 + (d.toNat - 48)) 0
      if negative then if value ≤ 2 ^ 63 then some (-value) else none
      else if value < 2 ^ 63 then some value else none

/-! ## Decimal numbers -/

lemma isDigit_iff {c : UInt8} : isDigit c ↔ 48 ≤ c.toNat ∧ c.toNat ≤ 57 := by
  simp [isDigit, UInt8.le_iff_toNat_le]

lemma isSpace_of_isDigit {c : UInt8} (h : isDigit c) : isSpace c = false := by
  rw [isDigit_iff] at h
  simp [isSpace, UInt8.le_iff_toNat_le, ← UInt8.toNat_inj]
  omega

lemma toNat_digit {n : ℕ} {d : Char} (h : d ∈ Nat.toDigits 10 n) :
    d.toNat.toUInt8.toNat = d.toNat ∧ 48 ≤ d.toNat ∧ d.toNat ≤ 57 := by
  have hdigit := Nat.isDigit_of_mem_toDigits (by decide) (by decide) h
  rw [Char.isDigit_iff_toNat] at hdigit
  have hbounds : 48 ≤ d.toNat ∧ d.toNat ≤ 57 := hdigit
  refine ⟨?_, hbounds⟩
  show d.toNat % 256 = d.toNat
  omega

lemma isDigit_of_mem_toDecimal {n : ℕ} {c : UInt8} (h : c ∈ toDecimal n) : isDigit c := by
  obtain ⟨d, hd, rfl⟩ := mem_map.1 h
  obtain ⟨hval, hbounds⟩ := toNat_digit hd
  rw [isDigit_iff, hval]
  exact hbounds

lemma toDecimal_ne_nil (n : ℕ) : toDecimal n ≠ [] := by
  intro h
  have hpos := @Nat.length_toDigits_pos 10 n
  rw [map_eq_nil_iff.1 h] at hpos
  exact absurd hpos (by decide)

lemma length_toDecimal {n k : ℕ} (hk : 0 < k) (h : n < 10 ^ k) : (toDecimal n).length ≤ k := by
  rw [toDecimal, ascii, length_map]
  exact Nat.toDigits_length 10 n k hk h

lemma foldl_toDecimal (n : ℕ) : (toDecimal n).foldl (fun n d => n * 10 + (d.toNat - 48)) 0 = n := by
  calc
    (toDecimal n).foldl (fun n d => n * 10 + (d.toNat - 48)) 0
      = (Nat.toDigits 10 n).foldl (fun n d => n * 10 + (d.toNat.toUInt8.toNat - 48)) 0 := by
        rw [toDecimal, ascii, foldl_map]
    _ = Nat.ofDigitChars 10 (Nat.toDigits 10 n) 0 := by
        apply foldl_ext
        intro a d hd
        rw [(toNat_digit hd).1, Nat.mul_comm]
        rfl
    _ = n := Nat.ofDigitChars_toDigits (by decide) (by decide)

def digitsValue (s : Str) : ℕ := s.foldl (fun n d => n * 10 + (d.toNat - 48)) 0

lemma digitsValue_toDecimal (n : ℕ) : digitsValue (toDecimal n) = n := foldl_toDecimal n

lemma trim_digits {s : Str} (hdigit : ∀ c ∈ s, isDigit c) : (s.dropWhile isSpace).rdropWhile isSpace = s := by
  have hspace : ∀ c ∈ s, isSpace c = false := fun c hc => isSpace_of_isDigit (hdigit c hc)
  have hleft : s.dropWhile isSpace = s := by
    rw [dropWhile_eq_self_iff]
    intro hl
    simp [hspace _ (getElem_mem hl)]
  have hright : s.rdropWhile isSpace = s := by
    rw [rdropWhile_eq_self_iff]
    intro hl
    simp [hspace _ (getLast_mem hl)]
  rw [hleft, hright]

lemma simpleAtoi_digits {s : Str} (hdigit : ∀ c ∈ s, isDigit c) (hne : s ≠ []) :
    simpleAtoi s = if digitsValue s < 2 ^ 63 then some (digitsValue s : ℤ) else none := by
  unfold simpleAtoi
  rw [trim_digits hdigit]
  cases s with
  | nil => exact absurd rfl hne
  | cons c cs =>
    have hc := isDigit_iff.1 (hdigit c (mem_cons_self ..))
    have hminus : c ≠ 45 := by rintro rfl; exact absurd hc.1 (by decide)
    have hplus : c ≠ 43 := by rintro rfl; exact absurd hc.1 (by decide)
    have hall : (c :: cs).all isDigit := all_eq_true.2 hdigit
    simp only [hminus, hplus, or_self, if_false, hall]
    rfl

theorem simpleAtoi_toDecimal {n : ℕ} (h : n < 2 ^ 63) : simpleAtoi (toDecimal n) = some (n : ℤ) := by
  rw [simpleAtoi_digits (fun c hc => isDigit_of_mem_toDecimal hc) (toDecimal_ne_nil n), digitsValue_toDecimal, if_pos h]

/-! ## Commands -/

def parseTtl (unit : UInt64) (s : Str) : Option UInt64 :=
  match simpleAtoi s with
  | none => none
  | some ttl => if ttl < 0 then none else some (.ofNat ttl.toNat * unit)

structure SetOptions where
  nx : Bool := false
  xx : Bool := false
  ttlMs : Option UInt64 := none
  deriving DecidableEq

/-- the options of `SET`: what is unknown is skipped, and so is an `EX` or `PX` without a number -/
def setOptions (o : SetOptions) : List Str → Option SetOptions
  | [] => some o
  | [opt] =>
    if opt = ascii ['N', 'X'] then some { o with nx := true }
    else if opt = ascii ['X', 'X'] then some { o with xx := true }
    else some o
  | opt :: arg :: rest =>
    if opt = ascii ['N', 'X'] then setOptions { o with nx := true } (arg :: rest)
    else if opt = ascii ['X', 'X'] then setOptions { o with xx := true } (arg :: rest)
    else if opt = ascii ['E', 'X'] then
      match parseTtl 1000 arg with
      | none => none
      | some ttl => setOptions { o with ttlMs := some ttl } rest
    else if opt = ascii ['P', 'X'] then
      match parseTtl 1 arg with
      | none => none
      | some ttl => setOptions { o with ttlMs := some ttl } rest
    else setOptions o (arg :: rest)

inductive KvCommand where
  | malformed
  | set (key val : Str) (options : SetOptions)
  | del (keys : List Str)
  | expire (key : Str) (ttlMs : UInt64)
  deriving DecidableEq

def parseArgs : List Str → KvCommand
  | [] => .malformed
  | name :: args =>
    if name = ascii ['S', 'E', 'T'] then
      match args with
      | key :: val :: opts =>
        match setOptions {} opts with
        | none => .malformed
        | some o => .set key val o
      | _ => .malformed
    else if name = ascii ['D', 'E', 'L'] then
      match args with
      | [] => .malformed
      | keys => .del keys
    else if name = ascii ['E', 'X', 'P', 'I', 'R', 'E'] then
      match args with
      | key :: seconds :: _ =>
        match parseTtl 1000 seconds with
        | none => .malformed
        | some ttl => .expire key ttl
      | _ => .malformed
    else .malformed

lemma parseArgs_set (args : List Str) : parseArgs (ascii ['S', 'E', 'T'] :: args) = .malformed ∨
    ∃ key val opts o, args = key :: val :: opts ∧ setOptions {} opts = some o ∧
      parseArgs (ascii ['S', 'E', 'T'] :: args) = .set key val o := by
  unfold parseArgs
  dsimp only
  rw [if_pos rfl]
  split
  · rename_i key val opts
    cases hopts : setOptions {} opts with
    | none => exact Or.inl rfl
    | some o => exact Or.inr ⟨key, val, opts, o, rfl, hopts, rfl⟩
  · exact Or.inl rfl

lemma parseArgs_expire (key seconds : Str) (rest : List Str) :
    parseArgs (ascii ['E', 'X', 'P', 'I', 'R', 'E'] :: key :: seconds :: rest) =
      ((parseTtl 1000 seconds).map (KvCommand.expire key)).getD .malformed := by
  unfold parseArgs
  dsimp only
  rw [if_pos rfl]
  cases parseTtl 1000 seconds <;> rfl

def parseCommand (command : Str) : KvCommand :=
  match commandArgs command with
  | none => .malformed
  | some args => parseArgs args

def KvCommand.timed : KvCommand → Bool
  | .set _ _ o => o.ttlMs.isSome
  | .expire _ _ => true
  | _ => false

end MaxRedis.Kv

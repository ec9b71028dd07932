/-
The append-only file (`appendonly.aof`) and how it is read back.

A recorded command is appended as a RESP array of bulk strings, the form in which commands stand in the log too
(`encodeRespArray`).
-/
import MaxRedis.Core.Bytes
import MaxRedis.Service.Framing

namespace MaxRedis.Service

variable {x s p q y : Str} {args : List Str} {cmds : List (List Str)}

open Kv Bytes List

/-! ## The reader -/

def simpleAtoiInt (s : Str) : Option ℤ := (simpleAtoi s).filter (fun v => -2 ^ 31 ≤ v ∧ v < 2 ^ 31)

structure AofError where
  pos : ℕ
  msg : Str
  deriving DecidableEq

structure Cursor where
  pos : ℕ
  rest : Str

namespace Cursor

def advance (c : Cursor) (k : ℕ) : Cursor := ⟨c.pos + k, c.rest.drop k⟩

def fail {α : Type} (c : Cursor) (msg : String) : Except AofError α := .error ⟨c.pos, text msg ++ toDecimal c.pos⟩

def readLength (c : Cursor) (kind : String) : Except AofError (ℕ × Cursor) :=
  match findCrlf c.rest with
  | none => .error ⟨c.pos, text ("unterminated " ++ kind ++ " length")⟩
  | some width =>
    match (simpleAtoiInt (c.rest.take width)).filter (0 ≤ ·) with
    | none => c.fail ("invalid " ++ kind ++ " length at offset ")
    | some value => .ok (value.toNat, c.advance (width + 2))

def readBulk (c : Cursor) : Except AofError (Str × Cursor) :=
  if c.rest.head? ≠ some 36 then c.fail "expected '$' (bulk string) at offset "
  else
    match (c.advance 1).readLength "bulk" with
    | .error e => .error e
    | .ok (len, c) =>
      if c.rest.length < len then
        .error ⟨c.pos, text "truncated bulk payload at offset " ++ toDecimal c.pos ++ text " (need " ++ toDecimal len ++
          text " bytes, have " ++ toDecimal c.rest.length ++ text ")"⟩
      else if (c.advance len).rest.take 2 ≠ crlf then
        (c.advance len).fail "missing CRLF after bulk payload at offset "
      else .ok (c.rest.take len, (c.advance len).advance 2)

def readArgs : ℕ → Cursor → Except AofError (List Str × Cursor)
  | 0, c => .ok ([], c)
  | argc + 1, c =>
    match c.readBulk with
    | .error e => .error e
    | .ok (arg, c) => (readArgs argc c).map (fun p => (arg :: p.1, p.2))

def readArray (c : Cursor) : Except AofError (Cursor × List (List Str)) :=
  match c.readLength "array" with
  | .error e => .error e
  | .ok (argc, c) => (readArgs argc c).map (fun p => (p.2, if p.1 = [] then [] else [p.1]))

def parseTurn (c : Cursor) : Except AofError (Cursor × List (List Str)) :=
  match c.rest with
  | 13 :: 10 :: _ => .ok (c.advance 2, [])
  | 13 :: _ => .ok (c.advance 1, [])
  | 10 :: _ => .ok (c.advance 1, [])
  | 42 :: _ => (c.advance 1).readArray
  | _ => c.fail "expected '*' (RESP array) at offset "

end Cursor

structure AofParseResult where
  commands : List (List Str)
  error : Option AofError

def AofParseResult.parse : ℕ → Cursor → List (List Str) → AofParseResult
  | 0, _, commands => ⟨commands, none⟩
  | fuel + 1, c, commands =>
    if c.rest = [] then ⟨commands, none⟩
    else
      match c.parseTurn with
      | .error e => ⟨commands, some e⟩
      | .ok (c, new) => parse fuel c (commands ++ new)

def parseRespCommands (content : Str) : AofParseResult := AofParseResult.parse content.length ⟨0, content⟩ []

/-! ## Headers -/

lemma findCrlf_cons {x : UInt8} (hx : x ≠ 13) (s : Str) : findCrlf (x :: s) = (findCrlf s).map (· + 1) := by
  rw [findCrlf]
  rintro s' rfl
  exact absurd rfl hx

lemma findCrlf_append (hs : ∀ x ∈ s, x ≠ 13) (rest : Str) :
    findCrlf (s ++ (crlf ++ rest)) = some s.length := by
  induction s with
  | nil => rfl
  | cons x _ ih =>
    rw [cons_append, findCrlf_cons (hs x mem_cons_self), ih (fun y hy => hs y (mem_cons_of_mem x hy))]
    rfl

lemma findCrlf_toDecimal (n : ℕ) (rest : Str) :
    findCrlf (toDecimal n ++ (crlf ++ rest)) = some (toDecimal n).length := by
  apply findCrlf_append
  rintro x hx rfl
  exact absurd (isDigit_of_mem_toDecimal hx) (by decide)

lemma parseSize_digits (hs : ∀ c ∈ s, isDigit c) (acc : ℕ) :
    s.foldlM (fun n c => if isDigit c then some (n * 10 + (c - 48).toUInt64) else none) (UInt64.ofNat acc) =
      some (UInt64.ofNat (s.foldl (fun n d => n * 10 + (d.toNat - 48)) acc)) := by
  induction s generalizing acc with
  | nil => rfl
  | cons c _ ih =>
    have hc := hs c mem_cons_self
    obtain ⟨hlow, hhigh⟩ := isDigit_iff.1 hc
    have hdigit : (c - 48).toUInt64 = UInt64.ofNat (c.toNat - 48) := by
      rw [← UInt64.toNat_inj]
      have hsub : (c - 48).toNat = c.toNat - 48 :=
        UInt8.toNat_sub_of_le _ _ (by simpa [UInt8.le_iff_toNat_le] using hlow)
      simp only [UInt8.toNat_toUInt64, UInt64.toNat_ofNat']
      omega
    have hstep : UInt64.ofNat acc * 10 + (c - 48).toUInt64 = UInt64.ofNat (acc * 10 + (c.toNat - 48)) := by
      rw [hdigit, UInt64.ofNat_add, UInt64.ofNat_mul]
      rfl
    rw [foldlM_cons, if_pos hc, hstep]
    exact ih (fun x hx => hs x (mem_cons_of_mem c hx)) _

lemma parseSize_toDecimal (n : ℕ) : parseSize (toDecimal n) = some (UInt64.ofNat n) := by
  have h := parseSize_digits (fun c hc => isDigit_of_mem_toDecimal hc : ∀ c ∈ toDecimal n, isDigit c) 0
  rw [foldl_toDecimal] at h
  exact h

lemma simpleAtoiInt_toDecimal {n : ℕ} (h : n < 2 ^ 31) : simpleAtoiInt (toDecimal n) = some (n : ℤ) := by
  rw [simpleAtoiInt, simpleAtoi_toDecimal (lt_trans h (by norm_num)), Option.filter_some, if_pos]
  rw [decide_eq_true_eq]
  constructor
  · have := Int.natCast_nonneg n
    omega
  · exact_mod_cast h

/-! ## The text of a log entry -/

lemma parseBulk_encode {before rest arg : Str} (h : (before ++ (encodeBulk arg ++ rest)).length < 2 ^ 64) :
    parseBulk (before ++ (encodeBulk arg ++ rest)) before.length =
      some (arg, some (before ++ encodeBulk arg).length) := by
  set len := toDecimal arg.length with hlen
  have hbulk : encodeBulk arg ++ rest = 36 :: (len ++ (crlf ++ (arg ++ (crlf ++ rest)))) := by
    simp [encodeBulk, hlen]
  have hsize : (encodeBulk arg).length = len.length + arg.length + 5 := by
    simp [encodeBulk, crlf, hlen]
    omega
  have harg : (UInt64.ofNat arg.length).toNat = arg.length := by
    rw [UInt64.toNat_ofNat']
    simp only [length_append] at h
    omega
  have hfirst : (before ++ (encodeBulk arg ++ rest))[before.length]? = some 36 := by
    rw [hbulk]
    simp
  have hbehind : (before ++ (encodeBulk arg ++ rest)).drop (before.length + 1) =
      len ++ (crlf ++ (arg ++ (crlf ++ rest))) := by
    rw [hbulk, ← drop_drop, drop_left]
    rfl
  have hpayload : (before ++ (encodeBulk arg ++ rest)).drop (before.length + 1 + len.length + 2) =
      arg ++ (crlf ++ rest) := by
    rw [show before.length + 1 + len.length + 2 = (before.length + 1) + (len.length + 2) by omega, ← drop_drop,
      hbehind, ← drop_drop, drop_left]
    rfl
  have hstop : (before.length + 1 + len.length + 2 + arg.length) % 2 ^ 64 =
      before.length + 1 + len.length + 2 + arg.length := by
    simp only [length_append] at h
    omega
  have hclosed : ∀ i, (before ++ (encodeBulk arg ++ rest))[before.length + 1 + len.length + 2 + arg.length + i]? =
      (crlf ++ rest)[i]? := by
    intro i
    rw [← getElem?_drop, ← drop_drop, hpayload, drop_left]
  unfold parseBulk
  rw [if_neg (by rw [hfirst]; simp [hsize]; omega), hbehind, findCrlf_toDecimal]
  dsimp only
  rw [take_left, parseSize_toDecimal]
  dsimp only
  rw [harg, hstop, if_neg (by simp only [length_append]; omega), hpayload, take_left]
  have h0 := hclosed 0
  have h1 := hclosed 1
  rw [Nat.add_zero] at h0
  rw [if_pos ⟨by simp only [length_append]; omega, by rw [h0]; rfl, by rw [h1]; rfl⟩]
  simp only [length_append]
  congr 3
  omega

lemma parseBulks_append {args : List Str} {before : Str} {count : ℕ} (out : List Str)
    (h : (before ++ args.flatMap encodeBulk).length < 2 ^ 64) :
    parseBulks (before ++ args.flatMap encodeBulk) (args.length + count) before.length out =
      parseBulks (before ++ args.flatMap encodeBulk) count (before ++ args.flatMap encodeBulk).length
        (out ++ args) := by
  induction args generalizing before out with
  | nil => simp
  | cons arg args ih =>
    rw [flatMap_cons] at h ⊢
    rw [length_cons, Nat.succ_add, parseBulks, parseBulk_encode h]
    dsimp only
    have hsplit : before ++ (encodeBulk arg ++ args.flatMap encodeBulk) =
        (before ++ encodeBulk arg) ++ args.flatMap encodeBulk := (append_assoc ..).symm
    rw [hsplit] at h ⊢
    rw [ih _ h, append_assoc out]
    rfl

lemma length_le_encodeRespArray (args : List Str) : args.length ≤ (encodeRespArray args).length := by
  have hbulk : ∀ arg, 0 < (encodeBulk arg).length := fun arg => by simp [encodeBulk]
  have h := length_le_writeAll hbulk args
  rw [encodeRespArray_eq]
  simp only [length_append, writeAll] at h ⊢
  omega

lemma parseRespArray_header {n : ℕ} (hn : n < 2 ^ 64) (rest : Str) :
    parseRespArray (42 :: toDecimal n ++ crlf ++ rest) =
      parseBulks (42 :: toDecimal n ++ crlf ++ rest) n (42 :: toDecimal n ++ crlf).length [] := by
  have hcount : (UInt64.ofNat n).toNat = n := by
    rw [UInt64.toNat_ofNat', Nat.mod_eq_of_lt hn]
  have hstart : 1 + (toDecimal n).length + 2 = (42 :: toDecimal n ++ crlf).length := by
    simp [crlf]
    omega
  have hbehind : 42 :: toDecimal n ++ crlf ++ rest = 42 :: (toDecimal n ++ (crlf ++ rest)) := by simp
  rw [← hstart, hbehind, parseRespArray, findCrlf_toDecimal]
  dsimp only
  rw [take_left, parseSize_toDecimal]
  dsimp only
  rw [hcount]

theorem parseRespArray_encode (h : (encodeRespArray args).length < 2 ^ 64) :
    parseRespArray (encodeRespArray args) = (true, args) := by
  have hcount := lt_of_le_of_lt (length_le_encodeRespArray args) h
  rw [encodeRespArray_eq] at h ⊢
  rw [parseRespArray_header hcount]
  exact @parseBulks_append args _ 0 [] h

lemma parseCommand_encode (hne : args ≠ []) (h : (encodeRespArray args).length < 2 ^ 64) :
    parseCommand (encodeRespArray args) = parseArgs args := by
  rw [parseCommand, commandArgs, parseRespArray_encode h]
  cases args with
  | nil => exact absurd rfl hne
  | cons => rfl

/-! ## The file -/

/-- a command that the reader takes: lengths and the number of arguments fit an `int` -/
def Recordable (args : List Str) : Prop := args ≠ [] ∧ args.length < 2 ^ 31 ∧ ∀ arg ∈ args, arg.length < 2 ^ 31

instance (args : List Str) : Decidable (Recordable args) :=
  inferInstanceAs (Decidable (args ≠ [] ∧ args.length < 2 ^ 31 ∧ ∀ arg ∈ args, arg.length < 2 ^ 31))

lemma Recordable.length_lt (h : Recordable args) : (encodeRespArray args).length < 2 ^ 64 := by
  obtain ⟨-, hcount, hargs⟩ := h
  have hdigits : ∀ n < 2 ^ 31, (toDecimal n).length ≤ 10 :=
    fun n hn => length_toDecimal (by decide) (lt_trans hn (by norm_num))
  have hbulks : (args.flatMap encodeBulk).length ≤ args.length * (2 ^ 31 + 15) := by
    rw [length_flatMap]
    apply (sum_le_card_nsmul _ (2 ^ 31 + 15) ?_).trans
    · simp
    · intro k hk
      obtain ⟨arg, harg, rfl⟩ := mem_map.1 hk
      have hlen := hargs arg harg
      have hdig := hdigits _ hlen
      simp only [encodeBulk, crlf, length_append, length_cons, length_nil]
      omega
  have hhead := hdigits _ hcount
  rw [encodeRespArray_eq]
  simp only [crlf, length_append, length_cons, length_nil]
  have : args.length * (2 ^ 31 + 15) ≤ 2 ^ 31 * (2 ^ 31 + 15) := Nat.mul_le_mul_right _ hcount.le
  omega

namespace Cursor

lemma advance_append {pos : ℕ} (s rest : Str) :
    (⟨pos, s ++ rest⟩ : Cursor).advance s.length = ⟨pos + s.length, rest⟩ := by
  rw [advance, drop_left]

lemma readLength_encode {n : ℕ} (hn : n < 2 ^ 31) (pos : ℕ) (rest : Str) (kind : String) :
    (⟨pos, toDecimal n ++ (crlf ++ rest)⟩ : Cursor).readLength kind =
      .ok (n, ⟨pos + ((toDecimal n).length + 2), rest⟩) := by
  unfold readLength
  rw [findCrlf_toDecimal]
  dsimp only
  rw [take_left, simpleAtoiInt_toDecimal hn]
  rw [advance, ← append_assoc, drop_left' (by simp [crlf])]
  rfl

lemma readBulk_encode {arg : Str} (h : arg.length < 2 ^ 31) (pos : ℕ) (rest : Str) :
    (⟨pos, encodeBulk arg ++ rest⟩ : Cursor).readBulk = .ok (arg, ⟨pos + (encodeBulk arg).length, rest⟩) := by
  have hbulk : encodeBulk arg ++ rest = 36 :: (toDecimal arg.length ++ (crlf ++ (arg ++ (crlf ++ rest)))) := by
    simp [encodeBulk]
  unfold readBulk
  rw [hbulk, if_neg (by simp), show (Cursor.mk pos (36 :: (toDecimal arg.length ++
    (crlf ++ (arg ++ (crlf ++ rest)))))).advance 1 =
    ⟨pos + 1, toDecimal arg.length ++ (crlf ++ (arg ++ (crlf ++ rest)))⟩ from rfl, readLength_encode h]
  dsimp only
  rw [if_neg (by simp), advance_append, if_neg (by simp [crlf]), take_left]
  simp only [advance, encodeBulk, crlf, length_append, length_cons, length_nil]
  congr 3
  omega

lemma readArgs_encode {args : List Str} (h : ∀ arg ∈ args, arg.length < 2 ^ 31) (pos : ℕ) (rest : Str) :
    readArgs args.length ⟨pos, args.flatMap encodeBulk ++ rest⟩ =
      .ok (args, ⟨pos + (args.flatMap encodeBulk).length, rest⟩) := by
  induction args generalizing pos with
  | nil => rfl
  | cons arg _ ih =>
    rw [length_cons, readArgs, flatMap_cons, append_assoc, readBulk_encode (h arg mem_cons_self)]
    dsimp only
    rw [ih (fun x hx => h x (mem_cons_of_mem arg hx)), length_append, ← Nat.add_assoc]
    rfl

lemma parseTurn_encode {args : List Str} (h : Recordable args) (pos : ℕ) (rest : Str) :
    (⟨pos, encodeRespArray args ++ rest⟩ : Cursor).parseTurn =
      .ok (⟨pos + (encodeRespArray args).length, rest⟩, [args]) := by
  obtain ⟨hne, hcount, hargs⟩ := h
  have hbehind : encodeRespArray args ++ rest =
      42 :: (toDecimal args.length ++ (crlf ++ (args.flatMap encodeBulk ++ rest))) := by
    simp [encodeRespArray_eq]
  rw [hbehind]
  show (Cursor.mk (pos + 1) (toDecimal args.length ++ (crlf ++ (args.flatMap encodeBulk ++ rest)))).readArray = _
  rw [readArray, readLength_encode hcount]
  dsimp only
  rw [readArgs_encode hargs]
  show Except.ok (_, if args = [] then [] else [args]) = _
  rw [if_neg hne, encodeRespArray_eq]
  simp only [crlf, length_append, length_cons, length_nil]
  congr 3
  omega

end Cursor

lemma AofParseResult.parse_recorded (h : ∀ args ∈ cmds, Recordable args) (pos fuel : ℕ)
    (commands : List (List Str)) (hfuel : cmds.length ≤ fuel) :
    parse fuel ⟨pos, writeAll encodeRespArray cmds⟩ commands = ⟨commands ++ cmds, none⟩ := by
  induction cmds generalizing pos fuel commands with
  | nil =>
    rw [append_nil]
    cases fuel <;> rfl
  | cons args _ ih =>
    cases fuel with
    | zero => exact absurd hfuel (by simp)
    | succ =>
      rw [parse, writeAll_cons, Cursor.parseTurn_encode (h args mem_cons_self)]
      dsimp only
      rw [ih (fun x hx => h x (mem_cons_of_mem args hx)) _ _ _ (by simpa using hfuel), append_assoc]
      rfl

theorem parseRespCommands_recorded (h : ∀ args ∈ cmds, Recordable args) :
    parseRespCommands (writeAll encodeRespArray cmds) = ⟨cmds, none⟩ :=
  AofParseResult.parse_recorded h 0 _ [] (length_le_writeAll (fun args => by simp [encodeRespArray]) cmds)

/-! ## A file that is cut -/

def Cut (p s : Str) : Prop := ∃ q, q ≠ [] ∧ s = p ++ q

lemma Cut.length_lt (h : Cut p s) : p.length < s.length := by
  obtain ⟨q, hq, rfl⟩ := h
  have := length_pos_iff.2 hq
  rw [length_append]
  omega

lemma cut_or_behind (h : x ++ y = p ++ q) : Cut p x ∨ ∃ p', p = x ++ p' ∧ y = p' ++ q := by
  rcases append_eq_append_iff.1 h with ⟨p', hp, hy⟩ | ⟨m, hx, hm⟩
  · exact Or.inr ⟨p', hp, hy⟩
  · by_cases hnil : m = []
    · rw [hnil] at hm
      rw [hnil, append_nil] at hx
      exact Or.inr ⟨[], by rw [append_nil, hx], hm.symm⟩
    · exact Or.inl ⟨m, hnil, hx⟩

lemma Cut.append (h : Cut p (x ++ y)) : Cut p x ∨ ∃ p', p = x ++ p' ∧ Cut p' y := by
  obtain ⟨q, hq, heq⟩ := h
  rcases cut_or_behind heq with hcut | ⟨p', hp, hy⟩
  · exact Or.inl hcut
  · exact Or.inr ⟨p', hp, q, hq, hy⟩

lemma findCrlf_eq_none (hs : ∀ x ∈ s, x ≠ 13) : findCrlf s = none ∧ findCrlf (s ++ [13]) = none := by
  induction s with
  | nil => exact ⟨rfl, rfl⟩
  | cons x _ ih =>
    have hx := hs x mem_cons_self
    obtain ⟨h1, h2⟩ := ih (fun y hy => hs y (mem_cons_of_mem x hy))
    exact ⟨by rw [findCrlf_cons hx, h1]; rfl, by rw [cons_append, findCrlf_cons hx, h2]; rfl⟩

lemma findCrlf_cut {n : ℕ} (h : Cut p (toDecimal n ++ crlf)) : findCrlf p = none := by
  have hdigits : ∀ x ∈ toDecimal n, x ≠ 13 := by
    rintro x hx rfl
    exact absurd (isDigit_of_mem_toDecimal hx) (by decide)
  rcases h.append with hp | ⟨p', rfl, q, hq, hcr⟩
  · obtain ⟨q, -, heq⟩ := hp
    exact (findCrlf_eq_none (fun x hx => hdigits x (heq ▸ mem_append_left q hx))).1
  · cases p' with
    | nil => rw [append_nil]; exact (findCrlf_eq_none hdigits).1
    | cons _ p' =>
      rw [crlf, cons_append, cons.injEq] at hcr
      obtain ⟨rfl, hrest⟩ := hcr
      have hnil : p' = [] := by
        have hlen := congrArg length hrest
        have hpos := length_pos_iff.2 hq
        simp only [length_append, length_cons, length_nil] at hlen
        exact length_eq_zero_iff.1 (by omega)
      rw [hnil]
      exact (findCrlf_eq_none hdigits).2

namespace Cursor

lemma readLength_cut {n : ℕ} {p : Str} (h : Cut p (toDecimal n ++ crlf)) (pos : ℕ) (kind : String) :
    ∃ e, (⟨pos, p⟩ : Cursor).readLength kind = .error e := by
  unfold readLength
  rw [findCrlf_cut h]
  exact ⟨_, rfl⟩

lemma readBulk_cut {arg p : Str} (h : arg.length < 2 ^ 31) (hp : Cut p (encodeBulk arg)) (pos : ℕ) :
    ∃ e, (⟨pos, p⟩ : Cursor).readBulk = .error e := by
  have hbulk : encodeBulk arg = [36] ++ ((toDecimal arg.length ++ crlf) ++ (arg ++ crlf)) := by
    simp [encodeBulk]
  rw [hbulk] at hp
  rcases hp.append with hnone | ⟨p1, rfl, hp1⟩
  · have hnil : p = [] := length_eq_zero_iff.1 (by simpa using hnone.length_lt)
    rw [hnil]
    exact ⟨_, rfl⟩
  rw [readBulk, if_neg (by simp)]
  have hadvance : (Cursor.mk pos ([36] ++ p1)).advance 1 = ⟨pos + 1, p1⟩ := rfl
  rw [hadvance]
  rcases hp1.append with hheader | ⟨p2, rfl, hp2⟩
  · obtain ⟨e, he⟩ := readLength_cut hheader (pos + 1) "bulk"
    rw [he]
    exact ⟨e, rfl⟩
  rw [append_assoc, readLength_encode h]
  dsimp only
  rcases hp2.append with hpayload | ⟨p3, rfl, hp3⟩
  · rw [if_pos hpayload.length_lt]
    exact ⟨_, rfl⟩
  · have hshort : (p3.take 2).length < crlf.length := by
      have := hp3.length_lt
      rw [length_take]
      omega
    rw [if_neg (by simp), advance_append, if_pos (fun heq => by rw [heq] at hshort; omega)]
    exact ⟨_, rfl⟩

lemma readArgs_cut {args : List Str} (h : ∀ arg ∈ args, arg.length < 2 ^ 31) {p : Str}
    (hp : Cut p (args.flatMap encodeBulk)) (pos : ℕ) : ∃ e, readArgs args.length ⟨pos, p⟩ = .error e := by
  induction args generalizing p pos with
  | nil => exact absurd hp.length_lt (by simp)
  | cons arg _ ih =>
    have harg := h arg mem_cons_self
    rw [length_cons, readArgs]
    rcases hp.append with hbulk | ⟨p', rfl, hp'⟩
    · obtain ⟨e, he⟩ := readBulk_cut harg hbulk pos
      rw [he]
      exact ⟨e, rfl⟩
    · obtain ⟨e, he⟩ := ih (fun x hx => h x (mem_cons_of_mem arg hx)) hp' (pos + (encodeBulk arg).length)
      rw [readBulk_encode harg]
      dsimp only
      rw [he]
      exact ⟨e, rfl⟩

lemma parseTurn_cut {args : List Str} (h : Recordable args) {p : Str} (hne : p ≠ [])
    (hp : Cut p (encodeRespArray args)) (pos : ℕ) : ∃ e, (⟨pos, p⟩ : Cursor).parseTurn = .error e := by
  obtain ⟨-, hcount, hargs⟩ := h
  have harray : encodeRespArray args = [42] ++ ((toDecimal args.length ++ crlf) ++ args.flatMap encodeBulk) := by
    simp [encodeRespArray_eq]
  rw [harray] at hp
  rcases hp.append with hnone | ⟨p1, rfl, hp1⟩
  · exact absurd (length_eq_zero_iff.1 (by simpa using hnone.length_lt)) hne
  have hturn : (Cursor.mk pos ([42] ++ p1)).parseTurn = (Cursor.mk (pos + 1) p1).readArray := rfl
  rw [hturn, readArray]
  rcases hp1.append with hheader | ⟨p2, rfl, hp2⟩
  · obtain ⟨e, he⟩ := readLength_cut hheader (pos + 1) "array"
    rw [he]
    exact ⟨e, rfl⟩
  · obtain ⟨e, he⟩ := readArgs_cut hargs hp2 (pos + 1 + ((toDecimal args.length).length + 2))
    rw [append_assoc, readLength_encode hcount]
    dsimp only
    rw [he]
    exact ⟨e, rfl⟩

end Cursor

lemma encodeRespArray_pos (args : List Str) : 0 < (encodeRespArray args).length := by
  simp [encodeRespArray]

@[simp] lemma AofParseResult.parse_nil (fuel pos : ℕ) (commands : List (List Str)) :
    parse fuel ⟨pos, []⟩ commands = ⟨commands, none⟩ := by
  cases fuel <;> rfl

lemma AofParseResult.parse_cut (h : ∀ args ∈ cmds, Recordable args)
    (hp : writeAll encodeRespArray cmds = p ++ q) (pos fuel : ℕ) (commands : List (List Str))
    (hfuel : p.length ≤ fuel) :
    (parse fuel ⟨pos, p⟩ commands).commands = commands ++ whole encodeRespArray p.length cmds ∧
    ((parse fuel ⟨pos, p⟩ commands).error = none ↔ ∃ k, p = writeAll encodeRespArray (cmds.take k)) := by
  induction cmds generalizing p pos fuel commands with
  | nil =>
    obtain ⟨rfl, -⟩ := append_eq_nil_iff.1 hp.symm
    rw [parse_nil]
    exact ⟨by simp [whole], iff_of_true rfl ⟨0, rfl⟩⟩
  | cons args _ ih =>
    have hpos := encodeRespArray_pos args
    rcases cut_or_behind hp with hcut | ⟨p', rfl, hp'⟩
    · -- the cut goes through this command, or is right before it
      have hlt := hcut.length_lt
      rw [whole, if_neg (by omega), append_nil]
      by_cases hnil : p = []
      · rw [hnil, parse_nil]
        exact ⟨rfl, iff_of_true rfl ⟨0, rfl⟩⟩
      · obtain ⟨fuel, rfl⟩ : ∃ f, fuel = f + 1 :=
          Nat.exists_eq_succ_of_ne_zero (by have := length_pos_iff.2 hnil; omega)
        obtain ⟨e, he⟩ := Cursor.parseTurn_cut (h args mem_cons_self) hnil hcut pos
        rw [parse, if_neg hnil, he]
        refine ⟨rfl, iff_of_false (by simp) ?_⟩
        rintro ⟨k, rfl⟩
        cases k with
        | zero => exact hnil rfl
        | succ =>
          rw [take_succ_cons, writeAll_cons, length_append] at hlt
          omega
    · obtain ⟨fuel, rfl⟩ : ∃ f, fuel = f + 1 :=
        Nat.exists_eq_succ_of_ne_zero (by rw [length_append] at hfuel; omega)
      have hne : encodeRespArray args ++ p' ≠ [] := by simp [encodeRespArray]
      obtain ⟨hcommands, herror⟩ := ih (fun x hx => h x (mem_cons_of_mem args hx)) hp'
        (pos + (encodeRespArray args).length) fuel (commands ++ [args]) (by rw [length_append] at hfuel; omega)
      rw [parse, if_neg hne, Cursor.parseTurn_encode (h args mem_cons_self)]
      rw [hcommands, herror, length_append, whole, if_pos (by omega), Nat.add_sub_cancel_left]
      refine ⟨by rw [append_assoc]; rfl, ?_⟩
      constructor
      · rintro ⟨k, rfl⟩
        exact ⟨k + 1, rfl⟩
      · rintro ⟨k, hk⟩
        cases k with
        | zero => exact absurd hk hne
        | succ k => exact ⟨k, append_cancel_left hk⟩

/-- **A file that is cut loses the cut command only.** -/
theorem parseRespCommands_cut (cmds : List (List Str)) (h : ∀ args ∈ cmds, Recordable args) (p : Str)
    (hp : p <+: writeAll encodeRespArray cmds) : (∀ j args, (parseRespCommands p).commands[j]? = some args ↔
      cmds[j]? = some args ∧ (writeAll encodeRespArray (cmds.take (j + 1))).length ≤ p.length) ∧
    ((parseRespCommands p).error = none ↔ ∃ k, p = writeAll encodeRespArray (cmds.take k)) := by
  obtain ⟨q, hq⟩ := hp
  obtain ⟨hcommands, herror⟩ := AofParseResult.parse_cut h hq.symm 0 p.length [] le_rfl
  refine ⟨fun j args => ?_, herror⟩
  rw [parseRespCommands, hcommands, nil_append, getElem?_whole]

/-- `GET` and the beginning of a second command -/
theorem parseRespCommands_cut_second :
    (parseRespCommands (encodeRespArray [[71, 69, 84], [107]] ++ [42, 49])).commands[0]? = some [[71, 69, 84], [107]] :=
  ((parseRespCommands_cut [[[71, 69, 84], [107]], [[88]]] (by decide) _ (by decide)).1 0 [[71, 69, 84], [107]]).2
    (by decide)

end MaxRedis.Service

/-
Replies as a client reads them.

A client reads one value after the other from the connection (`readValue`). Errors, simple strings and numbers end with
their line; bulk strings and arrays give their length first.
-/
import MaxRedis.Service.Pipeline

namespace MaxRedis.Service

variable {s reply : Str}

open Kv Raft List

/-! ## The client -/

def readLine : Str → Option (Str × Str)
  | [] => none
  | c :: rest =>
    if c = 13 ∧ rest.head? = some 10 then some ([], rest.tail)
    else if c = 13 ∨ c = 10 then none
    else (readLine rest).map (fun p => (c :: p.1, p.2))

def times (f : Str → Option Str) : ℕ → Str → Option Str
  | 0, s => some s
  | n + 1, s => (f s).bind (times f n)

def isInteger (s : Str) : Bool :=
  let digits := if s.head? = some 45 then s.tail else s
  digits ≠ [] ∧ digits.all isDigit

def readBulk (len : Str) (rest : Str) : Option Str :=
  if len = [45, 49] then some rest
  else if len = [] ∨ ¬ len.all isDigit then none
  else if (rest.drop (digitsValue len)).take 2 ≠ crlf then none
  else some (rest.drop (digitsValue len + 2))

def readValue : ℕ → Str → Option Str
  | 0, _ => none
  | _ + 1, [] => none
  | depth + 1, kind :: s =>
    (readLine s).bind (fun p =>
      if kind = 43 ∨ kind = 45 then some p.2
      else if kind = 58 then if isInteger p.1 then some p.2 else none
      else if kind = 36 then readBulk p.1 p.2
      else if kind = 42 ∧ p.1 ≠ [] ∧ p.1.all isDigit then times (readValue depth) (digitsValue p.1) p.2
      else none)

def IsValue (depth : ℕ) (bytes : Str) : Prop := ∀ rest, readValue depth (bytes ++ rest) = some rest

def clean (s : Str) : Bool := s.all (fun c => c ≠ 13 ∧ c ≠ 10)

lemma readLine_clean {line : Str} (h : clean line) (rest : Str) :
    readLine (line ++ (crlf ++ rest)) = some (line, rest) := by
  induction line with
  | nil => rfl
  | cons _ _ ih =>
    simp only [clean, all_cons, Bool.and_eq_true, decide_eq_true_eq] at h
    rw [cons_append, readLine, if_neg (by tauto), if_neg (by tauto), ih (by simpa [clean] using h.2)]
    rfl

/-- A line with a line break in it is not read up to its end. -/
lemma clean_of_readLine {line rest l : Str} (h : readLine (line ++ (crlf ++ rest)) = some (l, rest)) : clean line := by
  induction line generalizing l with
  | nil => rfl
  | cons c line ih =>
    rw [cons_append, readLine] at h
    split_ifs at h with hend hbreak
    · have hlen := congrArg (fun p => p.2.length) (Option.some.inj h)
      simp [crlf] at hlen
      omega
    · obtain ⟨p, hp, heq⟩ := Option.map_eq_some_iff.1 h
      obtain ⟨p1, p2⟩ := p
      cases heq
      simp only [clean, all_cons, Bool.and_eq_true, decide_eq_true_eq]
      exact ⟨not_or.1 hbreak, ih hp⟩

lemma clean_append {s t : Str} : clean (s ++ t) ↔ clean s ∧ clean t := by
  simp [clean]

lemma clean_of_digits (h : s.all isDigit) : clean s := by
  rw [clean, all_eq_true]
  intro c hc
  have hdigit := isDigit_iff.1 (all_eq_true.1 h c hc)
  have hne : c ≠ 13 ∧ c ≠ 10 := by
    constructor <;> (rintro rfl; exact absurd hdigit.1 (by decide))
  simpa using hne

lemma digits_toDecimal (n : ℕ) : (toDecimal n).all isDigit :=
  all_eq_true.2 (fun _ hc => isDigit_of_mem_toDecimal hc)

section Values
variable {depth n : ℕ} {line : Str} {vs : List Str}

lemma isValue_line (kind : UInt8) (hkind : kind = 43 ∨ kind = 45) :
    IsValue (depth + 1) (kind :: line ++ crlf) ↔ clean line := by
  constructor
  · intro h
    have hread := h []
    rw [append_assoc, cons_append, readValue] at hread
    obtain ⟨⟨l, rest⟩, hline, hrest⟩ := Option.bind_eq_some_iff.1 hread
    rw [if_pos hkind] at hrest
    cases hrest
    exact clean_of_readLine hline
  · intro h rest
    rw [append_assoc, cons_append, readValue, readLine_clean h, Option.bind_some, if_pos hkind]

lemma isValue_int (h : isInteger line) : IsValue (depth + 1) (58 :: line ++ crlf) := by
  have hclean : clean line := by
    simp only [isInteger, decide_eq_true_eq] at h
    split_ifs at h with hminus
    · obtain ⟨tail, rfl⟩ := head?_eq_some_iff.1 hminus
      have := clean_of_digits h.2
      simpa [clean] using this
    · exact clean_of_digits h.2
  intro rest
  rw [append_assoc, cons_append, readValue, readLine_clean hclean, Option.bind_some, if_neg (by decide),
    if_pos rfl, if_pos h]

lemma isValue_bulk (s : Str) : IsValue (depth + 1) (36 :: toDecimal s.length ++ crlf ++ s ++ crlf) := by
  intro rest
  have hminus : toDecimal s.length ≠ [45, 49] := by
    intro heq
    have := digits_toDecimal s.length
    rw [heq] at this
    exact absurd this (by decide)
  have hdigits : ¬ (toDecimal s.length = [] ∨ ¬ (toDecimal s.length).all isDigit) :=
    not_or.2 ⟨toDecimal_ne_nil _, not_not.2 (digits_toDecimal _)⟩
  rw [append_assoc, append_assoc, append_assoc, cons_append, readValue,
    readLine_clean (clean_of_digits (digits_toDecimal _)), Option.bind_some, if_neg (by decide), if_neg (by decide),
    if_pos rfl, readBulk, if_neg hminus, if_neg hdigits, digitsValue_toDecimal, drop_left,
    if_neg (not_not.2 (take_left' (by rfl))), ← append_assoc, drop_left' (by simp [crlf])]

lemma isValue_null : IsValue (depth + 1) nullReply := fun _ => rfl

lemma times_values (h : ∀ v ∈ vs, IsValue depth v) (rest : Str) :
    times (readValue depth) vs.length (vs.flatten ++ rest) = some rest := by
  induction vs with
  | nil => rfl
  | cons v _ ih =>
    rw [length_cons, flatten_cons, append_assoc, times, h v mem_cons_self]
    exact ih (fun x hx => h x (mem_cons_of_mem v hx))

lemma isValue_array (h : ∀ v ∈ vs, IsValue depth v) :
    IsValue (depth + 1) (42 :: toDecimal vs.length ++ crlf ++ vs.flatten) := by
  intro rest
  rw [append_assoc, append_assoc, cons_append, readValue,
    readLine_clean (clean_of_digits (digits_toDecimal _)), Option.bind_some, if_neg (by decide), if_neg (by decide),
    if_neg (by decide), if_pos ⟨rfl, toDecimal_ne_nil _, digits_toDecimal _⟩, digitsValue_toDecimal]
  exact times_values h rest

end Values

/-! ## INFO and COMMAND -/

def bulk (s : Str) : Str := text "$" ++ toDecimal s.length ++ crlf ++ s ++ crlf

def array (vs : List Str) : Str := text "*" ++ toDecimal vs.length ++ crlf ++ vs.flatten

def number (n : ℤ) : Str := text ":" ++ (if n < 0 then text "-" else []) ++ toDecimal n.natAbs ++ crlf

structure CommandId where
  name : Str
  optMask : ℕ
  arity : ℤ
  firstKey : ℤ
  lastKey : ℤ
  stepKey : ℤ

def optNames : List (ℕ × Str) :=
  [(1, text "readonly"), (2, text "fast"), (4, text "write"), (8, text "loading"), (0x10, text "denyoom"),
    (0x20, text "stale"), (0x40, text "random")]

def commandIds : List CommandId :=
  [⟨text "PING", 0x22, -1, 0, 0, 0⟩, ⟨text "SET", 0x14, -3, 1, 1, 1⟩, ⟨text "GET", 3, 2, 1, 1, 1⟩,
    ⟨text "DEL", 4, -2, 1, 1, 1⟩, ⟨text "EXPIRE", 4, 3, 1, 1, 1⟩, ⟨text "SAVE", 0x24, 1, 0, 0, 0⟩,
    ⟨text "DEBUG", 0x41, -2, 0, 0, 0⟩, ⟨text "INFO", 0x29, -1, 0, 0, 0⟩, ⟨text "COMMAND", 0x68, 0, 0, 0, 0⟩]

namespace CommandId

def opts (cid : CommandId) : List Str := (optNames.filter (fun opt => cid.optMask &&& opt.1 ≠ 0)).map Prod.snd

def describe (cid : CommandId) : Str :=
  array [bulk cid.name, number cid.arity, array (cid.opts.map simpleReply), number cid.firstKey, number cid.lastKey,
    number cid.stepKey]

def docs (cid : CommandId) : List Str :=
  [bulk cid.name,
    array [bulk (text "summary"), bulk [], bulk (text "since"), bulk (text "1"), bulk (text "group"),
      bulk (text "generic"), bulk (text "arguments"), array [], bulk (text "subcommands"), array []]]

end CommandId

def commandInfo (order : List CommandId) (names : List Str) : Str :=
  array (names.map (fun name =>
    ((order.find? (fun cid => cid.name = (name.map upper).takeWhile (· ≠ 0))).map CommandId.describe).getD nullReply))

/-- `CommandRegistry::Command`; `order` is the order in which the table is traversed -/
def commandReply (order : List CommandId) (argv : List Str) : Str :=
  let subcmd := ((argv[1]?).getD []).map upper
  if subcmd = text "DOCS" then array (order.flatMap CommandId.docs)
  else if subcmd = text "INFO" then
    if argv.length = 2 then array (order.map CommandId.describe) else commandInfo order (argv.drop 2)
  else if subcmd = text "COUNT" then number order.length
  else if subcmd = text "GETKEYS" then errorReply (text "ERR unknown subcommand 'COMMAND GETKEYS'")
  else if subcmd ≠ [] then errorReply (text "ERR unknown subcommand 'COMMAND " ++ subcmd ++ text "'")
  else array (order.map CommandId.describe)

/-- what the engine answers to a command; its `blob` is taken as the lines of INFO -/
def ParsedCommand.serve (order : List CommandId) (e : Engine) (cmd : ParsedCommand) : Engine :=
  match cmd.lookup with
  | .ok .info => { e with blob := bulk e.blob }
  | .ok .command => { e with blob := commandReply order cmd.argv }
  | _ => e

section Texts
variable {depth : ℕ} {order : List CommandId} {s : Str} {cid : CommandId}

lemma isValue_simpleReply : IsValue (depth + 1) (simpleReply s) ↔ clean s := isValue_line 43 (Or.inl rfl)

lemma isValue_errorReply : IsValue (depth + 1) (errorReply s) ↔ clean s := by
  unfold errorReply
  split_ifs with hminus
  · obtain ⟨line, rfl⟩ := head?_eq_some_iff.1 (head?_eq_getElem?.trans hminus)
    exact (isValue_line 45 (Or.inr rfl)).trans (by simp [clean])
  · have hline : IsValue (depth + 1) (45 :: (text "ERR " ++ s) ++ crlf) ↔ clean (text "ERR " ++ s) :=
      isValue_line 45 (Or.inr rfl)
    exact hline.trans (clean_append.trans (and_iff_right (by decide)))

/-- an argument in the middle of a text of the server's own -/
lemma clean_between {before after : Str} (h : clean before ∧ clean after) :
    clean (before ++ s ++ after) ↔ clean s := by
  rw [clean_append, clean_append]
  exact ⟨fun hall => hall.1.2, fun hs => ⟨⟨h.1, hs⟩, h.2⟩⟩

lemma isValue_number (n : ℤ) : IsValue (depth + 1) (number n) := by
  have hint : isInteger ((if n < 0 then text "-" else []) ++ toDecimal n.natAbs) := by
    have hdigits : ∀ c ∈ toDecimal n.natAbs, isDigit c := fun c hc => isDigit_of_mem_toDecimal hc
    have hne := toDecimal_ne_nil n.natAbs
    split_ifs with hneg
    · have htext : text "-" = [45] := by decide
      simpa [isInteger, htext] using ⟨hne, hdigits⟩
    · have hhead : (toDecimal n.natAbs).head? ≠ some 45 := by
        intro heq
        exact absurd (isDigit_of_mem_toDecimal (mem_of_head? heq)) (by decide)
      simpa [isInteger, hhead] using ⟨hne, hdigits⟩
  exact isValue_int hint

lemma isValue_longReply (n : ℕ) : IsValue (depth + 1) (longReply n) := isValue_number n

/-- The length is cut to 32 bits: a longer string is read up to it at most. -/
lemma isValue_bulkReply : IsValue (depth + 1) (bulkReply s) ↔ s.length < 2 ^ 32 := by
  constructor
  · intro h
    have hread := h []
    have hdigits := digits_toDecimal (s.length % 2 ^ 32)
    have hbytes : bulkReply s ++ [] = 36 :: (toDecimal (s.length % 2 ^ 32) ++ (crlf ++ (s ++ crlf))) := by
      simp [bulkReply, show text "$" = [36] by decide]
    rw [hbytes, readValue, readLine_clean (clean_of_digits hdigits), Option.bind_some, if_neg (by decide),
      if_neg (by decide), if_pos rfl, readBulk] at hread
    split_ifs at hread with h1 h2 h3
    · simp [crlf] at hread
    · rw [digitsValue_toDecimal, Option.some_inj] at hread
      have hlen := congrArg length hread
      simp [crlf] at hlen
      omega
  · intro h
    rw [bulkReply, Nat.mod_eq_of_lt h]
    exact isValue_bulk s

lemma isValue_describe : IsValue (depth + 3) cid.describe := by
  have hopts : ∀ v ∈ cid.opts.map simpleReply, IsValue (depth + 1) v := by
    intro v hv
    obtain ⟨opt, hopt, rfl⟩ := mem_map.1 hv
    obtain ⟨p, hp, rfl⟩ := mem_map.1 hopt
    have hclean : ∀ p ∈ optNames, clean p.2 := by decide
    exact isValue_simpleReply.2 (hclean p (mem_of_mem_filter hp))
  apply isValue_array
  simp only [forall_mem_cons, not_mem_nil, false_imp_iff, implies_true, and_true]
  exact ⟨isValue_bulk _, isValue_number _, isValue_array hopts, isValue_number _, isValue_number _, isValue_number _⟩

lemma isValue_docs {v : Str} (h : v ∈ cid.docs) : IsValue (depth + 3) v := by
  have hspecs : ∀ w ∈ [bulk (text "summary"), bulk [], bulk (text "since"), bulk (text "1"), bulk (text "group"),
      bulk (text "generic"), bulk (text "arguments"), array [], bulk (text "subcommands"), array []],
      IsValue (depth + 2) w := by
    simp only [forall_mem_cons, not_mem_nil, false_imp_iff, implies_true, and_true]
    have hempty : IsValue (depth + 2) (array []) := isValue_array (by simp)
    exact ⟨isValue_bulk _, isValue_bulk _, isValue_bulk _, isValue_bulk _, isValue_bulk _, isValue_bulk _,
      isValue_bulk _, hempty, isValue_bulk _, hempty⟩
  rcases mem_pair.1 h with rfl | rfl
  · exact isValue_bulk _
  · exact isValue_array hspecs

lemma clean_upper : clean (s.map upper) ↔ clean s := by
  rw [clean, clean, all_map, all_eq_true, all_eq_true]
  refine forall₂_congr (fun c _ => ?_)
  simp only [Function.comp_apply]
  unfold upper
  split_ifs with hletter
  · grind
  · rfl

lemma isValue_commandReply {argv : List Str} :
    IsValue 4 (commandReply order argv) ↔ clean ((argv[1]?).getD []) := by
  have hall : IsValue 4 (array (order.map CommandId.describe)) := by
    apply isValue_array
    intro v hv
    obtain ⟨cid, -, rfl⟩ := mem_map.1 hv
    exact isValue_describe
  rw [← clean_upper]
  unfold commandReply
  dsimp only
  split_ifs with hdocs hinfo hone hcount hkeys hsome
  · refine iff_of_true (isValue_array fun v hv => ?_) (by rw [hdocs]; decide)
    obtain ⟨cid, -, hv⟩ := mem_flatMap.1 hv
    exact isValue_docs hv
  · exact iff_of_true hall (by rw [hinfo]; decide)
  · refine iff_of_true (isValue_array fun v hv => ?_) (by rw [hinfo]; decide)
    obtain ⟨name, -, rfl⟩ := mem_map.1 hv
    cases order.find? (fun cid => cid.name = (name.map upper).takeWhile (· ≠ 0)) with
    | none => exact isValue_null
    | some => exact isValue_describe
  · exact iff_of_true (isValue_number _) (by rw [hcount]; decide)
  · exact iff_of_true (isValue_errorReply.2 (by decide)) (by rw [hkeys]; decide)
  · exact isValue_errorReply.trans (clean_between (by decide))
  · exact iff_of_true hall (by rw [not_not.1 hsome]; rfl)

end Texts

/-! ## Replies -/

/-- the argument that stands in the reply as a part of a line -/
def ParsedCommand.lineText (cmd : ParsedCommand) : Str :=
  match cmd.lookup with
  | .error _ => (cmd.argv.head?).getD []
  | .ok .ping => if cmd.argv.length > 2 then [] else (cmd.argv[1]?).getD []
  | .ok .command => (cmd.argv[1]?).getD []
  | .ok _ => []

lemma isValue_writeReply {e : Engine} {depth : ℕ} (h : IsValue (depth + 1) reply) :
    IsValue (depth + 1) (writeReply e reply) := by
  unfold writeReply
  split_ifs
  · exact isValue_errorReply.2 (by decide)
  · exact h

lemma clean_lookup {cmd : ParsedCommand} {msg : Str} (h : cmd.lookup = .error msg) :
    clean msg ↔ clean ((cmd.argv.head?).getD []) := by
  unfold ParsedCommand.lookup at h
  dsimp only at h
  split at h
  · cases h
    exact clean_between (by decide)
  · split_ifs at h
    cases h
    exact clean_between (by decide)

lemma isValue_handle (order : List CommandId) (e : Engine) {cmd : ParsedCommand} {handler : Handler}
    (hlookup : cmd.lookup = .ok handler) (hdebug : cmd.runsDebug = false)
    (h : handle (cmd.serve order e) cmd.argv handler = some reply) : IsValue 4 reply ↔ clean cmd.lineText := by
  -- the replies that are made of no argument
  have hfixed : cmd.lineText = [] → IsValue 4 reply → (IsValue 4 reply ↔ clean cmd.lineText) :=
    fun hnone hvalue => iff_of_true hvalue (by rw [hnone]; rfl)
  have hother : handler ≠ .ping → handler ≠ .command → cmd.lineText = [] := by
    intro hping hcommand
    rw [ParsedCommand.lineText, hlookup]
    cases handler with
    | ping => exact absurd rfl hping
    | command => exact absurd rfl hcommand
    | _ => rfl
  cases handler with
  | ping =>
    rw [handle] at h
    rw [ParsedCommand.lineText, hlookup]
    split_ifs at h with hmany <;> cases h
    · exact iff_of_true (isValue_errorReply.2 (by decide)) (by simp [hmany, clean])
    · simp only [hmany, if_false]
      cases cmd.argv[1]? with
      | none => exact iff_of_true (isValue_simpleReply.2 (by decide)) rfl
      | some => exact isValue_simpleReply
  | set =>
    cases h
    exact hfixed (hother (by simp) (by simp)) (isValue_writeReply (isValue_simpleReply.2 (by decide)))
  | get =>
    rw [handle] at h
    split_ifs at h
    cases h
    exact hfixed (hother (by simp) (by simp)) (isValue_errorReply.2 (by decide))
  | del =>
    cases h
    exact hfixed (hother (by simp) (by simp)) (isValue_writeReply (isValue_longReply _))
  | expire =>
    rw [handle] at h
    split_ifs at h <;> cases h
    · exact hfixed (hother (by simp) (by simp)) (isValue_errorReply.2 (by decide))
    · exact hfixed (hother (by simp) (by simp)) (isValue_writeReply (isValue_longReply _))
  | save =>
    cases h
    refine hfixed (hother (by simp) (by simp)) ?_
    by_cases hsaved : (cmd.serve order e).saved
    · rw [if_pos hsaved]
      exact isValue_simpleReply.2 (by decide)
    · rw [if_neg hsaved]
      exact isValue_errorReply.2 (by decide)
  | debug =>
    rw [ParsedCommand.runsDebug, hlookup] at hdebug
    cases hdebug
  | info =>
    have hserve : cmd.serve order e = { e with blob := bulk e.blob } := by rw [ParsedCommand.serve, hlookup]
    rw [hserve] at h
    cases h
    exact hfixed (hother (by simp) (by simp)) (isValue_bulk _)
  | command =>
    have hserve : cmd.serve order e = { e with blob := commandReply order cmd.argv } := by
      rw [ParsedCommand.serve, hlookup]
    rw [hserve] at h
    cases h
    rw [ParsedCommand.lineText, hlookup]
    exact isValue_commandReply

/-- **The reply to a command is one value** exactly if the argument that it has in a line has no line break, for what is
answered at once, and exactly if the value is shorter than 2^32 bytes, for what a shard answers to a GET. -/
theorem replies_are_values (order : List CommandId) (e : Engine) (cmd : ParsedCommand)
    (hdebug : cmd.runsDebug = false) :
    (∀ reply, (cmd.dispatchCommand (cmd.serve order e)).2 = some reply → (IsValue 4 reply ↔ clean cmd.lineText)) ∧
    ((cmd.dispatchCommand (cmd.serve order e)).2 = none → ∀ (value : Option Str) (reply : Str),
      ((value.map Response.bulk).getD .null).reply = some reply →
        (IsValue 4 reply ↔ ∀ v ∈ value, v.length < 2 ^ 32)) := by
  constructor
  · intro reply h
    unfold ParsedCommand.dispatchCommand at h
    cases hlookup : cmd.lookup with
    | error =>
      rw [hlookup] at h
      cases h
      rw [isValue_errorReply, clean_lookup hlookup, ParsedCommand.lineText, hlookup]
    | ok handler =>
      rw [hlookup] at h
      dsimp only at h
      split at h
      · rename_i hhandle
        exact isValue_handle order e hlookup hdebug (hhandle.trans h)
      · cases h
  · intro _ value reply hreply
    cases value with
    | none =>
      cases hreply
      exact iff_of_true isValue_null (by simp)
    | some v =>
      cases hreply
      simpa using isValue_bulkReply

def commandOf (args : List String) : ParsedCommand where
  tokens := args.map (fun s => some (text s))
  parseComplete := true

def answerTo (args : List String) : Option Str :=
  ((commandOf args).dispatchCommand ((commandOf args).serve commandIds {})).2

/-- an unknown command, the argument of a PING, and a GET of a value with a line break -/
theorem replies_are_values_three :
    (answerTo ["foo"] = some (text "-ERR unknown command \x60FOO\x60\r\n") ∧
      IsValue 4 (text "-ERR unknown command \x60FOO\x60\r\n")) ∧
    (answerTo ["PING", "hi"] = some (text "+hi\r\n") ∧ IsValue 4 (text "+hi\r\n")) ∧
    (answerTo ["GET", "k"] = none ∧ IsValue 4 (text "$2\r\n\r\n\r\n")) := by
  have hfoo : answerTo ["foo"] = some (text "-ERR unknown command \x60FOO\x60\r\n") := by decide +kernel
  have hping : answerTo ["PING", "hi"] = some (text "+hi\r\n") := by decide +kernel
  have hget : answerTo ["GET", "k"] = none := by decide +kernel
  refine ⟨⟨hfoo, ?_⟩, ⟨hping, ?_⟩, hget, ?_⟩
  · exact ((replies_are_values commandIds {} (commandOf ["foo"]) (by decide +kernel)).1 _ hfoo).2 (by decide +kernel)
  · exact ((replies_are_values commandIds {} (commandOf ["PING", "hi"]) (by decide +kernel)).1 _ hping).2
      (by decide +kernel)
  · exact ((replies_are_values commandIds {} (commandOf ["GET", "k"]) (by decide +kernel)).2 hget (some crlf) _
      (by decide +kernel)).2 (by simp [crlf])

/-! ## The connection -/

namespace InputLoop

def serve (order : List CommandId) (s : InputLoop) : LoopEvent → LoopEvent
  | .dispatch e => .dispatch ((s.conn.cc.toExecute.head?.map (ParsedCommand.serve order e)).getD e)
  | e => e

def serveStep (order : List CommandId) (s : InputLoop) (e : LoopEvent) : InputLoop := s.step (s.serve order e)

def oneCommand (chunk : Str) : InputLoop :=
  Run.run (serveStep commandIds) {} [.read chunk, .dispatch {}, .dispatch {}, .reply, .reply]

/-- An argument of PING, an unknown name and an unknown subcommand of COMMAND with a line break: there is one command,
and the client reads a value and has bytes left. -/
theorem reply_injected : [text "*2\r\n$4\r\nPING\r\n$5\r\na\r\n+b\r\n", text "*1\r\n$4\r\nA\r\nB\r\n",
      text "*2\r\n$7\r\nCOMMAND\r\n$3\r\n\r\nX\r\n"].Forall (fun chunk =>
    (oneCommand chunk).conn.cc.completed.length = 1 ∧ (oneCommand chunk).conn.cc.replying = [] ∧
      (oneCommand chunk).conn.cc.toExecute = [] ∧ ¬ IsValue 4 (oneCommand chunk).conn.cc.serializer.sent) := by
  have hend : ∀ chunk ∈ [text "*2\r\n$4\r\nPING\r\n$5\r\na\r\n+b\r\n", text "*1\r\n$4\r\nA\r\nB\r\n",
        text "*2\r\n$7\r\nCOMMAND\r\n$3\r\n\r\nX\r\n"],
      (oneCommand chunk).conn.cc.completed.length = 1 ∧ (oneCommand chunk).conn.cc.replying = [] ∧
      (oneCommand chunk).conn.cc.toExecute = [] ∧ readValue 4 (oneCommand chunk).conn.cc.serializer.sent ≠ some [] := by
    decide +kernel
  refine forall_iff_forall_mem.2 (fun chunk hchunk => ?_)
  obtain ⟨hone, hreplying, hrest, hread⟩ := hend chunk hchunk
  refine ⟨hone, hreplying, hrest, fun hvalue => hread ?_⟩
  have := hvalue []
  rwa [append_nil] at this

end InputLoop

end MaxRedis.Service

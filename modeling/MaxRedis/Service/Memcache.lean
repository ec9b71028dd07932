/-
Connections that speak the memcache protocol (`memcache_parser.cc`, `Connection::ParseMemcache`).
-/
import MaxRedis.Core.Run
import MaxRedis.Service.Parser

namespace MaxRedis.Service

open Kv List

namespace MemcacheParser

variable (tokens : List Str)

inductive CmdType where
  | invalid
  | set
  | add
  | replace
  | append
  | prepend
  | cas
  | get
  | gets
  | gat
  | gats
  deriving DecidableEq

structure Command where
  type : CmdType := .invalid
  key : Str := []
  keysExt : List Str := []
  casUnique : ℕ := 0
  expireTs : ℕ := 0
  bytesLen : ℕ := 0
  flags : ℕ := 0
  noReply : Bool := false
  deriving DecidableEq

inductive Refusal where
  | inputPending
  | unknownCmd
  | badInt
  | parseError
  deriving DecidableEq

def cmdMap : List (Str × CmdType) :=
  [(text "set", .set), (text "add", .add), (text "replace", .replace), (text "append", .append),
    (text "prepend", .prepend), (text "cas", .cas), (text "get", .get), (text "gets", .gets), (text "gat", .gat),
    (text "gats", .gats)]

def fromToken (token : Str) : CmdType := (cmdMap.lookup token).getD .invalid

def isStoreCmd : CmdType → Bool
  | .set | .add | .replace | .append | .prepend | .cas => true
  | _ => false

def simpleAtou (bits : ℕ) (s : Str) : Option ℕ :=
  match (s.dropWhile isSpace).rdropWhile isSpace with
  | [] => none
  | c :: cs =>
    let digits := if c = 43 then cs else c :: cs
    if digits = [] ∨ ¬ digits.all isDigit then none
    else if digitsValue digits < 2 ^ bits then some (digitsValue digits) else none

def parseStore (tokens : List Str) (res : Command) : Except Refusal Command :=
  let optPos := if res.type = .cas then 4 else 3
  let casUnique := if res.type = .cas then simpleAtou 64 ((tokens[3]?).getD []) else some res.casUnique
  if res.type = .cas ∧ tokens.length ≤ 3 then .error .parseError
  else
    match simpleAtou 32 ((tokens[0]?).getD []), simpleAtou 32 ((tokens[1]?).getD []),
      simpleAtou 32 ((tokens[2]?).getD []), casUnique with
    | some flags, some expireTs, some bytesLen, some casUnique =>
      if flags > 0xFFFF then .error .badInt
      else
        let res := { res with flags := flags, expireTs := expireTs, bytesLen := bytesLen, casUnique := casUnique }
        if tokens.length = optPos + 1 then
          if tokens[optPos]? = some (text "noreply") then .ok { res with noReply := true } else .error .parseError
        else if tokens.length > optPos + 1 then .error .parseError
        else .ok res
    | _, _, _, _ => .error .badInt

def parseRetrieve (tokens : List Str) (res : Command) : Except Refusal Command :=
  if res.type = .gat ∨ res.type = .gats then
    match simpleAtou 32 ((tokens[0]?).getD []) with
    | none => .error .badInt
    | some expireTs =>
      .ok { res with expireTs := expireTs, key := (tokens[1]?).getD [], keysExt := res.keysExt ++ tokens.drop 2 }
  else .ok { res with key := (tokens[0]?).getD [], keysExt := res.keysExt ++ tokens.drop 1 }

/-- The tokens of a line, of which `token` is being read and `room` may still follow, and the rest of the line behind
the last that fits. -/
def scan : ℕ → Str → Str → List Str × Str
  | _, _, [] => ([], [])
  | room, token, c :: rest =>
    if c = 32 ∨ c = 13 then
      if token = [] then scan room [] rest
      else if room = 1 then ([token], rest)
      else (token :: (scan (room - 1) [] rest).1, (scan (room - 1) [] rest).2)
    else scan room (token ++ [c]) rest

/-- the first part of `Parse`: the bytes that are consumed, and the tokens of the line -/
def tokenize (str : Str) : ℕ × Except Refusal (List Str) :=
  match find 10 str with
  | none => (0, .error (if str.length > 300 then .parseError else .inputPending))
  | some pos =>
    if pos = 0 ∨ str[pos - 1]? ≠ some 13 then (0, .error .parseError)
    else
      let (tokens, left) := scan 8 [] (str.take pos)
      (pos + 1, if tokens = [] ∨ ¬ left.dropLast.all (· = 32) then .error .parseError else .ok tokens)

def parseTokens (tokens : List Str) (res : Command) : Except Refusal Command :=
  let res := { res with type := fromToken ((tokens[0]?).getD []) }
  if res.type = .invalid then .error .unknownCmd
  else if isStoreCmd res.type then
    let key := (tokens[1]?).getD []
    if tokens.length < 5 ∨ key.length > 250 then .error .parseError
    else parseStore (tokens.drop 2) { res with key := key }
  else parseRetrieve (tokens.drop 1) res

def parse (str : Str) (res : Command) : ℕ × Except Refusal Command :=
  ((tokenize str).1, (tokenize str).2.bind (parseTokens · res))

/-! ## One line after another -/

def Command.relevant (cmd : Command) : Command :=
  if isStoreCmd cmd.type then { cmd with keysExt := [], casUnique := if cmd.type = .cas then cmd.casUnique else 0 }
  else if cmd.type = .gat ∨ cmd.type = .gats then
    { type := cmd.type, key := cmd.key, keysExt := cmd.keysExt, expireTs := cmd.expireTs }
  else { type := cmd.type, key := cmd.key, keysExt := cmd.keysExt }

def storeLength (type : CmdType) : ℕ := if type = .cas then 6 else 5

/-- what is left of an earlier command shows in that of the line: its `no_reply` in a store line without that token, its
additional keys in a retrieval -/
def Command.shows (prev : Command) (tokens : List Str) : Bool :=
  let type := fromToken ((tokens[0]?).getD [])
  if isStoreCmd type then prev.noReply && tokens.length ≠ storeLength type + 1 else prev.keysExt ≠ []

def keyless (tokens : List Str) : Bool :=
  match fromToken ((tokens[0]?).getD []) with
  | .get | .gets => tokens.length < 2
  | .gat | .gats => tokens.length < 3
  | _ => false

/-- the command that is left when one that was parsed into a new object is parsed over `prev` instead -/
def Command.over (cmd prev : Command) : Command :=
  if isStoreCmd cmd.type then
    { cmd with
      keysExt := prev.keysExt, noReply := prev.noReply || cmd.noReply
      casUnique := if cmd.type = .cas then cmd.casUnique else prev.casUnique }
  else
    { prev with
      type := cmd.type, key := cmd.key, keysExt := prev.keysExt ++ cmd.keysExt
      expireTs := if cmd.type = .gat ∨ cmd.type = .gats then cmd.expireTs else prev.expireTs }

variable {type : CmdType} {prev cmd : Command}

lemma parseStore_over (hstore : isStoreCmd type) (key : Str) :
    parseStore tokens { prev with type := type, key := key } =
      (parseStore tokens { type := type, key := key }).map (·.over prev) := by
  unfold parseStore
  generalize simpleAtou 32 ((tokens[0]?).getD []) = flags, simpleAtou 32 ((tokens[1]?).getD []) = expireTs,
    simpleAtou 32 ((tokens[2]?).getD []) = bytesLen, simpleAtou 64 ((tokens[3]?).getD []) = casUnique
  -- the numbers are read first, and all failures are the same
  cases flags <;> cases expireTs <;> cases bytesLen <;> try (split_ifs <;> rfl)
  by_cases hcas : type = .cas
  · cases casUnique <;> simp only [hcas, if_true, true_and] <;> split_ifs <;>
      simp [Except.map, Command.over, isStoreCmd]
  · simp only [hcas, if_false, false_and]
    split_ifs <;> simp [Except.map, Command.over, hstore, hcas]

lemma parseRetrieve_over (hstore : ¬ isStoreCmd type) :
    parseRetrieve tokens { prev with type := type } = (parseRetrieve tokens { type := type }).map (·.over prev) := by
  unfold parseRetrieve
  dsimp only
  split_ifs with hgat
  · cases simpleAtou 32 ((tokens[0]?).getD []) with
    | none => rfl
    | some => simp [Except.map, Command.over, hstore, hgat]
  · simp [Except.map, Command.over, hstore, hgat]

lemma parseTokens_over : parseTokens tokens prev = (parseTokens tokens {}).map (·.over prev) := by
  unfold parseTokens
  dsimp only
  split_ifs with hinvalid hstore hargs
  · rfl
  · rfl
  · exact parseStore_over _ hstore _
  · exact parseRetrieve_over _ hstore

lemma relevant_over : (cmd.over prev).relevant = cmd.relevant ↔
    if isStoreCmd cmd.type then prev.noReply → cmd.noReply else prev.keysExt = [] := by
  unfold Command.over Command.relevant
  by_cases hstore : isStoreCmd cmd.type
  · simp only [hstore, if_true]
    split_ifs <;> simp [Bool.or_eq_right_iff_imp]
  · by_cases hgat : cmd.type = .gat ∨ cmd.type = .gats <;> simp [hstore, hgat]

lemma scan_ne_nil {room : ℕ} {token rest t : Str} (h : t ∈ (scan room token rest).1) : t ≠ [] := by
  induction rest generalizing room token with
  | nil => cases h
  | cons _ _ ih =>
    rw [scan] at h
    split_ifs at h with hsep htoken hroom
    · exact ih h
    · rw [mem_singleton.1 h]
      exact htoken
    · rcases mem_cons.1 h with rfl | h
      · exact htoken
      · exact ih h
    · exact ih h

lemma tokenize_ne_nil {str : Str} {tokens : List Str} (h : (tokenize str).2 = .ok tokens) : ∀ t ∈ tokens, t ≠ [] := by
  unfold tokenize at h
  split at h
  · cases h
  · dsimp only at h
    split_ifs at h
    cases h
    exact fun t ht => scan_ne_nil ht

lemma parseStore_reply {tokens : List Str} {res cmd : Command} (h : parseStore tokens res = .ok cmd) :
    cmd.type = res.type ∧ cmd.noReply = (res.noReply || tokens.length + 2 = storeLength res.type + 1) := by
  unfold parseStore at h
  by_cases hcas : res.type = .cas ∧ tokens.length ≤ 3
  · rw [if_pos hcas] at h
    cases h
  · rw [if_neg hcas] at h
    unfold storeLength
    split at h
    · split_ifs at h ⊢ <;> cases h <;> simp_all
    · cases h

lemma parseTokens_reply (h : parseTokens tokens {} = .ok cmd) : cmd.type = fromToken ((tokens[0]?).getD []) ∧
    (isStoreCmd cmd.type → cmd.noReply = (tokens.length = storeLength cmd.type + 1 : Bool)) := by
  unfold parseTokens at h
  dsimp only at h
  split_ifs at h with hinvalid hstore hargs
  · obtain ⟨htype, hreply⟩ := parseStore_reply h
    have hlen : (tokens.drop 2).length + 2 = tokens.length := by
      rw [length_drop]
      omega
    rw [hlen] at hreply
    exact ⟨htype, fun _ => by rw [hreply, htype]; rfl⟩
  · unfold parseRetrieve at h
    split_ifs at h
    · split at h
      · cases h
      · cases h
        exact ⟨rfl, fun hs => absurd hs hstore⟩
    · cases h
      exact ⟨rfl, fun hs => absurd hs hstore⟩

lemma parseTokens_key (hne : ∀ t ∈ tokens, t ≠ []) (h : parseTokens tokens prev = .ok cmd) :
    (isStoreCmd cmd.type = false → cmd.key ≠ []) ↔ keyless tokens = false := by
  have hget : ∀ i, (tokens[i]?).getD [] = [] ↔ tokens.length ≤ i := by
    intro i
    by_cases hi : i < tokens.length
    · rw [getElem?_eq_getElem hi]
      exact ⟨fun h => absurd h (hne _ (getElem_mem hi)), fun h => absurd h (not_le.2 hi)⟩
    · simp [not_lt.1 hi]
  unfold parseTokens at h
  dsimp only at h
  split_ifs at h with hinvalid hs hargs
  · rw [(parseStore_reply h).1]
    unfold keyless
    generalize fromToken ((tokens[0]?).getD []) = type at hs
    cases type <;> simp_all [isStoreCmd]
  · unfold keyless
    unfold parseRetrieve at h
    generalize fromToken ((tokens[0]?).getD []) = type at *
    rw [getElem?_drop, getElem?_drop] at h
    split_ifs at h with hgat
    · split at h
      · cases h
      · cases h
        rcases hgat with rfl | rfl <;> simp [isStoreCmd, hget, Nat.succ_le_iff]
    · cases h
      cases type <;> simp_all [isStoreCmd]

/-- **What a line is parsed to is determined by its tokens**, and a retrieval has a key, exactly when nothing of the
command `prev` that it is filled over shows and the key is there; `str` and `str'` have the same tokens. -/
theorem parse_independent {str str' : Str} {tokens : List Str} (h : (tokenize str).2 = .ok tokens)
    (h' : (tokenize str').2 = .ok tokens) {prev cmd : Command} (hcmd : (parse str prev).2 = .ok cmd) :
    ((∃ cmd', (parse str' {}).2 = .ok cmd' ∧ cmd'.relevant = cmd.relevant) ∧
      (isStoreCmd cmd.type = false → cmd.key ≠ [])) ↔ prev.shows tokens = false ∧ keyless tokens = false := by
  have hparse : parseTokens tokens prev = .ok cmd := by
    rw [parse, h] at hcmd
    exact hcmd
  cases hnew : parseTokens tokens {} with
  | error =>
    rw [parseTokens_over, hnew] at hparse
    cases hparse
  | ok new =>
    have hover : new.over prev = cmd := by
      rw [parseTokens_over, hnew] at hparse
      exact Except.ok.inj hparse
    have hsame : (∃ cmd', (parse str' {}).2 = .ok cmd' ∧ cmd'.relevant = cmd.relevant) ↔
        prev.shows tokens = false := by
      obtain ⟨htype, hreply⟩ := parseTokens_reply tokens hnew
      have heq : (parse str' {}).2 = .ok new := by
        rw [parse, h']
        exact hnew
      rw [heq, ← hover]
      simp only [Except.ok.injEq, exists_eq_left', eq_comm (a := new.relevant), relevant_over, Command.shows, ← htype]
      split_ifs with hstore
      · rw [hreply hstore]
        simp
      · simp
    rw [hsame, parseTokens_key tokens (tokenize_ne_nil h) hparse]

/-- a retrieval over what a store has left, in two spellings -/
theorem parse_independent_gets :
    (parse (text " gets  a b \r\n") { type := .set, key := text "k", flags := 7, noReply := true }).2 =
      .ok { type := .gets, key := text "a", keysExt := [text "b"], flags := 7, noReply := true } ∧
    ∃ cmd, (parse (text "gets a b\r\n") {}).2 = .ok cmd ∧
      cmd.relevant = { type := .gets, key := text "a", keysExt := [text "b"] } := by
  have hcmd : (parse (text " gets  a b \r\n") { type := .set, key := text "k", flags := 7, noReply := true }).2 =
      .ok { type := .gets, key := text "a", keysExt := [text "b"], flags := 7, noReply := true } := by decide +kernel
  have htokens : (tokenize (text " gets  a b \r\n")).2 = .ok [text "gets", text "a", text "b"] ∧
      (tokenize (text "gets a b\r\n")).2 = .ok [text "gets", text "a", text "b"] := by decide +kernel
  exact ⟨hcmd, ((parse_independent htokens.1 htokens.2 hcmd).2 ⟨by decide +kernel, by decide +kernel⟩).1⟩

/-- A GETS behind one with two keys has the second key of the other, a SET behind one with `noreply` has that flag, and
a GET needs no key. -/
theorem parse_leftover :
    (parse (text "gets c\r\n") { type := .gets, key := text "a", keysExt := [text "b"] }).2 =
      .ok { type := .gets, key := text "c", keysExt := [text "b"] } ∧
    (parse (text "gets c\r\n") {}).2 = .ok { type := .gets, key := text "c" } ∧
    (parse (text "set k 0 0 1\r\n") { noReply := true }).2 =
      .ok { type := .set, key := text "k", bytesLen := 1, noReply := true } ∧
    (parse (text "set k 0 0 1\r\n") {}).2 = .ok { type := .set, key := text "k", bytesLen := 1 } ∧
    (parse (text "get\r\n") {}).2 = .ok { type := .get } := by decide +kernel

end MemcacheParser

/-! ## The connection -/

open MemcacheParser

/-- a memcache connection; `dispatched` records the calls of `DispatchMC` -/
structure McConnection where
  ioBuf : Str := []
  status : ParserStatus := .ok
  sink : Str := []
  dispatched : List (Command × Str) := []
  deriving DecidableEq

namespace McConnection

def dispatchMC (c : McConnection) (cmd : Command) (value : Str) : McConnection :=
  let c := { c with dispatched := c.dispatched ++ [(cmd, value)] }
  match cmd.type with
  | .replace | .set | .add | .get => { c with status := .checkFailed }
  | _ => { c with sink := c.sink ++ text "CLIENT_ERROR" ++ text "bad command line format" ++ crlf }

/-- the loop of `ParseMemcache`; `cmd` and `value` are kept from one turn to the next -/
def parseLoop : ℕ → Command → Str → McConnection → McConnection
  | 0, _, _, c => c
  | fuel + 1, cmd, value, c =>
    match parse c.ioBuf cmd with
    | (consumed, .error r) =>
      { c with ioBuf := c.ioBuf.drop consumed, status := if r = .inputPending then .needMore else .error }
    | (consumed, .ok cmd) =>
      if isStoreCmd cmd.type ∧ c.ioBuf.length < consumed + (cmd.bytesLen + 2) % 2 ^ 32 then
        { c with status := .needMore }
      else
        let value := if isStoreCmd cmd.type then (c.ioBuf.drop consumed).take cmd.bytesLen else value
        let c := if c.ioBuf.length ≤ consumed then c.dispatchMC cmd value else c
        if c.status = .checkFailed then c else parseLoop fuel cmd value { c with ioBuf := c.ioBuf.drop consumed }

def parseMemcache (c : McConnection) : McConnection := parseLoop (c.ioBuf.length + 1) {} [] c

def feed (c : McConnection) (chunk : Str) : McConnection :=
  if c.status = .error ∨ c.status = .checkFailed then c else parseMemcache { c with ioBuf := c.ioBuf ++ chunk }

abbrev feedAll (c : McConnection) (chunks : List Str) : McConnection := Run.run feed c chunks

end McConnection

/-! ## Retrieval commands -/

def tokenByte (b : UInt8) : Bool := b ≠ 32 ∧ b ≠ 13 ∧ b ≠ 10

structure Retrieval where
  type : CmdType
  expireTs : ℕ
  key : Str
  type_eq : type = .get ∨ type = .gets ∨ type = .gat ∨ type = .gats
  time_lt : expireTs < 2 ^ 32
  key_ne : key ≠ []
  key_bytes : key.all tokenByte

namespace Retrieval

def timed (r : Retrieval) : Bool := r.type = .gat ∨ r.type = .gats

def name (r : Retrieval) : Str := ((cmdMap.find? (fun p => p.2 = r.type)).map Prod.fst).getD []

def tokens (r : Retrieval) : List Str :=
  if r.timed then [r.name, toDecimal r.expireTs, r.key] else [r.name, r.key]

def command (r : Retrieval) : Command :=
  { type := r.type, key := r.key, expireTs := if r.timed then r.expireTs else 0 }

end Retrieval

def joined : List Str → Str
  | [] => [13]
  | [t] => t ++ [13]
  | t :: ts => t ++ 32 :: joined ts

def Retrieval.line (r : Retrieval) : Str := joined r.tokens ++ [10]

section Line
variable {r : Retrieval} {tokens : List Str}

lemma scan_token {token : Str} (h : token.all tokenByte) (room : ℕ) (acc rest : Str) :
    scan room acc (token ++ rest) = scan room (acc ++ token) rest := by
  induction token generalizing acc with
  | nil => rw [nil_append, append_nil]
  | cons b _ ih =>
    rw [all_cons, Bool.and_eq_true] at h
    have hb : ¬ (b = 32 ∨ b = 13) := by
      have := h.1
      simp only [tokenByte, decide_eq_true_eq] at this
      tauto
    rw [cons_append, scan, if_neg hb, ih h.2, append_assoc, singleton_append]

lemma scan_joined (h : ∀ t ∈ tokens, t ≠ [] ∧ t.all tokenByte) {room : ℕ}
    (hroom : tokens.length ≤ room) : scan room [] (joined tokens) = (tokens, []) := by
  induction tokens generalizing room with
  | nil => rfl
  | cons _ ts ih =>
    obtain ⟨⟨hne, hbytes⟩, hts⟩ := forall_mem_cons.1 h
    cases ts with
    | nil =>
      rw [joined, scan_token hbytes, nil_append, scan, if_pos (Or.inr rfl), if_neg hne]
      split_ifs <;> rfl
    | cons =>
      have hlen : ¬ room = 1 := by
        simp only [length_cons] at hroom
        omega
      rw [joined, scan_token hbytes, nil_append, scan, if_pos (Or.inl rfl), if_neg hne, if_neg hlen,
        ih hts (by simp only [length_cons] at hroom ⊢; omega)]
      simp

lemma joined_end (h : ∀ t ∈ tokens, t ≠ [] ∧ t.all tokenByte) :
    ∃ init, joined tokens = init ++ [13] ∧ ∀ b ∈ init, b ≠ 10 := by
  have hbytes : ∀ t : Str, t.all tokenByte → ∀ b ∈ t, b ≠ 10 := by
    intro t ht b hb
    have := all_eq_true.1 ht b hb
    simp only [tokenByte, decide_eq_true_eq] at this
    exact this.2.2
  induction tokens with
  | nil => exact ⟨[], rfl, by simp⟩
  | cons t ts ih =>
    obtain ⟨⟨-, ht⟩, hts⟩ := forall_mem_cons.1 h
    cases ts with
    | nil => exact ⟨t, rfl, hbytes t ht⟩
    | cons =>
      obtain ⟨init, hinit, hno⟩ := ih hts
      refine ⟨t ++ 32 :: init, by simp [joined, hinit], ?_⟩
      exact forall_mem_append.2 ⟨hbytes t ht, forall_mem_cons.2 ⟨by decide, hno⟩⟩

lemma joined_no_newline (h : ∀ t ∈ tokens, t ≠ [] ∧ t.all tokenByte) :
    ∀ b ∈ joined tokens, b ≠ 10 := by
  obtain ⟨init, hinit, hno⟩ := joined_end h
  rw [hinit]
  exact forall_mem_append.2 ⟨hno, by simp⟩

lemma find_newline {s : Str} (h : ∀ b ∈ s, b ≠ 10) : find 10 s = none := by
  rw [find, findIdx?_eq_none_iff]
  intro b hb
  simpa using h b hb

lemma tokenize_joined (h : ∀ t ∈ tokens, t ≠ [] ∧ t.all tokenByte) (hne : tokens ≠ [])
    (hlen : tokens.length ≤ 8) : tokenize (joined tokens ++ [10]) = ((joined tokens ++ [10]).length, .ok tokens) := by
  obtain ⟨init, hinit, -⟩ := joined_end h
  have hfind : find 10 (joined tokens ++ [10]) = some (joined tokens).length := by
    have hnone := find_newline (joined_no_newline h)
    unfold find at hnone ⊢
    rw [findIdx?_append, hnone]
    simp
  have hlast : ¬ ((joined tokens).length = 0 ∨ (joined tokens ++ [10])[(joined tokens).length - 1]? ≠ some 13) := by
    rw [hinit]
    simp
  rw [tokenize, hfind]
  dsimp only
  rw [if_neg hlast, take_left, scan_joined h hlen]
  simp [hne]

lemma simpleAtou_toDecimal {bits n : ℕ} (h : n < 2 ^ bits) : simpleAtou bits (toDecimal n) = some n := by
  have hdigit : ∀ c ∈ toDecimal n, isDigit c := fun c hc => isDigit_of_mem_toDecimal hc
  have hvalue := digitsValue_toDecimal n
  have hne := toDecimal_ne_nil n
  rw [simpleAtou, trim_digits hdigit]
  generalize toDecimal n = s at *
  cases s with
  | nil => exact absurd rfl hne
  | cons c cs =>
    have hplus : c ≠ 43 := by
      rintro rfl
      exact absurd (hdigit 43 mem_cons_self) (by decide)
    have hall : (c :: cs).all isDigit := all_eq_true.2 hdigit
    simp only [hplus, if_false, cons_ne_nil, hall, not_true, or_self, hvalue, h, if_true]

lemma fromToken_name (r : Retrieval) : fromToken r.name = r.type ∧ r.name ≠ [] ∧ r.name.all tokenByte := by
  have hall : ∀ type : CmdType, type = .get ∨ type = .gets ∨ type = .gat ∨ type = .gats →
      fromToken (((cmdMap.find? (fun p => p.2 = type)).map Prod.fst).getD []) = type ∧
      ((cmdMap.find? (fun p => p.2 = type)).map Prod.fst).getD [] ≠ [] ∧
      (((cmdMap.find? (fun p => p.2 = type)).map Prod.fst).getD []).all tokenByte := by
    rintro type (rfl | rfl | rfl | rfl) <;> decide +kernel
  exact hall r.type r.type_eq

lemma tokens_valid (r : Retrieval) : ∀ t ∈ r.tokens, t ≠ [] ∧ t.all tokenByte := by
  have htime : (toDecimal r.expireTs).all tokenByte := by
    rw [all_eq_true]
    intro c hc
    have hdigit := isDigit_iff.1 (isDigit_of_mem_toDecimal hc)
    have hne : c ≠ 32 ∧ c ≠ 13 ∧ c ≠ 10 := by
      refine ⟨?_, ?_, ?_⟩ <;> (rintro rfl; exact absurd hdigit.1 (by decide))
    simpa [tokenByte] using hne
  obtain ⟨-, hname⟩ := fromToken_name r
  unfold Retrieval.tokens
  split_ifs
  · simp only [forall_mem_cons, not_mem_nil, false_imp_iff, implies_true, and_true]
    exact ⟨hname, ⟨toDecimal_ne_nil _, htime⟩, r.key_ne, r.key_bytes⟩
  · simp only [forall_mem_cons, not_mem_nil, false_imp_iff, implies_true, and_true]
    exact ⟨hname, r.key_ne, r.key_bytes⟩

lemma isStoreCmd_retrieval (r : Retrieval) : isStoreCmd r.type = false ∧ r.type ≠ .invalid := by
  rcases r.type_eq with h | h | h | h <;> rw [h] <;> decide

lemma parseTokens_tokens (r : Retrieval) : parseTokens r.tokens {} = .ok r.command := by
  have hstore := isStoreCmd_retrieval r
  unfold Retrieval.tokens Retrieval.command
  by_cases htimed : r.timed
  · have hgat : r.type = .gat ∨ r.type = .gats := by simpa [Retrieval.timed] using htimed
    simp [htimed, parseTokens, parseRetrieve, (fromToken_name r).1, hstore, hgat, simpleAtou_toDecimal r.time_lt]
  · have hgat : ¬ (r.type = .gat ∨ r.type = .gats) := by simpa [Retrieval.timed] using htimed
    simp [htimed, parseTokens, parseRetrieve, (fromToken_name r).1, hstore, hgat]

theorem parse_line (r : Retrieval) : parse r.line {} = (r.line.length, .ok r.command) := by
  have hne : r.tokens ≠ [] ∧ r.tokens.length ≤ 8 := by
    unfold Retrieval.tokens
    split_ifs <;> simp
  rw [parse, Retrieval.line, tokenize_joined (tokens_valid r) hne.1 hne.2]
  exact Prod.ext rfl (parseTokens_tokens r)

lemma parse_begun (r : Retrieval) {begun rest : Str} (h : begun ++ rest = r.line) (hrest : rest ≠ []) :
    parse begun {} = (0, .error (if begun.length > 300 then .parseError else .inputPending)) := by
  have hpart : ∃ rest', begun ++ rest' = joined r.tokens := by
    rcases eq_nil_or_concat rest with rfl | ⟨rest', b, rfl⟩
    · exact absurd rfl hrest
    · rw [concat_eq_append, ← append_assoc] at h
      exact ⟨rest', append_inj_left' h rfl⟩
  obtain ⟨rest', hjoined⟩ := hpart
  have hbegun : ∀ b ∈ begun, b ≠ 10 := by
    intro b hb
    apply joined_no_newline (tokens_valid r)
    rw [← hjoined]
    exact mem_append_left rest' hb
  rw [parse, tokenize, find_newline hbegun]
  rfl

end Line

/-! ## Whole streams -/

namespace McConnection

def goesOn (c : McConnection) : Prop := c.status ≠ .error ∧ c.status ≠ .checkFailed

def served (c : McConnection) (r : Retrieval) : McConnection :=
  if r.type = .get then
    { c with ioBuf := r.line, status := .checkFailed, dispatched := c.dispatched ++ [(r.command, [])] }
  else
    { ioBuf := [], status := .needMore, dispatched := c.dispatched ++ [(r.command, [])]
      sink := c.sink ++ text "CLIENT_ERROR" ++ text "bad command line format" ++ crlf }

variable {c : McConnection} {r : Retrieval} {cmd : Command}

lemma feed_begun (hopen : c.goesOn) {chunk rest : Str} (h : c.ioBuf ++ chunk ++ rest = r.line) (hrest : rest ≠ []) :
    c.feed chunk = { c with
      ioBuf := c.ioBuf ++ chunk, status := if (c.ioBuf ++ chunk).length > 300 then .error else .needMore } := by
  rw [feed, if_neg (not_or.2 hopen), parseMemcache, parseLoop, parse_begun r h hrest]
  split_ifs <;> rfl

lemma feedAll_stopped (h : ¬ c.goesOn) (chunks : List Str) : c.feedAll chunks = c := by
  induction chunks with
  | nil => rfl
  | cons chunk _ ih =>
    have hfeed : c.feed chunk = c := if_pos (not_and_or.1 h |>.imp not_not.1 not_not.1)
    change (c.feed chunk).feedAll _ = c
    rw [hfeed, ih]

lemma goesOn_append {chunks chunks' : List Str} (h : (c.feedAll (chunks ++ chunks')).goesOn) :
    (c.feedAll chunks).goesOn := by
  rw [feedAll, Run.run, foldl_append] at h
  by_contra hstopped
  exact hstopped (feedAll_stopped hstopped chunks' ▸ h)

lemma parseLoop_nil (fuel : ℕ) (cmd : Command) (value : Str) (h : c.ioBuf = []) :
    parseLoop (fuel + 1) cmd value c = { c with status := .needMore } := by
  cases c
  cases h
  rfl

lemma dispatchMC_get (h : cmd.type = .get) (value : Str) :
    c.dispatchMC cmd value = { c with status := .checkFailed, dispatched := c.dispatched ++ [(cmd, value)] } := by
  rw [dispatchMC, h]

lemma dispatchMC_other (h : cmd.type = .gets ∨ cmd.type = .gat ∨ cmd.type = .gats) (value : Str) :
    c.dispatchMC cmd value = { c with
      dispatched := c.dispatched ++ [(cmd, value)]
      sink := c.sink ++ text "CLIENT_ERROR" ++ text "bad command line format" ++ crlf } := by
  rcases h with h | h | h <;> rw [dispatchMC, h]

lemma feed_line (hopen : c.goesOn) {chunk : Str} (h : c.ioBuf ++ chunk = r.line) : c.feed chunk = c.served r := by
  have hstore : ¬ isStoreCmd r.command.type = true :=
    Bool.eq_false_iff.1 (isStoreCmd_retrieval r).1
  obtain ⟨k, hk⟩ := Nat.exists_eq_succ_of_ne_zero (show r.line.length ≠ 0 by simp [Retrieval.line])
  rw [feed, if_neg (not_or.2 hopen), h, parseMemcache, parseLoop, parse_line]
  dsimp only
  rw [if_neg (fun hs => hstore hs.1), if_neg hstore, if_pos le_rfl, served]
  rcases r.type_eq with hget | hother
  · rw [dispatchMC_get hget, if_pos rfl, if_pos hget]
  · have hget : r.type ≠ .get := by
      rcases hother with h | h | h <;> rw [h] <;> decide
    rw [dispatchMC_other hother, if_neg hopen.2, if_neg hget, drop_length, hk, parseLoop_nil _ _ _ rfl]

lemma feedAll_parts (hopen : c.goesOn) {parts : List Str} {last : Str} (hlast : last ≠ [])
    (h : c.ioBuf ++ (parts.flatten ++ last) = r.line) (hbuf : c.ioBuf.length ≤ 300) :
    if (c.ioBuf ++ parts.flatten).length ≤ 300 then
      ∃ status, status ≠ .error ∧ status ≠ .checkFailed ∧
        c.feedAll parts = { c with ioBuf := c.ioBuf ++ parts.flatten, status := status }
    else ¬ (c.feedAll parts).goesOn := by
  induction parts generalizing c with
  | nil =>
    rw [flatten_nil, append_nil, if_pos hbuf]
    exact ⟨c.status, hopen.1, hopen.2, rfl⟩
  | cons part parts ih =>
    simp only [flatten_cons, ← append_assoc] at h ⊢
    rw [append_assoc (c.ioBuf ++ part)] at h
    have hrest : parts.flatten ++ last ≠ [] := by simp [hlast]
    have hrun : c.feedAll (part :: parts) = (c.feed part).feedAll parts := rfl
    rw [hrun, feed_begun hopen h hrest]
    by_cases hlong : (c.ioBuf ++ part).length > 300
    · have hstopped : ¬ goesOn { c with ioBuf := c.ioBuf ++ part, status := .error } := fun hgoes => hgoes.1 rfl
      rw [if_pos hlong, if_neg (by rw [length_append]; omega), feedAll_stopped hstopped]
      exact hstopped
    · rw [if_neg hlong]
      exact ih (c := { c with ioBuf := c.ioBuf ++ part, status := .needMore }) ⟨by simp, by simp⟩ h (not_lt.1 hlong)

structure Delivery where
  retrieval : Retrieval
  parts : List Str
  last : Str
  last_ne : last ≠ []
  whole : parts.flatten ++ last = retrieval.line

def Delivery.chunks (d : Delivery) : List Str := d.parts ++ [d.last]

def Delivery.fits (d : Delivery) : Prop := d.parts.flatten.length ≤ 300 ∧ d.retrieval.type ≠ .get

lemma feedAll_chunks (hopen : c.goesOn) (hbuf : c.ioBuf = []) (d : Delivery) :
    ((c.feedAll d.chunks).goesOn ↔ d.fits) ∧ (d.fits → c.feedAll d.chunks = c.served d.retrieval) := by
  have hparts := feedAll_parts (r := d.retrieval) hopen d.last_ne
    (by rw [hbuf, nil_append, d.whole]) (by rw [hbuf]; exact Nat.zero_le _)
  have hrun : c.feedAll d.chunks = (c.feedAll d.parts).feed d.last := by
    rw [feedAll, Run.run, Delivery.chunks, foldl_append]
    rfl
  rw [hbuf, nil_append] at hparts
  unfold Delivery.fits
  split_ifs at hparts with hlen
  · obtain ⟨status, h1, h2, hparts⟩ := hparts
    have hserved : c.feedAll d.chunks = c.served d.retrieval := by
      rw [hrun, hparts]
      exact feed_line ⟨h1, h2⟩ d.whole
    refine ⟨?_, fun _ => hserved⟩
    rw [hserved, served]
    rw [and_iff_right hlen]
    split_ifs with hget <;> simp [goesOn, hget]
  · exact ⟨⟨fun hgoes => absurd (goesOn_append hgoes) hparts, fun hfits => absurd hfits.1 hlen⟩,
      fun hfits => absurd hfits.1 hlen⟩

/-- **Retrieval commands are dispatched once, in order**, each with its key and without data, and the connection goes
on, where each ends a chunk: exactly when no more than 300 bytes of each come before that chunk, and none is a GET. -/
theorem dispatched_once (ds : List Delivery) :
    ((feedAll {} (ds.flatMap Delivery.chunks)).dispatched = ds.map (fun d => (d.retrieval.command, [])) ∧
      (feedAll {} (ds.flatMap Delivery.chunks)).goesOn) ↔
    ∀ d ∈ ds, d.parts.flatten.length ≤ 300 ∧ d.retrieval.type ≠ .get := by
  have hall : ∀ c : McConnection, c.goesOn → c.ioBuf = [] →
      ((c.feedAll (ds.flatMap Delivery.chunks)).dispatched =
        c.dispatched ++ ds.map (fun d => (d.retrieval.command, [])) ∧
      (c.feedAll (ds.flatMap Delivery.chunks)).goesOn ↔ ∀ d ∈ ds, d.fits) := by
    induction ds with
    | nil => exact fun c hopen _ => ⟨by simp, fun _ => ⟨(append_nil _).symm, hopen⟩⟩
    | cons d ds ih =>
      intro c hopen hbuf
      obtain ⟨hgoes, hserved⟩ := feedAll_chunks hopen hbuf d
      rw [flatMap_cons, forall_mem_cons]
      by_cases hfits : d.fits
      · have hrun : c.feedAll (d.chunks ++ ds.flatMap Delivery.chunks) =
            (c.served d.retrieval).feedAll (ds.flatMap Delivery.chunks) := by
          rw [← hserved hfits, feedAll, Run.run, foldl_append]
          rfl
        have hother : c.served d.retrieval = _ := if_neg hfits.2
        have hrest := ih (c.served d.retrieval) (hserved hfits ▸ hgoes.2 hfits) (by rw [hother])
        rw [hrun, map_cons, ← singleton_append, ← append_assoc, and_iff_right hfits, ← hrest, hother]
      · exact ⟨fun h => absurd (hgoes.1 (goesOn_append h.2)) hfits, fun h => absurd h.1 hfits⟩
  exact hall {} ⟨by decide, by decide⟩ rfl

def getsA : Retrieval := ⟨.gets, 0, text "a", by decide, by decide, by decide, by decide⟩

def gatB : Retrieval := ⟨.gat, 10, text "b", by decide, by decide, by decide, by decide⟩

theorem dispatched_once_cut :
    (feedAll {} [text "ge", text "ts a\r", text "\n", text "gat 10 b\r\n"]).dispatched =
        [({ type := .gets, key := text "a" }, []), ({ type := .gat, key := text "b", expireTs := 10 }, [])] ∧
      (feedAll {} [text "ge", text "ts a\r", text "\n", text "gat 10 b\r\n"]).goesOn :=
  (dispatched_once
    [⟨getsA, [text "ge", text "ts a\r"], text "\n", by decide, by decide +kernel⟩,
      ⟨gatB, [], text "gat 10 b\r\n", by decide, by decide +kernel⟩]).2 (by decide)

/-- A store is not dispatched, and its data are: the command and the value of the call come from the same bytes. -/
theorem data_dispatched :
    (feedAll {} [text "set k 0 0 5\r\nget a\r\n"]).dispatched =
      [({ type := .get, key := text "a", bytesLen := 5 }, text "get a")] ∧
    (feedAll {} [text "gets a\r\ngets b\r\n"]).dispatched = [({ type := .gets, key := text "b" }, [])] := by
  decide +kernel

end McConnection

end MaxRedis.Service

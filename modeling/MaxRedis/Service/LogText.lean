/-
The text of a replicated command, read by its two readers (`command_encoder.cc`, `kv_state_machine.cc`).

`ReplicatedCommand::Deserialize` and `ApplyLogEntry` both call `ParseRespArray` and fall back to words between spaces.
-/
import MaxRedis.Kv.StateMachine
import MaxRedis.Service.Aof

namespace MaxRedis.Service

variable {s data arg rest : Str} {width pos next : ℕ}

open Kv Raft List

/-! ## The readers -/

inductive CommandType where
  | set
  | del
  | expire
  | configChange
  deriving DecidableEq, Repr

structure ReplicatedCommand where
  type : CommandType := .set
  args : List Str := []
  deriving DecidableEq

namespace ReplicatedCommand

def serialize (cmd : ReplicatedCommand) : Str := encodeRespArray cmd.args

/-- the type by the first argument; a name that is unknown leaves it at `SET` -/
def typeOf : List Str → CommandType
  | [] => .set
  | name :: _ =>
    if name = text "SET" then .set
    else if name = text "DEL" then .del
    else if name = text "EXPIRE" then .expire
    else if name = text "CONFIG_CHANGE" then .configChange
    else .set

def deserialize (data : Str) : ReplicatedCommand :=
  match parseRespArray data with
  | (true, args) => ⟨typeOf args, args⟩
  | (false, args) => ⟨typeOf (args ++ splitSpaces [] data), args ++ splitSpaces [] data⟩

end ReplicatedCommand

/-! ## The layout of a text -/

/-- `b`, a decimal number, `"\r\n"` and the rest; an empty number counts as 0 -/
def Header (b : UInt8) (n : ℕ) (rest s : Str) : Prop :=
  ∃ digits, (∀ c ∈ digits, isDigit c) ∧ digitsValue digits = n ∧ s = b :: (digits ++ (crlf ++ rest))

def Bulks : List Str → Str → Prop
  | [], _ => True
  | arg :: args, s => ∃ rest, Header 36 arg.length (arg ++ (crlf ++ rest)) s ∧ Bulks args rest

def BeginsWith (data : Str) (args : List Str) : Prop := ∃ rest, Header 42 args.length rest data ∧ Bulks args rest

def lengthsRead (data : Str) : ℕ → ℕ → List Str
  | 0, _ => []
  | count + 1, pos =>
    match findCrlf (data.drop (pos + 1)) with
    | none => []
    | some width =>
      (data.drop (pos + 1)).take width ::
        match parseBulk data pos with
        | some (_, some next) => lengthsRead data count next
        | _ => []

def numbersRead (data : Str) : List Str :=
  match findCrlf (data.drop 1) with
  | none => []
  | some width =>
    (data.drop 1).take width ::
      match parseSize ((data.drop 1).take width) with
      | none => []
      | some count => lengthsRead data count.toNat (1 + width + 2)

def Small (data : Str) : Prop := ∀ digits ∈ numbersRead data, digitsValue digits + data.length < 2 ^ 64

instance (data : Str) : Decidable (Small data) :=
  inferInstanceAs (Decidable (∀ digits ∈ numbersRead data, digitsValue digits + data.length < 2 ^ 64))

lemma findCrlf_inv (h : findCrlf s = some width) :
    s = s.take width ++ (crlf ++ s.drop (width + 2)) := by
  induction s generalizing width with
  | nil => cases h
  | cons x s ih =>
    by_cases hx : ∃ s', x = 13 ∧ s = 10 :: s'
    · obtain ⟨s', rfl, rfl⟩ := hx
      obtain rfl : 0 = width := by simpa [findCrlf] using h
      rfl
    · rw [findCrlf] at h
      · obtain ⟨w, hw, rfl⟩ := Option.map_eq_some_iff.1 h
        exact congrArg (x :: ·) (ih hw)
      · rintro s' rfl rfl
        exact hx ⟨s', rfl, rfl⟩

lemma isDigit_of_parse {n m : UInt64}
    (h : s.foldlM (fun n c => if isDigit c then some (n * 10 + (c - 48).toUInt64) else none) n = some m) :
    ∀ c ∈ s, isDigit c := by
  induction s generalizing n with
  | nil => simp
  | cons c _ ih =>
    rw [foldlM_cons] at h
    by_cases hc : isDigit c
    · rw [if_pos hc] at h
      exact forall_mem_cons.2 ⟨hc, ih h⟩
    · rw [if_neg hc] at h
      cases h

lemma parseSize_inv {n : UInt64} (h : parseSize s = some n) :
    (∀ c ∈ s, isDigit c) ∧ n = .ofNat (digitsValue s) := by
  have hdigits := isDigit_of_parse h
  have hvalue : parseSize s = some (.ofNat (digitsValue s)) := parseSize_digits hdigits 0
  exact ⟨hdigits, Option.some_injective _ (h.symm.trans hvalue)⟩

lemma header_of_parse {data : Str} {b : UInt8} {pos width : ℕ} {n : UInt64} (hb : data[pos]? = some b)
    (hfind : findCrlf (data.drop (pos + 1)) = some width)
    (hsize : parseSize ((data.drop (pos + 1)).take width) = some n)
    (hsmall : digitsValue ((data.drop (pos + 1)).take width) < 2 ^ 64) :
    Header b n.toNat (data.drop (pos + 1 + width + 2)) (data.drop pos) := by
  obtain ⟨hdigits, hn⟩ := parseSize_inv hsize
  have hvalue : n.toNat = digitsValue ((data.drop (pos + 1)).take width) := by
    rw [hn, UInt64.toNat_ofNat', Nat.mod_eq_of_lt hsmall]
  refine ⟨_, hdigits, hvalue.symm, ?_⟩
  obtain ⟨hlt, hget⟩ := List.getElem?_eq_some_iff.1 hb
  have hline := findCrlf_inv hfind
  rw [drop_drop] at hline
  rw [drop_eq_getElem_cons hlt, hget]
  exact congrArg (b :: ·) hline

lemma parseBulk_inv (h : parseBulk data pos = some (arg, some next)) :
    ∃ width len, data[pos]? = some 36 ∧ findCrlf (data.drop (pos + 1)) = some width ∧
      parseSize ((data.drop (pos + 1)).take width) = some len ∧
      arg = (data.drop (pos + 1 + width + 2)).take len.toNat ∧
      ∃ stop, stop = (pos + 1 + width + 2 + len.toNat) % 2 ^ 64 ∧ stop ≤ data.length ∧ next = stop + 2 ∧
        data[stop]? = some 13 ∧ data[stop + 1]? = some 10 := by
  unfold parseBulk at h
  split_ifs at h with hopen
  cases hfind : findCrlf (data.drop (pos + 1)) with
  | none => simp [hfind] at h
  | some width =>
    cases hsize : parseSize ((data.drop (pos + 1)).take width) with
    | none => simp [hfind, hsize] at h
    | some len =>
      simp only [hfind, hsize] at h
      split_ifs at h with hlong hclosed
      · obtain ⟨harg, hnext⟩ := Prod.mk.inj (Option.some_injective _ h)
        refine ⟨width, len, ?_, rfl, hsize, harg.symm, _, rfl, not_lt.1 hlong, ?_, hclosed.2⟩
        · simpa using (not_or.1 hopen).2
        · exact (Option.some_injective _ hnext).symm
      · simp at h

lemma parseBulk_layout (h : parseBulk data pos = some (arg, some next))
    (hfind : findCrlf (data.drop (pos + 1)) = some width)
    (hsmall : digitsValue ((data.drop (pos + 1)).take width) + data.length < 2 ^ 64) :
    Header 36 arg.length (arg ++ (crlf ++ data.drop next)) (data.drop pos) := by
  obtain ⟨width', len, hopen, hfind', hsize, harg, stop, hstop, hle, rfl, hcr, hlf⟩ := parseBulk_inv h
  obtain rfl : width' = width := Option.some_injective _ (hfind'.symm.trans hfind)
  have hheader := header_of_parse hopen hfind hsize (by omega)
  have hlen : len.toNat = digitsValue ((data.drop (pos + 1)).take width') := by
    rw [(parseSize_inv hsize).2, UInt64.toNat_ofNat', Nat.mod_eq_of_lt (by omega)]
  -- the line ends within the text, so that the position behind the argument does not wrap
  have hline : pos + 1 + width' + 2 ≤ data.length := by
    have hlength := congrArg length (findCrlf_inv hfind)
    simp only [crlf, length_append, length_take, length_drop, length_cons,
      length_nil] at hlength
    omega
  rw [Nat.mod_eq_of_lt (by omega)] at hstop
  generalize pos + 1 + width' + 2 = start at *
  subst hstop
  have hsize : arg.length = len.toNat := by
    rw [harg, length_take, length_drop]
    omega
  have hclose : data.drop (start + len.toNat) = crlf ++ data.drop (start + len.toNat + 2) := by
    obtain ⟨hlt, hget⟩ := List.getElem?_eq_some_iff.1 hcr
    obtain ⟨hlt', hget'⟩ := List.getElem?_eq_some_iff.1 hlf
    rw [drop_eq_getElem_cons hlt, hget, drop_eq_getElem_cons hlt', hget']
    rfl
  have hrest : data.drop start = arg ++ (crlf ++ data.drop (start + len.toNat + 2)) := by
    rw [← hclose, ← drop_drop, harg, take_append_drop]
  rw [hsize, ← hrest]
  exact hheader

lemma bulks_of_parse {count pos : ℕ} {out args : List Str}
    (hsmall : ∀ digits ∈ lengthsRead data count pos, digitsValue digits + data.length < 2 ^ 64)
    (h : parseBulks data count pos out = (true, args)) :
    ∃ read, args = out ++ read ∧ read.length = count ∧ Bulks read (data.drop pos) := by
  induction count generalizing pos out with
  | zero =>
    obtain ⟨-, rfl⟩ := Prod.mk.inj h
    exact ⟨[], by simp, rfl, trivial⟩
  | succ _ ih =>
    rw [parseBulks] at h
    cases hbulk : parseBulk data pos with
    | none => simp [hbulk] at h
    | some r =>
      obtain ⟨arg, _ | next⟩ := r
      · simp [hbulk] at h
      · simp only [hbulk] at h
        obtain ⟨width, -, -, hfind, -⟩ := parseBulk_inv hbulk
        simp only [lengthsRead, hfind, hbulk] at hsmall
        obtain ⟨hfirst, hothers⟩ := forall_mem_cons.1 hsmall
        obtain ⟨read, rfl, rfl, hread⟩ := ih hothers h
        exact ⟨arg :: read, by simp, rfl, data.drop next, parseBulk_layout hbulk hfind hfirst, hread⟩

lemma beginsWith_of_parse {args : List Str} (hsmall : Small data)
    (h : parseRespArray data = (true, args)) : BeginsWith data args := by
  unfold parseRespArray at h
  split at h
  next rest =>
    cases hfind : findCrlf rest with
    | none => simp [hfind] at h
    | some width =>
      cases hsize : parseSize (rest.take width) with
      | none => simp [hfind, hsize] at h
      | some count =>
        simp only [hfind, hsize] at h
        simp only [Small, numbersRead, drop_one, tail_cons, hfind, hsize] at hsmall
        obtain ⟨hcount, hlengths⟩ := forall_mem_cons.1 hsmall
        obtain ⟨read, rfl, hlength, hread⟩ := bulks_of_parse hlengths h
        refine ⟨_, ?_, hread⟩
        have hheader := @header_of_parse (42 :: rest) 42 0 width count rfl hfind hsize
          (lt_of_le_of_lt (Nat.le_add_right _ _) hcount)
        rw [hlength]
        exact hheader
  next => simp at h

lemma Header.split {b : UInt8} {n : ℕ} (h : Header b n rest s) :
    digitsValue (s.tail.takeWhile isDigit) = n ∧ (s.tail.dropWhile isDigit).drop 2 = rest := by
  obtain ⟨digits, hdigits, hvalue, rfl⟩ := h
  rw [tail_cons, takeWhile_append_of_pos hdigits, dropWhile_append_of_pos hdigits]
  constructor
  · rw [← hvalue, show (crlf ++ rest).takeWhile isDigit = [] from rfl, append_nil]
  · rfl

def firstArgument (data : Str) : Option Str :=
  match data with
  | 42 :: rest =>
    match findCrlf rest with
    | none => none
    | some width =>
      match parseSize (rest.take width) with
      | none => none
      | some count => if count = 0 then none else (parseBulk data (1 + width + 2)).map Prod.fst
  | _ => none

lemma parseBulks_extends (data : Str) (count pos : ℕ) (out : List Str) :
    ∃ more, (parseBulks data count pos out).2 = out ++ more := by
  induction count generalizing pos out with
  | zero => exact ⟨[], (append_nil out).symm⟩
  | succ _ ih =>
    rw [parseBulks]
    rcases parseBulk data pos with _ | ⟨arg, _ | next⟩
    · exact ⟨[], (append_nil out).symm⟩
    · exact ⟨[arg], rfl⟩
    · obtain ⟨more, hmore⟩ := ih next (out ++ [arg])
      exact ⟨arg :: more, by simp [hmore]⟩

lemma firstArgument_of_ne (h : ∀ rest, data = 42 :: rest → False) : firstArgument data = none := by
  unfold firstArgument
  split
  · exact (h _ rfl).elim
  · rfl

lemma head_parseRespArray (data : Str) : (parseRespArray data).2.head? = firstArgument data := by
  unfold parseRespArray
  split
  next rest =>
    unfold firstArgument
    cases hfind : findCrlf rest with
    | none => simp [hfind]
    | some width =>
      cases hsize : parseSize (rest.take width) with
      | none => simp [hfind, hsize]
      | some count =>
        simp only [hfind, hsize]
        by_cases hzero : count = 0
        · rw [hzero]
          rfl
        · obtain ⟨k, hk⟩ := Nat.exists_eq_succ_of_ne_zero (fun h => hzero (UInt64.toNat_inj.1 h))
          rw [if_neg hzero, hk, parseBulks]
          rcases parseBulk (42 :: rest) (1 + width + 2) with _ | ⟨arg, _ | next⟩
          · rfl
          · rfl
          · obtain ⟨more, hmore⟩ := parseBulks_extends (42 :: rest) k next ([] ++ [arg])
            rw [hmore]
            rfl
  next hstar => rw [firstArgument_of_ne hstar]; rfl

lemma splitSpaces_cons (c : UInt8) (word s : Str) : ∃ w ws, splitSpaces (c :: word) s = (c :: w) :: ws := by
  induction s generalizing word with
  | nil => exact ⟨word, [], rfl⟩
  | cons d _ ih =>
    rw [splitSpaces]
    split_ifs
    · exact ⟨word, _, rfl⟩
    · exact ih (word ++ [d])

lemma parseCommand_star (h : parseRespArray (42 :: rest) = (false, [])) :
    parseCommand (42 :: rest) = .malformed := by
  obtain ⟨w, ws, hwords⟩ := splitSpaces_cons 42 [] rest
  have hsplit : splitSpaces [] (42 :: rest) = (42 :: w) :: ws := hwords
  rw [parseCommand, commandArgs, h]
  rw [hsplit]
  unfold parseArgs
  dsimp only
  have hname : ∀ name : Str, name.head? ≠ some 42 → 42 :: w ≠ name := by
    rintro name hhead rfl
    exact hhead rfl
  rw [if_neg (hname _ (by decide)), if_neg (hname _ (by decide)), if_neg (hname _ (by decide))]

/-- **A malformed command is not executed** exactly if its first argument cannot be read. -/
theorem malformed_not_executed (data : Str) (hfail : (parseRespArray data).1 = false) :
    ((parseRespArray data).2 = [] ∧
      (data.head? = some 42 → ∀ [Platform] {n : ℕ} [NeZero n] (s : KvStateMachine n) (now : UInt64),
        s.applyLogEntry now data = (s, ⟨.error, 0⟩))) ↔ firstArgument data = none := by
  refine ⟨fun h => by rw [← head_parseRespArray, h.1]; rfl, fun hfirst => ?_⟩
  have hnil : (parseRespArray data).2 = [] := by
    rw [← head?_eq_none_iff, head_parseRespArray, hfirst]
  refine ⟨hnil, ?_⟩
  intro hstar _ n _ s now
  cases data with
  | nil => cases hstar
  | cons c =>
    obtain rfl : c = 42 := by simpa using hstar
    have hmalformed := parseCommand_star (Prod.ext hfail hnil)
    rw [KvStateMachine.applyLogEntry, hmalformed]
    rfl

/-- the text ends within its first argument -/
theorem malformed_not_executed_cut :
    let data := text "*2\r\n$3\r\nDE"
    (parseRespArray data).2 = [] ∧
    ∀ (s : KvStateMachine 1) (now : UInt64), s.applyLogEntry now data = (s, ⟨.error, 0⟩) := by
  intro data
  obtain ⟨hnil, happly⟩ := (malformed_not_executed data (by decide +kernel)).2 (by decide +kernel)
  exact ⟨hnil, fun s now => happly (by decide +kernel) s now⟩

/-- **Half a command.** -/
theorem cut_command_executed :
    let data := text "*3\r\n$3\r\nDEL\r\n$1\r\na\r\n"
    let s := (KvStateMachine.empty.applyLogEntry 0 (setText 'a' 'v' []) : KvStateMachine 1 × ApplyResult).1
    parseRespArray data = (false, [text "DEL", text "a"]) ∧
    s.lookup (text "a") = some ⟨text "v", 0⟩ ∧
    (s.applyLogEntry 1 data).2 = ⟨.ok, 1⟩ ∧ (s.applyLogEntry 1 data).1.lookup (text "a") = none := by
  decide +kernel

end MaxRedis.Service

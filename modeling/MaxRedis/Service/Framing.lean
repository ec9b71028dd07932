/-
Requests cut into chunks.

A client sends commands as RESP arrays, and the socket delivers their bytes in chunks of any size.
-/
import MaxRedis.Service.Parser

namespace MaxRedis.Service

open Kv List

/-! ## Headers -/

def encodeBulk (arg : Str) : Str := 36 :: toDecimal arg.length ++ crlf ++ arg ++ crlf

lemma encodeRespArray_eq (args : List Str) :
    encodeRespArray args = 42 :: toDecimal args.length ++ crlf ++ args.flatMap encodeBulk := rfl

section Header
variable {b : UInt8} {n : ℕ} (rest : Str)

lemma ne_of_mem_header (hb : b ≠ 13) {x : UInt8} (hx : x ∈ b :: toDecimal n) : x ≠ 13 := by
  rcases mem_cons.1 hx with rfl | hx
  · exact hb
  · rintro rfl
    exact absurd (isDigit_of_mem_toDecimal hx) (by decide)

lemma find_eq_none {s : Str} (h : ∀ x ∈ s, x ≠ 13) : find 13 s = none :=
  findIdx?_eq_none_iff.2 (by simpa using h)

lemma find_header (hb : b ≠ 13) (rest : Str) :
    find 13 (b :: toDecimal n ++ 13 :: rest) = some ((toDecimal n).length + 1) := by
  have hnone : find 13 (b :: toDecimal n) = none := find_eq_none (fun x hx => ne_of_mem_header hb hx)
  unfold find at hnone ⊢
  rw [findIdx?_append, hnone]
  simp [findIdx?_cons]

lemma header_arrives (hb : b ≠ 13) {buf future tail : Str} (h : buf ++ future = b :: toDecimal n ++ crlf ++ tail) :
    (∃ rest, buf = b :: toDecimal n ++ crlf ++ rest ∧ rest ++ future = tail) ∨
    (future ≠ [] ∧ buf.length ≤ (toDecimal n).length + 2 ∧
      (find 13 buf = none ∨ find 13 buf = some ((toDecimal n).length + 1) ∧ (toDecimal n).length + 1 + 1 =
      buf.length)) := by
  rcases append_eq_append_iff.1 h with ⟨missing, hline, hfuture⟩ | ⟨rest, hbuf, htail⟩
  · cases missing using reverseRecOn with
    | nil =>
      refine Or.inl ⟨[], ?_, ?_⟩
      · rw [hline]
        simp
      · rw [hfuture]
        rfl
    | append_singleton missing last =>
      right
      -- the last byte is missing; the carriage return may be there
      have hcr : buf ++ missing = b :: toDecimal n ++ [13] := by
        have : buf ++ missing ++ [last] = (b :: toDecimal n ++ [13]) ++ [10] := by
          rw [append_assoc, ← hline]
          simp [crlf]
        exact (append_inj' this rfl).1
      have hlen := congrArg length hcr
      simp only [length_append, length_cons, length_nil] at hlen
      refine ⟨by rw [hfuture]; simp, by omega, ?_⟩
      cases missing using reverseRecOn with
      | nil =>
        right
        rw [append_nil] at hcr
        refine ⟨by rw [hcr]; exact find_header hb [], ?_⟩
        rw [hcr]
        simp
      | append_singleton missing =>
        left
        have hdigits : buf ++ missing = b :: toDecimal n := by
          rw [← append_assoc] at hcr
          exact (append_inj' hcr rfl).1
        apply find_eq_none
        intro x hx
        exact ne_of_mem_header hb (hdigits ▸ mem_append_left _ hx)
  · exact Or.inl ⟨rest, hbuf, htail.symm⟩

lemma header_number :
    ((b :: toDecimal n ++ crlf ++ rest).drop 1).take ((toDecimal n).length + 1 - 1) = toDecimal n := by
  rw [append_assoc]
  exact take_left' rfl

lemma header_rest : (b :: toDecimal n ++ crlf ++ rest).drop ((toDecimal n).length + 1 + 2) = rest :=
  drop_left' (by simp [crlf])

lemma header_not_last : (toDecimal n).length + 1 + 1 ≠ (b :: toDecimal n ++ crlf ++ rest).length := by
  simp [crlf]

end Header

namespace Connection

lemma awaitMore_of_le {input : Str} (h : input.length ≤ protoInlineMaxSize) : awaitMore input = .needMore := by
  rw [awaitMore, if_neg (by omega)]

lemma length_toDecimal_le {n : ℕ} (h : n < 2 ^ 63) : (toDecimal n).length ≤ 19 :=
  length_toDecimal (by decide) (lt_trans h (by norm_num))

section Lengths
variable {c : Connection} {n : ℕ} {future tail : Str}

lemma readBulkLen_position (hn : n < 2 ^ 63) (hbulk : c.bulkLen = none)
    (h : c.ioBuf ++ future = 36 :: toDecimal n ++ crlf ++ tail) :
    (∃ rest, c.readBulkLen = .ok ({ c with ioBuf := rest, bulkLen := some n }, n) ∧ rest ++ future = tail) ∨
    (future ≠ [] ∧ c.readBulkLen = .error .needMore) := by
  unfold readBulkLen
  rw [hbulk]
  rcases header_arrives (by decide) h with ⟨rest, hbuf, hrest⟩ | ⟨hfuture, hlen, hfind⟩
  · refine Or.inl ⟨rest, ?_, hrest⟩
    have hfind : find 13 c.ioBuf = some ((toDecimal n).length + 1) := by
      rw [hbuf, append_assoc]
      exact find_header (by decide) _
    have hfirst : c.ioBuf[0]? = some 36 := by rw [hbuf]; rfl
    have hlf : c.ioBuf[(toDecimal n).length + 1 + 1]? = some 10 := by
      rw [hbuf, append_assoc]
      simp [crlf]
    rw [hfind]
    dsimp only
    rw [if_neg (by rw [hbuf]; exact header_not_last rest), if_neg (by simp [hfirst, hlf]), hbuf, header_number,
      simpleAtoi_toDecimal hn]
    dsimp only
    rw [header_rest]
    simp
  · right
    refine ⟨hfuture, ?_⟩
    have hsmall : c.ioBuf.length ≤ protoInlineMaxSize := by
      have := length_toDecimal_le hn
      unfold protoInlineMaxSize
      omega
    rcases hfind with hnone | ⟨hsome, hlast⟩
    · rw [hnone]
      rw [awaitMore_of_le hsmall]
    · rw [hsome]
      dsimp only
      rw [if_pos hlast]

lemma readMultibulkLen_arrived {rest : Str} (hn : n < 2 ^ 63) (hbuf : c.ioBuf = 42 :: toDecimal n ++ crlf ++ rest) :
    c.readMultibulkLen =
      if (n : ℤ) > intMax ∨ (n : ℤ) ≤ 0 then .error .error
      else .ok { c with
        ioBuf := rest, multibulkLen := n, cc := c.cc.addParsedCommand (replicate n none) false } := by
  have hfind : find 13 c.ioBuf = some ((toDecimal n).length + 1) := by
    rw [hbuf, append_assoc]
    exact find_header (by decide) _
  unfold readMultibulkLen
  rw [hfind]
  dsimp only
  rw [if_neg (by rw [hbuf]; exact header_not_last rest), hbuf, header_number, simpleAtoi_toDecimal hn]
  rw [header_rest]
  simp

lemma readMultibulkLen_position (hn : n < 2 ^ 31) (hpos : 0 < n)
    (h : c.ioBuf ++ future = 42 :: toDecimal n ++ crlf ++ tail) :
    (∃ rest, c.readMultibulkLen = .ok { c with
        ioBuf := rest, multibulkLen := n, cc := c.cc.addParsedCommand (replicate n none) false } ∧
      rest ++ future = tail) ∨
    (future ≠ [] ∧ c.readMultibulkLen = .error .needMore) := by
  have hn' : n < 2 ^ 63 := by omega
  rcases header_arrives (by decide) h with ⟨rest, hbuf, hrest⟩ | ⟨hfuture, hlen, hfind⟩
  · refine Or.inl ⟨rest, ?_, hrest⟩
    rw [readMultibulkLen_arrived hn' hbuf, if_neg (by unfold intMax; omega)]
  · right
    refine ⟨hfuture, ?_⟩
    unfold readMultibulkLen
    have hsmall : c.ioBuf.length ≤ protoInlineMaxSize := by
      have := length_toDecimal_le hn'
      unfold protoInlineMaxSize
      omega
    rcases hfind with hnone | ⟨hsome, hlast⟩
    · rw [hnone]
      rw [awaitMore_of_le hsmall]
    · rw [hsome]
      dsimp only
      rw [if_pos hlast, awaitMore_of_le hsmall]

end Lengths

/-! ## Positions -/

def whole (cmd : List Str) : ParsedCommand := { tokens := cmd.map some, parseComplete := true }

structure Done (done : List (List Str)) (c : Connection) : Prop where
  commands : c.cc.toExecute = done.map whole
  completed : c.cc.completed = done.map (List.map some)

/-- In a command: `read` are the arguments that have been read and `args` those that are missing; `tail` comes after
it. -/
structure Within (future tail : Str) (done : List (List Str)) (read args : List Str) (c : Connection) : Prop where
  state : c.state = .multibulk
  count : c.multibulkLen = args.length
  commands : c.cc.toExecute = done.map whole ++ [{ tokens := read.map some ++ List.replicate args.length none }]
  completed : c.cc.completed = done.map (List.map some)
  stream : c.bulkLen = none ∧ c.ioBuf ++ future = args.flatMap encodeBulk ++ tail ∨
    ∃ arg rest, args = arg :: rest ∧ c.bulkLen = some arg.length ∧
      c.ioBuf ++ future = arg ++ (crlf ++ (rest.flatMap encodeBulk ++ tail))

lemma set_token (read : List Str) (missing : ℕ) (arg : Str) : (read.map some ++ replicate (missing + 1) none).set
        ((read.map some ++ replicate (missing + 1) (none : Option Str)).length - (missing + 1)) (some arg) =
      (read ++ [arg]).map some ++ replicate missing none := by
  have hplace : (read.map some ++ replicate (missing + 1) (none : Option Str)).length - (missing + 1) =
      (read.map some).length := by simp
  rw [hplace, replicate_succ, set_append_right _ _ le_rfl, Nat.sub_self, set_cons_zero, map_append,
    append_assoc]
  rfl

/-- **In a command**, the parser reads the rest of it, or stays in it and waits. -/
lemma readBulks_position {future tail : Str} {done : List (List Str)} {args read : List Str} {c : Connection}
    (h : Within future tail done read args c) (hlen : ∀ arg ∈ args, arg.length < 2 ^ 63) :
    (∃ c', readBulks args.length c = (c', .ok) ∧ Done (done ++ [read ++ args]) c' ∧ c'.ioBuf ++ future = tail) ∨
    (∃ c' read' args', readBulks args.length c = (c', .needMore) ∧ future ≠ [] ∧ args' ≠ [] ∧
      read ++ args = read' ++ args' ∧ Within future tail done read' args' c') := by
  induction args generalizing c read with
  | nil =>
    have hcc := ConnectionContext.completeTail_concat h.commands
    refine Or.inl ⟨{ c with cc := c.cc.completeTail }, rfl, ⟨?_, ?_⟩, ?_⟩
    · rw [hcc]
      simp [whole]
    · rw [hcc, h.completed]
      simp
    · rcases h.stream with ⟨-, hs⟩ | ⟨arg, rest, hargs, -⟩
      · exact hs
      · cases hargs
  | cons arg args ih =>
    have harg : arg.length < 2 ^ 63 := hlen arg (mem_cons_self ..)
    -- the length of the argument is known, or it is read now
    have hhead : (∃ buf, c.readBulkLen = .ok ({ c with ioBuf := buf, bulkLen := some arg.length }, arg.length) ∧
          buf ++ future = arg ++ (crlf ++ (args.flatMap encodeBulk ++ tail))) ∨
        (future ≠ [] ∧ c.readBulkLen = .error .needMore) := by
      rcases h.stream with ⟨hbulk, hs⟩ | ⟨arg', rest, hargs, hbulk, hs⟩
      · apply readBulkLen_position harg hbulk
        rw [hs]
        simp [encodeBulk, crlf]
      · cases hargs
        refine Or.inl ⟨c.ioBuf, ?_, hs⟩
        unfold readBulkLen
        rw [hbulk]
        dsimp only
        rw [← hbulk]
    rw [length_cons, readBulks]
    rcases hhead with ⟨buf, hread, hs⟩ | ⟨hfuture, hread⟩
    · rw [hread]
      dsimp only
      by_cases hshort : buf.length < arg.length + 2
      · -- the argument has not arrived
        rw [if_pos hshort]
        refine Or.inr ⟨_, read, arg :: args, rfl, ?_, cons_ne_nil _ _, rfl,
          ⟨h.state, h.count, h.commands, h.completed, Or.inr ⟨arg, args, rfl, rfl, hs⟩⟩⟩
        rintro rfl
        have := congrArg length hs
        simp only [length_append, crlf, length_cons] at this
        omega
      · rw [if_neg hshort]
        obtain ⟨rest, hbuf, hrest⟩ :
          ∃ rest, buf = arg ++ (crlf ++ rest) ∧ rest ++ future = args.flatMap encodeBulk ++ tail := by
          rw [← append_assoc arg] at hs
          rcases append_eq_append_iff.1 hs with ⟨missing, hline, hfuture⟩ | ⟨rest, hbuf, htail⟩
          · have hnil : missing = [] := by
              have := congrArg length hline
              simp only [length_append, crlf, length_cons, length_nil] at this
              exact length_eq_zero_iff.1 (by omega)
            subst hnil
            refine ⟨[], ?_, hfuture⟩
            rw [append_nil] at hline
            rw [append_nil, hline]
          · refine ⟨rest, ?_, htail.symm⟩
            rw [hbuf, append_assoc]
        have htake : buf.take arg.length = arg := by rw [hbuf]; exact take_left' rfl
        have hdrop : buf.drop (arg.length + 2) = rest := by
          rw [hbuf, ← append_assoc]
          exact drop_left' (by simp [crlf])
        have hcc := ConnectionContext.setToken_concat h.commands (args.length + 1) arg
        rw [htake, hdrop]
        have hnext : Within future tail done (read ++ [arg]) args { c with
            ioBuf := rest, bulkLen := none, multibulkLen := args.length,
              cc := c.cc.setToken (args.length + 1) arg } := by
          refine ⟨h.state, rfl, ?_, ?_, Or.inl ⟨rfl, hrest⟩⟩
          · rw [hcc]
            rw [length_cons, set_token]
          · rw [hcc]
            exact h.completed
        have hlen' : ∀ arg ∈ args, arg.length < 2 ^ 63 := fun a ha => hlen a (mem_cons_of_mem _ ha)
        rcases ih hnext hlen' with ⟨c', hrun, hdone, hs'⟩ | ⟨c', read', args', hrun, hfuture, hne, hargs, hw⟩
        · refine Or.inl ⟨c', hrun, ?_, hs'⟩
          rwa [append_assoc] at hdone
        · refine Or.inr ⟨c', read', args', hrun, hfuture, hne, ?_, hw⟩
          rw [← hargs, append_assoc]
          rfl
    · rw [hread]
      exact Or.inr ⟨c, read, arg :: args, rfl, hfuture, cons_ne_nil _ _, rfl, h⟩

structure Sendable (cmd : List Str) : Prop where
  ne_nil : cmd ≠ []
  count : cmd.length < 2 ^ 31
  lengths : ∀ arg ∈ cmd, arg.length < 2 ^ 63

/-- where the parser is in the stream: `done` has been read, `left` is still to be read -/
inductive Position (future : Str) (done left : List (List Str)) (c : Connection) : Prop where
  | between (hstate : c.state ≠ .inline) (hcount : c.multibulkLen = 0) (hdone : Done done c)
      (hs : c.ioBuf ++ future = left.flatMap encodeRespArray)
  | within (read args : List Str) (rest : List (List Str)) (hleft : left = (read ++ args) :: rest) (hne : args ≠ [])
      (hw : Within future (rest.flatMap encodeRespArray) done read args c)

variable {future : Str} {done left : List (List Str)} {c : Connection}

lemma parseMultiBulk_position (hleft : ∀ cmd ∈ left, Sendable cmd) (hstate : c.state = .multibulk)
    (hbulk : c.multibulkLen = 0 → c.bulkLen = none) (hbuf : c.ioBuf ≠ []) (h : Position future done left c) :
    (∃ c' cmd rest, left = cmd :: rest ∧ c.parseMultiBulk = (c', .ok) ∧ Done (done ++ [cmd]) c' ∧
      c'.ioBuf ++ future = rest.flatMap encodeRespArray) ∨
    (∃ c', c.parseMultiBulk = (c', .needMore) ∧ future ≠ [] ∧ Position future done left c') := by
  -- from a place in a command on
  have hbulks : ∀ (c : Connection) (read args : List Str) (rest : List (List Str)), left = (read ++ args) :: rest →
      Within future (rest.flatMap encodeRespArray) done read args c →
      (∃ c' cmd rest, left = cmd :: rest ∧ readBulks c.multibulkLen c = (c', .ok) ∧ Done (done ++ [cmd]) c' ∧
        c'.ioBuf ++ future = rest.flatMap encodeRespArray) ∨
      (∃ c', readBulks c.multibulkLen c = (c', .needMore) ∧ future ≠ [] ∧ Position future done left c') := by
    intro c read args rest hl hw
    have hcmd : Sendable (read ++ args) := hleft _ (by rw [hl]; exact mem_cons_self ..)
    have hlen : ∀ arg ∈ args, arg.length < 2 ^ 63 := fun arg ha => hcmd.lengths arg (mem_append_right _ ha)
    rw [hw.count]
    rcases readBulks_position hw hlen with ⟨c', hrun, hd, hs⟩ | ⟨c', read', args', hrun, hf, hne, hargs, hw'⟩
    · exact Or.inl ⟨c', _, rest, hl, hrun, hd, hs⟩
    · exact Or.inr ⟨c', hrun, hf, .within read' args' rest (by rw [hl, hargs]) hne hw'⟩
  unfold parseMultiBulk
  cases h with
  | between hs0 hcount hdone hs =>
    rw [if_pos hcount]
    cases left with
    | nil =>
      exact absurd (append_eq_nil_iff.1 hs).1 hbuf
    | cons cmd rest =>
      have hcmd := hleft cmd (mem_cons_self ..)
      have hs' : c.ioBuf ++ future =
          42 :: toDecimal cmd.length ++ crlf ++ (cmd.flatMap encodeBulk ++ rest.flatMap encodeRespArray) := by
        rw [hs, flatMap_cons, encodeRespArray_eq]
        simp
      rcases readMultibulkLen_position hcmd.count (length_pos_iff.2 hcmd.ne_nil) hs' with ⟨buf, hread, hrest⟩ |
        ⟨hf, hread⟩
      · rw [hread]
        refine hbulks _ [] cmd rest rfl ⟨hstate, rfl, ?_, hdone.completed, Or.inl ⟨hbulk hcount, hrest⟩⟩
        show c.cc.toExecute ++ _ = _
        rw [hdone.commands]
        rfl
      · rw [hread]
        exact Or.inr ⟨c, rfl, hf, .between hs0 hcount hdone hs⟩
  | within read args rest hl hne hw =>
    have hpos : c.multibulkLen ≠ 0 := by
      rw [hw.count]
      exact fun h0 => hne (length_eq_zero_iff.1 h0)
    rw [if_neg hpos]
    exact hbulks c read args rest hl hw

lemma parseTurn_position (hleft : ∀ cmd ∈ left, Sendable cmd) (hwf : WellFormed c) (hbuf : c.ioBuf ≠ [])
    (h : Position future done left c) :
    (∃ c' cmd rest, left = cmd :: rest ∧ c.parseTurn = (c', .ok) ∧ Position future (done ++ [cmd]) rest c') ∨
    (∃ c', c.parseTurn = (c', .needMore) ∧ future ≠ [] ∧ Position future done left c') := by
  -- the turn goes on in the state for arrays
  obtain ⟨hstate, hpos⟩ : c.classify.state = .multibulk ∧ Position future done left c.classify := by
    cases h with
    | within read args rest hl hne hw =>
      rw [classify_of_ne (by rw [hw.state]; decide)]
      exact ⟨hw.state, .within read args rest hl hne hw⟩
    | between hs0 hcount hdone hs =>
      by_cases hinit : c.state = .init
      · have hstar : c.ioBuf[0]? = some 42 := by
          cases left with
          | nil =>
            exact absurd (append_eq_nil_iff.1 hs).1 hbuf
          | cons =>
            have := congrArg (fun s : Str => s[0]?) hs
            rw [getElem?_append_left (length_pos_iff.2 hbuf)] at this
            exact this
        rw [classify_of_init hinit, if_pos hstar]
        exact ⟨rfl, .between (by simp) hcount ⟨hdone.commands, hdone.completed⟩ hs⟩
      · rw [classify_of_ne hinit]
        refine ⟨?_, .between hs0 hcount hdone hs⟩
        cases hs1 : c.state with
        | init => exact absurd hs1 hinit
        | inline => exact absurd hs1 hs0
        | multibulk => rfl
  obtain ⟨hwf', hbuf', -⟩ := classify_spec hwf
  unfold parseTurn
  rw [if_neg (by rw [hstate]; decide)]
  rcases parseMultiBulk_position hleft hstate hwf'.bulk (by rw [hbuf']; exact hbuf) hpos with
    ⟨c', cmd, rest, hl, hrun, hdone, hs⟩ | ⟨c', hrun, hf, hpos'⟩
  · obtain ⟨c1, status, hrun1, -, hwf1, hend⟩ := parseMultiBulk_spec hwf' hstate
    cases hrun.symm.trans hrun1
    rcases hend with hstop | ⟨-, hz, -⟩
    · rcases hstop with hstop | hstop <;> cases hstop
    · rw [hrun]
      dsimp only
      rw [if_pos ⟨hz, hwf1.bulk hz⟩]
      exact Or.inl ⟨_, cmd, rest, hl, rfl, .between (by simp) hz ⟨hdone.commands, hdone.completed⟩ hs⟩
  · rw [hrun]
    exact Or.inr ⟨c', rfl, hf, hpos'⟩

/-- **A call of `ParseRedis`** consumes the buffer, or stops in a command of which some bytes are still to come. -/
theorem parseLoop_position {fuel : ℕ} (hfuel : c.ioBuf.length ≤ fuel) (hleft : ∀ cmd ∈ left, Sendable cmd)
    (hwf : WellFormed c) (h : Position future done left c) :
    ∃ c' status more rest, parseLoop fuel c = (c', status) ∧ left = more ++ rest ∧ WellFormed c' ∧
      Position future (done ++ more) rest c' ∧ (status = .ok ∧ c'.ioBuf = [] ∨ status = .needMore ∧ future ≠ []) := by
  have hstay : Position future (done ++ []) left c := by rwa [append_nil]
  induction fuel generalizing c done left with
  | zero =>
    have hnil : c.ioBuf = [] := length_eq_zero_iff.1 (Nat.le_zero.1 hfuel)
    exact ⟨c, .ok, [], left, rfl, rfl, hwf, hstay, Or.inl ⟨rfl, hnil⟩⟩
  | succ _ ih =>
    rw [parseLoop]
    by_cases hnil : c.ioBuf = []
    · rw [if_pos hnil]
      exact ⟨c, .ok, [], left, rfl, rfl, hwf, hstay, Or.inl ⟨rfl, hnil⟩⟩
    rw [if_neg hnil]
    obtain ⟨c1, status, hturn1, -, hwf1, hend⟩ := parseTurn_spec hwf
    rcases parseTurn_position hleft hwf hnil h with ⟨c', cmd, rest, hl, hturn, hpos⟩ | ⟨c', hturn, hf, hpos⟩
    · cases hturn.symm.trans hturn1
      have hlt : c1.ioBuf.length < c.ioBuf.length := by
        rcases hend with (hstop | hstop) | ⟨hcheck, -⟩ | ⟨-, hlt⟩
        · cases hstop
        · cases hstop
        · cases hcheck
        · exact hlt
      have hrest : ∀ cmd ∈ rest, Sendable cmd := fun x hx => hleft x (by rw [hl]; exact mem_cons_of_mem _ hx)
      rw [hturn]
      obtain ⟨c2, status, more, rest', hrun, hsplit, hwf2, hpos2, hend2⟩ :=
        ih (by omega) hrest hwf1 hpos (by rwa [append_nil])
      refine ⟨c2, status, cmd :: more, rest', hrun, ?_, hwf2, ?_, hend2⟩
      · rw [hl, hsplit]
        rfl
      · rwa [append_assoc] at hpos2
    · cases hturn.symm.trans hturn1
      rw [hturn]
      exact ⟨c1, .needMore, [], left, rfl, rfl, hwf1, by rwa [append_nil], Or.inr ⟨rfl, hf⟩⟩

/-! ## Chunks -/

lemma Position.finished (hleft : ∀ cmd ∈ left, Sendable cmd) (hbuf : c.ioBuf = []) (h : Position [] done left c) :
    left = [] ∧ Done done c := by
  cases h with
  | between _ _ hdone hs =>
    refine ⟨?_, hdone⟩
    cases left with
    | nil => rfl
    | cons =>
      rw [hbuf] at hs
      cases hs
  | within _ args _ _ hne hw =>
    obtain ⟨arg, args, rfl⟩ := exists_cons_of_ne_nil hne
    rcases hw.stream with ⟨-, hs⟩ | ⟨arg', rest', hargs, -, hs⟩
    · rw [hbuf] at hs
      cases hs
    · rw [hbuf] at hs
      have := congrArg length hs
      simp [crlf] at this

lemma feedAll_position (chunks : List Str) (hleft : ∀ cmd ∈ left, Sendable cmd) (hwf : WellFormed c)
    (h : Position chunks.flatten done left c) (hend : chunks.flatten = [] → c.ioBuf = []) :
    ∃ c', c.feedAll chunks = (c', .ok) ∧ c'.ioBuf = [] ∧ Done (done ++ left) c' := by
  induction chunks generalizing c done left with
  | nil =>
    have hbuf := hend rfl
    obtain ⟨hnil, hdone⟩ := h.finished hleft hbuf
    refine ⟨c, rfl, hbuf, ?_⟩
    rw [hnil, append_nil]
    exact hdone
  | cons chunk chunks ih =>
    set c0 : Connection := { c with ioBuf := c.ioBuf ++ chunk } with hc0
    have hwf0 : WellFormed c0 := ⟨hwf.idle, hwf.bulk, hwf.fresh, hwf.reading⟩
    have hpos0 : Position chunks.flatten done left c0 := by
      have hmove : ∀ s, c.ioBuf ++ (chunk :: chunks).flatten = s → c0.ioBuf ++ chunks.flatten = s := by
        rintro s rfl
        rw [flatten_cons, ← append_assoc]
      cases h with
      | between hs0 hcount hdone hs => exact .between hs0 hcount ⟨hdone.commands, hdone.completed⟩ (hmove _ hs)
      | within read args rest hl hne hw =>
        refine .within read args rest hl hne ⟨hw.state, hw.count, hw.commands, hw.completed, ?_⟩
        rcases hw.stream with ⟨hbulk, hs⟩ | ⟨arg, rest', hargs, hbulk, hs⟩
        · exact Or.inl ⟨hbulk, hmove _ hs⟩
        · exact Or.inr ⟨arg, rest', hargs, hbulk, hmove _ hs⟩
    obtain ⟨c1, status, more, rest, hrun, hsplit, hwf1, hpos1, hstop⟩ := parseLoop_position le_rfl hleft hwf0 hpos0
    have hrest : ∀ cmd ∈ rest, Sendable cmd := fun x hx => hleft x (by rw [hsplit]; exact mem_append_right _ hx)
    have hfeed : c.feed chunk = (c1, status) := hrun
    rw [feedAll, hfeed, hsplit, ← append_assoc]
    rcases hstop with ⟨rfl, hbuf⟩ | ⟨rfl, hfuture⟩
    · exact ih hrest hwf1 hpos1 (fun _ => hbuf)
    · exact ih hrest hwf1 hpos1 (fun hnil => absurd hnil hfuture)

/-- **Framing does not depend on how the bytes arrive.** -/
theorem framing (cmds : List (List Str)) (hcmds : ∀ cmd ∈ cmds, Sendable cmd) (chunks : List Str)
    (hchunks : chunks.flatten = cmds.flatMap encodeRespArray) :
    ∃ c, ({} : Connection).feedAll chunks = (c, .ok) ∧ c.cc.toExecute = cmds.map whole ∧
      c.cc.completed = cmds.map (map some) ∧ c.ioBuf = [] := by
  have hpos : Position chunks.flatten [] cmds {} := .between (by decide) rfl ⟨rfl, rfl⟩ (by rw [hchunks]; rfl)
  obtain ⟨c, hrun, hbuf, hdone⟩ := feedAll_position chunks hcmds wellFormed_init hpos (fun _ => rfl)
  exact ⟨c, hrun, hdone.commands, hdone.completed, hbuf⟩

/-- `PING` and `GET k`, cut in a length, between "\r" and "\n" and in an argument -/
theorem framing_cut : (∀ cmd ∈ [[text "PING"], [text "GET", text "k"]], Sendable cmd) ∧
    ∃ c, ({} : Connection).feedAll
        [text "*", text "1\r\n$4\r", text "\nPI", text "NG\r", text "\n*2\r\n$3\r\nGET\r\n$1\r\nk\r",
          text "\n"] = (c, .ok) ∧
      c.cc.toExecute = [[text "PING"], [text "GET", text "k"]].map whole ∧
      c.cc.completed = [[text "PING"], [text "GET", text "k"]].map (map some) ∧ c.ioBuf = [] := by
  have hcmds : ∀ cmd ∈ [[text "PING"], [text "GET", text "k"]], Sendable cmd := by
    intro cmd hcmd
    rcases mem_cons.1 hcmd with rfl | hcmd
    · exact ⟨by decide, by decide, by decide⟩
    · rw [mem_singleton.1 hcmd]
      exact ⟨by decide, by decide, by decide⟩
  exact ⟨hcmds, framing _ hcmds _ (by decide +kernel)⟩

/-- An array header with a number above `INT_MAX` is refused: a command of 2^31 empty arguments is not read. -/
theorem framing_rejects : ∃ cmds : List (List Str), ∃ chunks : List Str, (∀ cmd ∈ cmds, cmd ≠ []) ∧
    chunks.flatten = cmds.flatMap encodeRespArray ∧ cmds.length = 1 ∧
    (({} : Connection).feedAll chunks).2 = .error ∧ (({} : Connection).feedAll chunks).1.cc.completed = [] := by
  obtain ⟨cmd, hlen⟩ : ∃ cmd : List Str, cmd.length = 2 ^ 31 := ⟨replicate _ [], length_replicate⟩
  set c : Connection := { ioBuf := encodeRespArray cmd } with hc
  have hturn : c.parseTurn = ({ c with state := .multibulk }, .error) := by
    have hclass : c.classify = { c with state := .multibulk } := by
      rw [hc, encodeRespArray_eq]
      rfl
    have hread : ({ c with state := .multibulk } : Connection).readMultibulkLen = .error .error := by
      have hbig : (cmd.length : ℤ) > intMax ∨ (cmd.length : ℤ) ≤ 0 := by
        rw [hlen]
        left
        norm_num [intMax]
      rw [readMultibulkLen_arrived (by rw [hlen]; norm_num) (encodeRespArray_eq cmd), if_pos hbig]
    unfold parseTurn parseMultiBulk
    rw [hclass, hread]
    rfl
  have hfeed : ({} : Connection).feed (encodeRespArray cmd) = ({ c with state := .multibulk }, .error) := by
    show c.parseRedis = _
    have hpos : c.ioBuf.length = (c.ioBuf.length - 1) + 1 := by
      rw [hc, encodeRespArray_eq]
      simp
    rw [parseRedis, hpos, parseLoop, if_neg (by rw [hc, encodeRespArray_eq]; simp), hturn]
  have hall : ({} : Connection).feedAll [encodeRespArray cmd] = ({ c with state := .multibulk }, .error) := by
    rw [feedAll, hfeed]
  refine ⟨[cmd], [encodeRespArray cmd], ?_, by simp, rfl, by rw [hall], by rw [hall]⟩
  intro cmd' hcmd'
  rw [mem_singleton.1 hcmd']
  intro hnil
  rw [hnil] at hlen
  norm_num at hlen

end Connection

end MaxRedis.Service

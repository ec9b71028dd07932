/-
The request parser of a client connection (`Connection::ParseRedis`, `Connection::ParseMultiBulk`).

`ioBuf` holds the bytes that have been read and not consumed.
-/
import MaxRedis.Service.Context

namespace MaxRedis.Service

open Kv List

/-! ## Inline arguments -/

def hexDigit (c : UInt8) : Option UInt8 :=
  if 48 ≤ c ∧ c ≤ 57 then some (c - 48)
  else if 97 ≤ c ∧ c ≤ 102 then some (c - 87)
  else if 65 ≤ c ∧ c ≤ 70 then some (c - 55)
  else none

def unescape (c : UInt8) : UInt8 :=
  if c = 110 then 10 else if c = 114 then 13 else if c = 116 then 9 else if c = 98 then 8 else if c = 97 then 7 else c

inductive SplitMode where
  | blank
  | plain
  | double
  | single
  deriving DecidableEq

def closes (rest : Str) : Bool := rest.head?.all isSpace

/-- The characters of a line one by one; `skip` characters belong to an escape that has been read. `current` is the
argument that has been begun. -/
def splitArgs : SplitMode → List Str → Str → ℕ → Str → Option (List Str)
  | .blank, argv, _, _, [] => some argv
  | .plain, argv, current, _, [] => some (argv ++ [current])
  | .double, _, _, _, [] => none
  | .single, _, _, _, [] => none
  | mode, argv, current, skip + 1, _ :: rest => splitArgs mode argv current skip rest
  | .blank, argv, _, 0, c :: rest =>
    if isSpace c then splitArgs .blank argv [] 0 rest
    else if c = 34 then splitArgs .double argv [] 0 rest
    else if c = 39 then splitArgs .single argv [] 0 rest
    else splitArgs .plain argv [c] 0 rest
  | .plain, argv, current, 0, c :: rest =>
    if c = 32 ∨ c = 10 ∨ c = 13 ∨ c = 9 then splitArgs .blank (argv ++ [current]) [] 0 rest
    else if c = 34 then splitArgs .double argv current 0 rest
    else if c = 39 then splitArgs .single argv current 0 rest
    else splitArgs .plain argv (current ++ [c]) 0 rest
  | .double, argv, current, 0, c :: rest =>
    if c = 92 then
      match rest with
      | 120 :: a :: b :: _ =>
        match hexDigit a, hexDigit b with
        | some high, some low => splitArgs .double argv (current ++ [high * 16 + low]) 3 rest
        | _, _ => splitArgs .double argv (current ++ [120]) 1 rest
      | e :: _ => splitArgs .double argv (current ++ [unescape e]) 1 rest
      | [] => splitArgs .double argv (current ++ [c]) 0 rest
    else if c = 34 then if closes rest then splitArgs .blank (argv ++ [current]) [] 0 rest else none
    else splitArgs .double argv (current ++ [c]) 0 rest
  | .single, argv, current, 0, c :: rest =>
    if c = 92 ∧ rest.head? = some 39 then splitArgs .single argv (current ++ [39]) 1 rest
    else if c = 39 then if closes rest then splitArgs .blank (argv ++ [current]) [] 0 rest else none
    else splitArgs .single argv (current ++ [c]) 0 rest

def sdsSplitArgs (line : Str) : Option (List Str) := splitArgs .blank [] [] 0 (line.takeWhile (· ≠ 0))

def blankLine (line : Str) : Bool := (line.takeWhile (· ≠ 0)).all isSpace

lemma length_le_splitArgs {mode : SplitMode} {argv : List Str} {current : Str} {skip : ℕ} {s : Str} {r : List Str}
    (h : splitArgs mode argv current skip s = some r) : argv.length + (if mode = .blank then 0 else 1) ≤ r.length := by
  induction s generalizing mode argv current skip with
  | nil =>
    cases mode with
    | blank | plain => cases h; simp
    | double | single => cases h
  | cons _ _ ih =>
    cases skip with
    | succ =>
      cases mode with
      | _ => exact ih h
    | zero =>
      cases mode with
      | blank =>
        rw [splitArgs] at h
        split_ifs at h
        · exact ih h
        all_goals
          have := ih h
          simp at this ⊢
          omega
      | plain =>
        rw [splitArgs] at h
        split_ifs at h
        all_goals simpa using ih h
      | double =>
        unfold splitArgs at h
        split_ifs at h
        · split at h
          · split at h <;> exact ih h
          · exact ih h
          · exact ih h
        · simpa using ih h
        · exact ih h
      | single =>
        rw [splitArgs] at h
        split_ifs at h
        · exact ih h
        · simpa using ih h
        · exact ih h

lemma blankLine_of_sdsSplitArgs {line : Str} (h : sdsSplitArgs line = some []) : blankLine line := by
  unfold sdsSplitArgs at h
  unfold blankLine
  generalize line.takeWhile (· ≠ 0) = s at h ⊢
  induction s with
  | nil => rfl
  | cons _ _ ih =>
    rw [splitArgs] at h
    split_ifs at h with hc
    · rw [all_cons, hc, ih h]
      rfl
    all_goals
      have := length_le_splitArgs h
      simp at this

/-! ## Parser -/

inductive ParserStatus where
  | ok
  | needMore
  | error
  | checkFailed
  deriving DecidableEq

inductive ParseState where
  | init
  | inline
  | multibulk
  deriving DecidableEq

structure Connection where
  ioBuf : Str := []
  state : ParseState := .init
  multibulkLen : ℕ := 0
  bulkLen : Option ℕ := none
  parseStash : Str := []
  cc : ConnectionContext := {}
  deriving DecidableEq

def protoInlineMaxSize : ℕ := 1024 * 64

def intMax : ℤ := 2 ^ 31 - 1

def find (c : UInt8) (s : Str) : Option ℕ := s.findIdx? (· == c)

namespace Connection

def awaitMore (input : Str) : ParserStatus := if protoInlineMaxSize < input.length then .error else .needMore

def parseInline (c : Connection) : Connection × ParserStatus :=
  match find 10 c.ioBuf with
  | none =>
    if protoInlineMaxSize < c.ioBuf.length then (c, .error)
    else ({ c with parseStash := c.parseStash ++ c.ioBuf, ioBuf := [] }, .needMore)
  | some pos =>
    -- the end of the line is "\n" or "\r\n"
    let querylen := if 0 < pos ∧ c.ioBuf[pos - 1]? = some 13 then pos - 1 else pos
    let line := c.parseStash ++ c.ioBuf.take querylen
    match sdsSplitArgs line with
    | none => ({ c with parseStash := line ++ [0] }, .error)
    | some [] => ({ c with parseStash := line ++ [0] }, .checkFailed)
    | some argv =>
      ({ c with ioBuf := c.ioBuf.drop (pos + 1), parseStash := [], cc := c.cc.addParsedCommand (argv.map some) true },
      .ok)

def readMultibulkLen (c : Connection) : Except ParserStatus Connection :=
  match find 13 c.ioBuf with
  | none => .error (awaitMore c.ioBuf)
  | some pos =>
    if pos + 1 = c.ioBuf.length then .error (awaitMore c.ioBuf)
    else
      match simpleAtoi ((c.ioBuf.drop 1).take (pos - 1)) with
      | none => .error .error
      | some ll =>
        if ll > intMax ∨ ll ≤ 0 then .error .error
        else .ok { c with
          ioBuf := c.ioBuf.drop (pos + 2)
          multibulkLen := ll.toNat
          cc := c.cc.addParsedCommand (List.replicate ll.toNat none) false }

def readBulkLen (c : Connection) : Except ParserStatus (Connection × ℕ) :=
  match c.bulkLen with
  | some len => .ok (c, len)
  | none =>
    match find 13 c.ioBuf with
    | none => .error (awaitMore c.ioBuf)
    | some pos =>
      if pos + 1 = c.ioBuf.length then .error .needMore
      else if c.ioBuf[0]? ≠ some 36 ∨ c.ioBuf[pos + 1]? ≠ some 10 then .error .error
      else
        match simpleAtoi ((c.ioBuf.drop 1).take (pos - 1)) with
        | none => .error .error
        | some ll =>
          if ll < 0 then .error .error
          else .ok ({ c with ioBuf := c.ioBuf.drop (pos + 2), bulkLen := some ll.toNat }, ll.toNat)

def readBulks : ℕ → Connection → Connection × ParserStatus
  | 0, c => ({ c with cc := c.cc.completeTail }, .ok)
  | missing + 1, c =>
    match c.readBulkLen with
    | .error status => (c, status)
    | .ok (c, len) =>
      if c.ioBuf.length < len + 2 then (c, .needMore)
      else readBulks missing { c with
        ioBuf := c.ioBuf.drop (len + 2)
        bulkLen := none
        multibulkLen := missing
        cc := c.cc.setToken (missing + 1) (c.ioBuf.take len) }

def parseMultiBulk (c : Connection) : Connection × ParserStatus :=
  if c.multibulkLen = 0 then
    match c.readMultibulkLen with
    | .error status => (c, status)
    | .ok c => readBulks c.multibulkLen c
  else readBulks c.multibulkLen c

def classify (c : Connection) : Connection :=
  if c.state = .init then { c with state := if c.ioBuf[0]? = some 42 then .multibulk else .inline } else c

def parseTurn (c : Connection) : Connection × ParserStatus :=
  match if c.classify.state = .inline then c.classify.parseInline else c.classify.parseMultiBulk with
  | (c, .ok) => if c.multibulkLen = 0 ∧ c.bulkLen = none then ({ c with state := .init }, .ok) else (c, .checkFailed)
  | r => r

/-- the loop; a turn consumes input, so the length of the buffer is fuel enough (`parseLoop_spec`) -/
def parseLoop : ℕ → Connection → Connection × ParserStatus
  | 0, c => (c, .ok)
  | fuel + 1, c =>
    if c.ioBuf = [] then (c, .ok)
    else
      match c.parseTurn with
      | (c, .ok) => parseLoop fuel c
      | r => r

def parseRedis (c : Connection) : Connection × ParserStatus := parseLoop c.ioBuf.length c

def feed (c : Connection) (chunk : Str) : Connection × ParserStatus := { c with ioBuf := c.ioBuf ++ chunk }.parseRedis

def feedAll (c : Connection) : List Str → Connection × ParserStatus
  | [] => (c, .ok)
  | chunk :: chunks =>
    match c.feed chunk with
    | (c, .error) => (c, .error)
    | (c, .checkFailed) => (c, .checkFailed)
    | (c, _) => c.feedAll chunks

/-! ## Turns -/

def Stops (status : ParserStatus) : Prop := status = .needMore ∨ status = .error

lemma stops_awaitMore (input : Str) : Stops (awaitMore input) := by
  unfold awaitMore
  split_ifs
  · exact Or.inr rfl
  · exact Or.inl rfl

lemma readBulkLen_spec (c : Connection) :
    (∃ status, c.readBulkLen = .error status ∧ Stops status) ∨
    ∃ buf len, c.readBulkLen = .ok ({ c with ioBuf := buf, bulkLen := some len }, len) ∧
    buf.length ≤ c.ioBuf.length := by
  unfold readBulkLen
  split
  · rename_i len hlen
    refine Or.inr ⟨c.ioBuf, len, ?_, le_rfl⟩
    rw [← hlen]
  · split
    · exact Or.inl ⟨_, rfl, stops_awaitMore _⟩
    · split_ifs
      · exact Or.inl ⟨_, rfl, Or.inl rfl⟩
      · exact Or.inl ⟨_, rfl, Or.inr rfl⟩
      · split
        · exact Or.inl ⟨_, rfl, Or.inr rfl⟩
        · split_ifs
          · exact Or.inl ⟨_, rfl, Or.inr rfl⟩
          · exact Or.inr ⟨_, _, rfl, by rw [length_drop]; exact Nat.sub_le _ _⟩

lemma readMultibulkLen_spec (c : Connection) :
    (∃ status, c.readMultibulkLen = .error status ∧ Stops status) ∨
    ∃ buf len, 0 < len ∧ c.readMultibulkLen = .ok { c with
        ioBuf := buf, multibulkLen := len, cc := c.cc.addParsedCommand (replicate len none) false } ∧
      buf.length ≤ c.ioBuf.length := by
  unfold readMultibulkLen
  split
  · exact Or.inl ⟨_, rfl, stops_awaitMore _⟩
  · split_ifs
    · exact Or.inl ⟨_, rfl, stops_awaitMore _⟩
    · split
      · exact Or.inl ⟨_, rfl, Or.inr rfl⟩
      · split_ifs with hll
        · exact Or.inl ⟨_, rfl, Or.inr rfl⟩
        · exact Or.inr ⟨_, _, by omega, rfl, by rw [length_drop]; exact Nat.sub_le _ _⟩

/-! ## Well-formed connections -/

structure Fresh (cmd : ParsedCommand) : Prop where
  args : cmd.tokens ≠ []
  dispatched : cmd.dispatched = false
  sync : cmd.executeAsync = false
  resp : cmd.resp = .monostate
  pending : cmd.executeDone = false

structure WellFormed (c : Connection) : Prop where
  idle : c.state ≠ .multibulk → c.multibulkLen = 0
  bulk : c.multibulkLen = 0 → c.bulkLen = none
  fresh : ∀ cmd ∈ c.cc.toExecute, Fresh cmd
  reading : 0 < c.multibulkLen → ∃ ready tail, c.cc.toExecute = ready ++ [tail] ∧ tail.parseComplete = false

lemma wellFormed_init : WellFormed {} where
  idle := fun _ => rfl
  bulk := fun _ => rfl
  fresh := by simp
  reading := fun h => absurd h (lt_irrefl _)

/-- What the parser leaves alone: the commands that have been dispatched, and the replies. What it completes waits to be
dispatched. -/
structure Frame (c c' : Connection) : Prop where
  replying : c'.cc.replying = c.cc.replying
  serializer : c'.cc.serializer = c.cc.serializer
  completed : ∃ more, c'.cc.completed = c.cc.completed ++ more ∧ c'.cc.ready = c.cc.ready ++ more

lemma Frame.of_cc {c c' : Connection} (h : c'.cc = c.cc) : Frame c c' :=
  ⟨by rw [h], by rw [h], [], by rw [h, append_nil], by rw [h, append_nil]⟩

lemma Frame.trans {a b c : Connection} (h1 : Frame a b) (h2 : Frame b c) : Frame a c := by
  obtain ⟨more1, hc1, hr1⟩ := h1.completed
  obtain ⟨more2, hc2, hr2⟩ := h2.completed
  refine ⟨h2.replying.trans h1.replying, h2.serializer.trans h1.serializer, more1 ++ more2, ?_, ?_⟩
  · rw [hc2, hc1, append_assoc]
  · rw [hr2, hr1, append_assoc]

structure Reading (missing : ℕ) (c : Connection) : Prop where
  state : c.state = .multibulk
  count : c.multibulkLen = missing
  bulk : missing = 0 → c.bulkLen = none
  fresh : ∀ cmd ∈ c.cc.toExecute, Fresh cmd
  tail : ∃ ready tail, c.cc.toExecute = ready ++ [tail] ∧ tail.parseComplete = false

variable {c : Connection} {missing : ℕ}

lemma Reading.wellFormed (h : Reading missing c) : WellFormed c where
  idle := fun hs => absurd h.state hs
  bulk := fun h0 => h.bulk (h.count.symm.trans h0)
  fresh := h.fresh
  reading := fun _ => h.tail

lemma fresh_concat {ready : List ParsedCommand} {tail tail' : ParsedCommand} (h : ∀ cmd ∈ ready ++ [tail], Fresh cmd)
    (htail : Fresh tail → Fresh tail') : ∀ cmd ∈ ready ++ [tail'], Fresh cmd := by
  intro cmd hcmd
  rcases mem_append.1 hcmd with hcmd | hcmd
  · exact h cmd (mem_append_left _ hcmd)
  · rw [mem_singleton.1 hcmd]
    exact htail (h tail (by simp))

lemma Reading.token (h : Reading (missing + 1) c) (rest arg : Str) :
    Reading missing { c with
      ioBuf := rest, bulkLen := none, multibulkLen := missing, cc := c.cc.setToken (missing + 1) arg } := by
  obtain ⟨ready, tail, hlist, htail⟩ := h.tail
  have hcc := ConnectionContext.setToken_concat hlist (missing + 1) arg
  have hfresh : ∀ cmd ∈ ready ++ [tail], Fresh cmd := hlist ▸ h.fresh
  refine ⟨h.state, rfl, fun _ => rfl, ?_, ?_⟩
  · rw [hcc]
    apply fresh_concat hfresh
    intro hf
    refine ⟨?_, hf.dispatched, hf.sync, hf.resp, hf.pending⟩
    intro hnil
    exact hf.args ((set_eq_nil_iff _ _).1 hnil)
  · rw [hcc]
    exact ⟨ready, _, rfl, htail⟩

/-- **The loop over the arguments** stops while the array is being read, or consumes all of it. -/
lemma readBulks_spec (h : Reading missing c) :
    ∃ c' status, readBulks missing c = (c', status) ∧ Frame c c' ∧ WellFormed c' ∧
      (Stops status ∨ status = .ok ∧ c'.multibulkLen = 0 ∧ c'.ioBuf.length + 2 * missing ≤ c.ioBuf.length) := by
  induction missing generalizing c with
  | zero =>
    obtain ⟨ready, tail, hlist, htail⟩ := h.tail
    have hcc := ConnectionContext.completeTail_concat hlist
    have hready := ConnectionContext.ready_completeTail hlist htail
    have hfresh : ∀ cmd ∈ ready ++ [tail], Fresh cmd := hlist ▸ h.fresh
    refine ⟨{ c with cc := c.cc.completeTail }, .ok, rfl,
      ⟨by rw [hcc], by rw [hcc], [tail.tokens], by rw [hcc], hready⟩, ⟨?_, ?_, ?_, ?_⟩, Or.inr ⟨rfl, h.count, le_rfl⟩⟩
    · exact fun hs => absurd h.state hs
    · exact fun _ => h.bulk rfl
    · rw [hcc]
      exact fresh_concat hfresh (fun hf => ⟨hf.args, hf.dispatched, hf.sync, hf.resp, hf.pending⟩)
    · intro hpos
      exact absurd h.count (Nat.ne_of_gt hpos)
  | succ missing ih =>
    rw [readBulks]
    rcases readBulkLen_spec c with ⟨status, hread, hstop⟩ | ⟨buf, len, hread, hbuf⟩
    · rw [hread]
      exact ⟨c, status, rfl, Frame.of_cc rfl, h.wellFormed, Or.inl hstop⟩
    · rw [hread]
      dsimp only
      have hknown : Reading (missing + 1) { c with ioBuf := buf, bulkLen := some len } :=
        ⟨h.state, h.count, fun h0 => absurd h0 (Nat.succ_ne_zero _), h.fresh, h.tail⟩
      by_cases hshort : buf.length < len + 2
      · rw [if_pos hshort]
        exact ⟨_, .needMore, rfl, .of_cc rfl, hknown.wellFormed, Or.inl (Or.inl rfl)⟩
      · rw [if_neg hshort]
        have hnext := hknown.token (buf.drop (len + 2)) (buf.take len)
        obtain ⟨c', status, hrun, hframe, hwf, hend⟩ := ih hnext
        obtain ⟨ready, tail, hlist, htail⟩ := h.tail
        have hcc := ConnectionContext.setToken_concat hlist (missing + 1) (buf.take len)
        have hready := ConnectionContext.ready_setToken hlist htail (missing + 1) (buf.take len)
        have htoken : Frame c { c with
            ioBuf := buf.drop (len + 2), bulkLen := none, multibulkLen := missing
            cc := c.cc.setToken (missing + 1) (buf.take len) } :=
          ⟨by rw [hcc], by rw [hcc], [], by rw [hcc, append_nil], by rw [append_nil]; exact hready⟩
        refine ⟨c', status, hrun, htoken.trans hframe, hwf, ?_⟩
        · rcases hend with hstop | ⟨hok, hzero, hle⟩
          · exact Or.inl hstop
          · rw [length_drop] at hle
            exact Or.inr ⟨hok, hzero, by omega⟩

lemma parseMultiBulk_spec (h : WellFormed c) (hstate : c.state = .multibulk) :
    ∃ c' status, c.parseMultiBulk = (c', status) ∧ Frame c c' ∧ WellFormed c' ∧
      (Stops status ∨ status = .ok ∧ c'.multibulkLen = 0 ∧ c'.ioBuf.length < c.ioBuf.length) := by
  unfold parseMultiBulk
  by_cases hzero : c.multibulkLen = 0
  · rw [if_pos hzero]
    rcases readMultibulkLen_spec c with ⟨status, hread, hstop⟩ | ⟨buf, len, hpos, hread, hbuf⟩
    · rw [hread]
      exact ⟨c, status, rfl, Frame.of_cc rfl, h, Or.inl hstop⟩
    · rw [hread]
      have hreading : Reading len { c with
          ioBuf := buf, multibulkLen := len, cc := c.cc.addParsedCommand (replicate len none) false } := by
        refine ⟨hstate, rfl, fun h0 => absurd h0 (Nat.ne_of_gt hpos), ?_, ⟨_, _, rfl, rfl⟩⟩
        intro cmd hcmd
        rcases mem_append.1 hcmd with hcmd | hcmd
        · exact h.fresh cmd hcmd
        · rw [mem_singleton.1 hcmd]
          refine ⟨?_, rfl, rfl, rfl, rfl⟩
          intro hnil
          exact absurd ((replicate_eq_nil_iff _).1 hnil) (Nat.ne_of_gt hpos)
      obtain ⟨c', status, hrun, hframe, hwf, hend⟩ := readBulks_spec hreading
      have hopen : Frame c { c with
          ioBuf := buf, multibulkLen := len, cc := c.cc.addParsedCommand (replicate len none) false } :=
        ⟨rfl, rfl, [], (append_nil _).symm, by rw [append_nil]; exact ConnectionContext.ready_openCommand _ _⟩
      refine ⟨c', status, hrun, hopen.trans hframe, hwf, ?_⟩
      rcases hend with hstop | ⟨hok, hz, hle⟩
      · exact Or.inl hstop
      · exact Or.inr ⟨hok, hz, by dsimp only at hle; omega⟩
  · rw [if_neg hzero]
    have hpos : 0 < c.multibulkLen := Nat.pos_of_ne_zero hzero
    have hreading : Reading c.multibulkLen c := ⟨hstate, rfl, h.bulk, h.fresh, h.reading hpos⟩
    obtain ⟨c', status, hrun, hframe, hwf, hend⟩ := readBulks_spec hreading
    refine ⟨c', status, hrun, hframe, hwf, ?_⟩
    rcases hend with hstop | ⟨hok, hz, hle⟩
    · exact Or.inl hstop
    · exact Or.inr ⟨hok, hz, by omega⟩

def inlineLine (c : Connection) : Option Str :=
  if c.classify.state = .inline then
    (find 10 c.ioBuf).map (fun pos =>
      c.parseStash ++ c.ioBuf.take (if 0 < pos ∧ c.ioBuf[pos - 1]? = some 13 then pos - 1 else pos))
  else none

lemma classify_of_ne (h : c.state ≠ .init) : c.classify = c := by
  rw [classify, if_neg h]

lemma classify_of_init (h : c.state = .init) :
    c.classify = { c with state := if c.ioBuf[0]? = some 42 then .multibulk else .inline } := by
  rw [classify, if_pos h]

lemma classify_spec (h : WellFormed c) :
    WellFormed c.classify ∧ c.classify.ioBuf = c.ioBuf ∧ Frame c c.classify ∧ c.classify.state ≠ .init ∧
      c.classify.inlineLine = c.inlineLine := by
  by_cases hinit : c.state = .init
  · have hidle : c.multibulkLen = 0 := h.idle (by rw [hinit]; decide)
    have heq := classify_of_init hinit
    have hstate : c.classify.state ≠ .init := by
      rw [heq]
      dsimp only
      split_ifs <;> decide
    refine ⟨?_, by rw [heq], by rw [heq]; exact .of_cc rfl, hstate, ?_⟩
    · rw [heq]
      exact ⟨fun _ => hidle, h.bulk, h.fresh, h.reading⟩
    · unfold inlineLine
      rw [classify_of_ne hstate, heq]
  · rw [classify_of_ne hinit]
    exact ⟨h, rfl, Frame.of_cc rfl, hinit, rfl⟩

lemma find_lt {b : UInt8} {s : Str} {pos : ℕ} (h : find b s = some pos) : pos < s.length :=
  (findIdx?_eq_some_iff_getElem.1 h).1

lemma parseInline_spec (h : WellFormed c) (hstate : c.state = .inline) :
    ∃ c' status, c.parseInline = (c', status) ∧ Frame c c' ∧ WellFormed c' ∧
      (Stops status ∨ (status = .checkFailed ∧ ∃ line, c.inlineLine = some line ∧ blankLine line) ∨
        status = .ok ∧ c'.multibulkLen = 0 ∧ c'.ioBuf.length < c.ioBuf.length) := by
  have hidle : c.multibulkLen = 0 := h.idle (by rw [hstate]; decide)
  have hclass : c.classify.state = .inline := by rw [classify_of_ne (by rw [hstate]; decide), hstate]
  -- the counters and the commands are kept as long as no command is added
  have hkeep : ∀ buf stash, WellFormed { c with ioBuf := buf, parseStash := stash } :=
    fun _ _ => ⟨h.idle, h.bulk, h.fresh, h.reading⟩
  unfold parseInline
  cases hfind : find 10 c.ioBuf with
  | none =>
    split_ifs
    · exact ⟨c, .error, rfl, Frame.of_cc rfl, h, Or.inl (Or.inr rfl)⟩
    · exact ⟨_, .needMore, rfl, .of_cc rfl, hkeep _ _, Or.inl (Or.inl rfl)⟩
  | some pos =>
    dsimp only
    set line := c.parseStash ++ c.ioBuf.take (if 0 < pos ∧ c.ioBuf[pos - 1]? = some 13 then pos - 1 else pos) with hline
    have hinline : c.inlineLine = some line := by
      unfold inlineLine
      rw [if_pos hclass, hfind]
      rfl
    have hpos := find_lt hfind
    cases hargs : sdsSplitArgs line with
    | none => exact ⟨_, .error, rfl, .of_cc rfl, hkeep _ _, Or.inl (Or.inr rfl)⟩
    | some argv =>
      cases argv with
      | nil =>
        exact ⟨_, .checkFailed, rfl, .of_cc rfl, hkeep _ _,
          Or.inr (Or.inl ⟨rfl, line, hinline, blankLine_of_sdsSplitArgs hargs⟩)⟩
      | cons =>
        refine ⟨_, .ok, rfl, ⟨rfl, rfl, [_], rfl, ConnectionContext.ready_addParsedCommand _ _⟩,
          ⟨h.idle, h.bulk, ?_, ?_⟩,
          Or.inr (Or.inr ⟨rfl, hidle, ?_⟩)⟩
        · intro cmd hcmd
          rcases mem_append.1 hcmd with hcmd | hcmd
          · exact h.fresh cmd hcmd
          · rw [mem_singleton.1 hcmd]
            exact ⟨by simp, rfl, rfl, rfl, rfl⟩
        · intro hm
          exact absurd hidle (Nat.ne_of_gt hm)
        · rw [length_drop]
          omega

/-- **A turn of the loop** keeps the connection well formed and what has been dispatched as it was. It fails a `CHECK`
only at an inline line of blanks. A turn that succeeds consumes input. -/
lemma parseTurn_spec (h : WellFormed c) : ∃ c' status, c.parseTurn = (c', status) ∧ Frame c c' ∧ WellFormed c' ∧
      (Stops status ∨ (status = .checkFailed ∧ ∃ line, c.inlineLine = some line ∧ blankLine line) ∨
        status = .ok ∧ c'.ioBuf.length < c.ioBuf.length) := by
  obtain ⟨hwf, hbuf, hframe, hstate, hinline⟩ := classify_spec h
  have hread : ∃ c' status, (if c.classify.state = .inline then c.classify.parseInline else c.classify.parseMultiBulk) =
    (c', status) ∧
      Frame c.classify c' ∧ WellFormed c' ∧
      (Stops status ∨ (status = .checkFailed ∧ ∃ line, c.classify.inlineLine = some line ∧ blankLine line) ∨
        status = .ok ∧ c'.multibulkLen = 0 ∧ c'.ioBuf.length < c.classify.ioBuf.length) := by
    by_cases hline : c.classify.state = .inline
    · rw [if_pos hline]
      exact parseInline_spec hwf hline
    · have hmulti : c.classify.state = .multibulk := by
        cases hs : c.classify.state with
        | init => exact absurd hs hstate
        | inline => exact absurd hs hline
        | multibulk => rfl
      rw [if_neg hline]
      obtain ⟨c', status, hrun, hfr, hwf', hend⟩ := parseMultiBulk_spec hwf hmulti
      exact ⟨c', status, hrun, hfr, hwf', hend.imp_right Or.inr⟩
  obtain ⟨c', status, hrun, hfr, hwf', hend⟩ := hread
  unfold parseTurn
  rw [hrun]
  rcases hend with hstop | ⟨hcheck, hblank⟩ | ⟨hok, hz, hlt⟩
  · rcases hstop with rfl | rfl
    · exact ⟨c', _, rfl, hframe.trans hfr, hwf', Or.inl (Or.inl rfl)⟩
    · exact ⟨c', _, rfl, hframe.trans hfr, hwf', Or.inl (Or.inr rfl)⟩
  · subst hcheck
    rw [hinline] at hblank
    exact ⟨c', _, rfl, hframe.trans hfr, hwf', Or.inr (Or.inl ⟨rfl, hblank⟩)⟩
  · -- the command has been read as a whole
    subst hok
    dsimp only
    rw [if_pos ⟨hz, hwf'.bulk hz⟩]
    exact ⟨_, _, rfl, (hframe.trans hfr).trans (.of_cc rfl), ⟨fun _ => hz, hwf'.bulk, hwf'.fresh, hwf'.reading⟩,
      Or.inr (Or.inr ⟨rfl, by rw [← hbuf]; exact hlt⟩)⟩

def turns : ℕ → Connection → List Connection
  | 0, _ => []
  | fuel + 1, c =>
    if c.ioBuf = [] then []
    else c :: match c.parseTurn with
      | (c, .ok) => turns fuel c
      | _ => []

/-- **`ParseRedis`** keeps the connection well formed, and ends with an empty buffer unless it stops before. It fails a
`CHECK` only if a turn begins at an inline line of blanks. -/
theorem parseLoop_spec {fuel : ℕ} (h : WellFormed c) (hfuel : c.ioBuf.length ≤ fuel) :
    ∃ c' status, parseLoop fuel c = (c', status) ∧ Frame c c' ∧ WellFormed c' ∧
      (Stops status ∨
        (status = .checkFailed ∧ ∃ s ∈ turns fuel c, ∃ line, s.inlineLine = some line ∧ blankLine line) ∨
        status = .ok ∧ c'.ioBuf = []) := by
  induction fuel generalizing c with
  | zero =>
    have hnil : c.ioBuf = [] := length_eq_zero_iff.1 (Nat.le_zero.1 hfuel)
    exact ⟨c, .ok, rfl, Frame.of_cc rfl, h, Or.inr (Or.inr ⟨rfl, hnil⟩)⟩
  | succ _ ih =>
    by_cases hnil : c.ioBuf = []
    · refine ⟨c, .ok, ?_, Frame.of_cc rfl, h, Or.inr (Or.inr ⟨rfl, hnil⟩)⟩
      rw [parseLoop, if_pos hnil]
    · obtain ⟨c1, status, hturn, hframe, hwf, hend⟩ := parseTurn_spec h
      rw [parseLoop, if_neg hnil, turns, if_neg hnil, hturn]
      rcases hend with hstop | ⟨hcheck, hblank⟩ | ⟨hok, hlt⟩
      · rcases hstop with rfl | rfl
        · exact ⟨c1, _, rfl, hframe, hwf, Or.inl (Or.inl rfl)⟩
        · exact ⟨c1, _, rfl, hframe, hwf, Or.inl (Or.inr rfl)⟩
      · subst hcheck
        exact ⟨c1, _, rfl, hframe, hwf, Or.inr (Or.inl ⟨rfl, c, by simp, hblank⟩)⟩
      · subst hok
        obtain ⟨c2, status, hrun, hframe2, hwf2, hend2⟩ := ih hwf (by omega)
        refine ⟨c2, status, hrun, hframe.trans hframe2, hwf2, ?_⟩
        rcases hend2 with hstop | ⟨hcheck, s, hs, hblank⟩ | hok
        · exact Or.inl hstop
        · exact Or.inr (Or.inl ⟨hcheck, s, mem_cons_of_mem _ hs, hblank⟩)
        · exact Or.inr (Or.inr hok)

end Connection

end MaxRedis.Service

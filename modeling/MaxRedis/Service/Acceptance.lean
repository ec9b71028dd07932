/-
What is accepted as an array.
-/
import MaxRedis.Core.Run
import MaxRedis.Service.Framing

namespace MaxRedis.Service

open Kv Connection List

/-! ## The parser with what it consumes -/

structure Traced where
  conn : Connection := {}
  consumed : Str := []
  arrays : List (Str × List (Option Str)) := []
  deriving DecidableEq

inductive ParseEvent where
  | arrive (chunk : Str)
  | turn

namespace Traced

def turn (t : Traced) : Traced :=
  if t.conn.ioBuf = [] then t
  else
    let out := t.conn.parseTurn
    let bytes := t.consumed ++ t.conn.ioBuf.take (t.conn.ioBuf.length - out.1.ioBuf.length)
    if out.2 ≠ .ok then { t with conn := out.1, consumed := bytes }
    else if t.conn.classify.state ≠ .multibulk then { t with conn := out.1, consumed := [] }
    else ⟨out.1, [], t.arrays ++ [(bytes, out.1.cc.completed.getLast?.getD [])]⟩

def step (t : Traced) : ParseEvent → Traced
  | .arrive chunk => { t with conn := { t.conn with ioBuf := t.conn.ioBuf ++ chunk } }
  | .turn => t.turn

abbrev run (t : Traced) (es : List ParseEvent) : Traced := Run.run step t es

end Traced

/-! ## What is consumed for an array -/

structure BulkText where
  len : Str
  arg : Str
  close : Str

def BulkText.bytes (b : BulkText) : Str := 36 :: b.len ++ crlf ++ b.arg ++ b.close

structure BulkText.Read (b : BulkText) : Prop where
  number : simpleAtoi b.len = some (b.arg.length : ℤ)
  line : 13 ∉ b.len
  close : b.close.length = 2

structure ArrayText where
  count : Str
  lf : UInt8
  bulks : List BulkText

namespace ArrayText

def bytes (a : ArrayText) : Str := 42 :: a.count ++ [13, a.lf] ++ a.bulks.flatMap BulkText.bytes

def args (a : ArrayText) : List (Option Str) := (a.bulks.map BulkText.arg).map some

/-- the parser has read these arguments, and `missing` more are to come -/
structure Read (a : ArrayText) (missing : ℕ) : Prop where
  number : simpleAtoi a.count = some ((a.bulks.length + missing : ℕ) : ℤ)
  line : 13 ∉ a.count
  bulks : ∀ b ∈ a.bulks, b.Read

end ArrayText

namespace Connection

/-- In an array of which `missing` arguments are to be read: what has been consumed for it is the text up to there, with
the header of the next argument if its length is known. -/
structure InArray (consumed : Str) (missing : ℕ) (c : Connection) : Prop where
  state : c.state = .multibulk
  count : c.multibulkLen = missing
  text : ∃ (a : ArrayText) (head : Str) (ready : List ParsedCommand) (tail : ParsedCommand), a.Read missing ∧
    c.cc.toExecute = ready ++ [tail] ∧ tail.tokens = a.args ++ List.replicate missing none ∧
      consumed = a.bytes ++ head ∧
    (c.bulkLen = none ∧ head = [] ∨
      0 < missing ∧ ∃ len n, head = 36 :: len ++ crlf ∧ simpleAtoi len = some ((n : ℕ) : ℤ) ∧ 13 ∉ len ∧
        c.bulkLen = some n)

lemma find_split {s : Str} {pos : ℕ} (h : find 13 s = some pos) : 13 ∉ s.take pos ∧ s[pos]? = some 13 := by
  obtain ⟨hlt, hpos, hbefore⟩ := findIdx?_eq_some_iff_getElem.1 h
  refine ⟨?_, ?_⟩
  · intro hmem
    obtain ⟨i, hi, heq⟩ := mem_iff_getElem.1 hmem
    rw [length_take] at hi
    rw [getElem_take] at heq
    exact absurd heq (by simpa using hbefore i (by omega))
  · rw [getElem?_eq_getElem hlt]
    simpa using hpos

lemma header_split {s : Str} {b lf : UInt8} {pos : ℕ} (h : find 13 s = some pos) (hb : s[0]? = some b) (hne : b ≠ 13)
    (hlf : s[pos + 1]? = some lf) :
    13 ∉ (s.drop 1).take (pos - 1) ∧ s = b :: (s.drop 1).take (pos - 1) ++ [13, lf] ++ s.drop (pos + 2) := by
  obtain ⟨hline, hcr⟩ := find_split h
  cases s with
  | nil => cases hb
  | cons _ s =>
    cases hb
    cases pos with
    | zero => exact absurd (Option.some.inj hcr) hne
    | succ pos =>
      rw [getElem?_cons_succ] at hcr hlf
      obtain ⟨hlt, hval⟩ := List.getElem?_eq_some_iff.1 hcr
      obtain ⟨hlt', hval'⟩ := List.getElem?_eq_some_iff.1 hlf
      refine ⟨fun hmem => hline (by rw [take_succ_cons]; exact mem_cons_of_mem _ hmem), ?_⟩
      rw [append_assoc, ← hval, ← hval']
      show b :: s = b :: (s.take pos ++ s[pos] :: s[pos + 1] :: s.drop (pos + 1 + 1))
      rw [← drop_eq_getElem_cons hlt', ← drop_eq_getElem_cons hlt, take_append_drop]

variable {c : Connection} {consumed : Str} {c' : Connection} {n missing : ℕ}

lemma readBulkLen_text (hbulk : c.bulkLen = none) (h : c.readBulkLen = .ok (c', n)) :
    ∃ len rest, simpleAtoi len = some (n : ℤ) ∧ 13 ∉ len ∧ c.ioBuf = 36 :: len ++ crlf ++ rest ∧
      c' = { c with ioBuf := rest, bulkLen := some n } := by
  unfold readBulkLen at h
  rw [hbulk] at h
  dsimp only at h
  split at h
  · cases h
  · rename_i pos hfind
    split_ifs at h with hend hform
    rw [not_or, not_not, not_not] at hform
    split at h
    · cases h
    · rename_i ll hll
      split_ifs at h with hneg
      cases h
      obtain ⟨hline, hsplit⟩ := header_split hfind hform.1 (by decide) hform.2
      exact ⟨_, _, by rw [hll, Int.toNat_of_nonneg (by omega)], hline, hsplit, rfl⟩

lemma readMultibulkLen_text (hstar : c.ioBuf[0]? = some 42) (h : c.readMultibulkLen = .ok c') :
    ∃ count lf n rest, simpleAtoi count = some ((n : ℕ) : ℤ) ∧ 0 < n ∧ 13 ∉ count ∧
      c.ioBuf = 42 :: count ++ [13, lf] ++ rest ∧
      c' = { c with
        ioBuf := rest, multibulkLen := n, cc := c.cc.addParsedCommand (replicate n none) false } := by
  unfold readMultibulkLen at h
  split at h
  · cases h
  · rename_i pos hfind
    split_ifs at h with hend
    split at h
    · cases h
    · rename_i ll hll
      split_ifs at h with hrange
      cases h
      have hlt : pos + 1 < c.ioBuf.length := by
        have := find_lt hfind
        omega
      obtain ⟨hline, hsplit⟩ := header_split hfind hstar (by decide) (getElem?_eq_getElem hlt)
      exact ⟨_, _, _, _, by rw [hll, Int.toNat_of_nonneg (by omega)], by omega, hline, hsplit, rfl⟩

lemma InArray.token (h : InArray consumed (missing + 1) c) (hbulk : c.bulkLen = some n)
    (hlen : n + 2 ≤ c.ioBuf.length) :
    InArray (consumed ++ c.ioBuf.take (n + 2)) missing { c with
      ioBuf := c.ioBuf.drop (n + 2), bulkLen := none, multibulkLen := missing
      cc := c.cc.setToken (missing + 1) (c.ioBuf.take n) } := by
  obtain ⟨a, head, ready, tail, ha, hlist, htokens, hconsumed,
      ⟨hnone, -⟩ | ⟨-, len, m, hhead, hnum, hline, hsome⟩⟩ := h.text
  · cases hbulk.symm.trans hnone
  obtain rfl : m = n := Option.some.inj (hsome.symm.trans hbulk)
  have harg : (c.ioBuf.take m).length = m := by
    rw [length_take]
    omega
  refine ⟨h.state, rfl, { a with bulks := a.bulks ++ [⟨len, c.ioBuf.take m, (c.ioBuf.drop m).take 2⟩] }, [], ready,
    { tail with tokens := tail.tokens.set (tail.tokens.length - (missing + 1)) (some (c.ioBuf.take m)) },
    ⟨?_, ha.line, ?_⟩, congrArg ConnectionContext.toExecute (ConnectionContext.setToken_concat hlist _ _), ?_, ?_,
    Or.inl ⟨rfl, rfl⟩⟩
  · rw [ha.number, length_append]
    congr 2
    simp only [length_cons, length_nil]
    omega
  · intro b hb
    rcases mem_append.1 hb with hb | hb
    · exact ha.bulks b hb
    · rw [mem_singleton.1 hb]
      refine ⟨by rw [harg, hnum], hline, ?_⟩
      rw [length_take, length_drop]
      omega
  · have hset := set_token (a.bulks.map BulkText.arg) missing (c.ioBuf.take m)
    rw [htokens, ArrayText.args, hset]
    simp [ArrayText.args]
  · rw [hconsumed, hhead, take_add, append_nil]
    simp [ArrayText.bytes, BulkText.bytes, flatMap_append]

def AtArray (consumed : Str) (c : Connection) : Prop :=
  (consumed = [] ∧ c.multibulkLen = 0 ∧ c.ioBuf[0]? = some 42) ∨
  0 < c.multibulkLen ∧ InArray consumed c.multibulkLen c

lemma InArray.atArray (h : InArray consumed missing c) (hpos : 0 < missing) : AtArray consumed c := by
  refine Or.inr ?_
  rw [h.count]
  exact ⟨hpos, h⟩

def Consumes (consumed : Str) (c : Connection) (out : Connection × ParserStatus) : Prop :=
  ∃ taken, c.ioBuf = taken ++ out.1.ioBuf ∧
    (out.2 = .ok ∧ (∃ a : ArrayText, a.Read 0 ∧ consumed ++ taken = a.bytes ∧
        out.1.cc.completed.getLast? = some a.args) ∨
      out.2 ≠ .ok ∧ out.1.state = .multibulk ∧ AtArray (consumed ++ taken) out.1)

lemma AtArray.stops (h : AtArray consumed c) (hstate : c.state = .multibulk) {status : ParserStatus}
    (hstop : Stops status) : Consumes consumed c (c, status) := by
  refine ⟨[], rfl, Or.inr ⟨?_, hstate, by rwa [append_nil]⟩⟩
  rcases hstop with rfl | rfl
  · exact nofun
  · exact nofun

lemma Consumes.after (c1 : Connection) {out : Connection × ParserStatus} {taken : Str}
    (hbuf : c.ioBuf = taken ++ c1.ioBuf) (h : Consumes (consumed ++ taken) c1 out) : Consumes consumed c out := by
  obtain ⟨taken', hbuf', hend⟩ := h
  refine ⟨taken ++ taken', by rw [hbuf, hbuf', append_assoc], ?_⟩
  rwa [← append_assoc]

theorem readBulks_text (h : InArray consumed missing c) : Consumes consumed c (readBulks missing c) := by
  induction missing generalizing c consumed with
  | zero =>
    obtain ⟨a, head, ready, tail, ha, hlist, htokens, hconsumed, ⟨-, hhead⟩ | ⟨hpos, -⟩⟩ := h.text
    · refine ⟨[], rfl, Or.inl ⟨rfl, a, ha, ?_, ?_⟩⟩
      · rw [hconsumed, hhead, append_nil, append_nil]
      · show c.cc.completeTail.completed.getLast? = _
        rw [ConnectionContext.completeTail_concat hlist, getLast?_concat, htokens]
        simp
    · exact absurd hpos (lt_irrefl 0)
  | succ missing ih =>
    rw [readBulks]
    rcases readBulkLen_spec c with ⟨status, hread, hstop⟩ | ⟨buf, n, hread, -⟩
    · rw [hread]
      exact (h.atArray (Nat.succ_pos _)).stops h.state hstop
    · -- the header of the argument may have been read before
      obtain ⟨taken, hbuf, hin⟩ : ∃ taken, c.ioBuf = taken ++ buf ∧
          InArray (consumed ++ taken) (missing + 1) { c with ioBuf := buf, bulkLen := some n } := by
        obtain ⟨a, head, ready, tail, ha, hlist, htokens, hconsumed,
            ⟨hnone, hhead⟩ | ⟨-, len, m, -, -, -, hsome⟩⟩ := h.text
        · obtain ⟨len, rest, hnum, hline, hsplit, heq⟩ := readBulkLen_text hnone hread
          cases heq
          refine ⟨36 :: len ++ crlf, hsplit, h.state, h.count, a, 36 :: len ++ crlf, ready, tail, ha,
            hlist, htokens, ?_,
            Or.inr ⟨Nat.succ_pos _, len, n, rfl, hnum, hline, rfl⟩⟩
          rw [hconsumed, hhead, append_nil]
        · have hsame : c.readBulkLen = .ok (c, m) := by rw [readBulkLen, hsome]
          obtain ⟨heq, rfl⟩ := Prod.mk.inj (Except.ok.inj (hsame.symm.trans hread))
          exact ⟨[], congrArg ioBuf heq, by rwa [append_nil, ← heq]⟩
      rw [hread]
      apply Consumes.after { c with ioBuf := buf, bulkLen := some n } hbuf
      dsimp only
      split_ifs with hshort
      · exact (hin.atArray (Nat.succ_pos _)).stops hin.state (Or.inl rfl)
      · exact (ih (hin.token rfl (by dsimp only; omega))).after _ (take_append_drop _ _).symm

lemma parseMultiBulk_text (hstate : c.state = .multibulk) (hwf : c.WellFormed) (h : AtArray consumed c) :
    Consumes consumed c c.parseMultiBulk := by
  have hat := h
  unfold parseMultiBulk
  rcases h with ⟨rfl, hzero, hstar⟩ | ⟨hpos, hin⟩
  · rw [if_pos hzero]
    rcases readMultibulkLen_spec c with ⟨status, hread, hstop⟩ | ⟨buf, n, hpos, hread, -⟩
    · rw [hread]
      exact hat.stops hstate hstop
    · obtain ⟨count, lf, n', rest, hnum, -, hline, hsplit, heq⟩ := readMultibulkLen_text hstar hread
      cases heq
      rw [hread]
      apply Consumes.after { c with
        ioBuf := buf, multibulkLen := n, cc := c.cc.addParsedCommand (replicate n none) false } hsplit
      apply readBulks_text
      refine ⟨hstate, rfl, ⟨count, lf, []⟩, [], _, _, ⟨?_, hline, by simp⟩, rfl, rfl, ?_, Or.inl ⟨hwf.bulk hzero, rfl⟩⟩
      · rw [hnum]
        simp
      · simp [ArrayText.bytes]
  · rw [if_neg (Nat.ne_of_gt hpos)]
    exact readBulks_text hin

lemma parseInline_state (c : Connection) : c.parseInline.1.state = c.state := by
  unfold parseInline
  split
  · split_ifs <;> rfl
  · dsimp only
    split <;> rfl

end Connection

/-! ## Runs -/

namespace Traced

variable {t : Traced}

structure Accepts (t : Traced) : Prop where
  wellFormed : t.conn.WellFormed
  arrays : ∀ p ∈ t.arrays, ∃ a : ArrayText, a.Read 0 ∧ p = (a.bytes, a.args)
  init : t.conn.state = .init → t.consumed = []
  reading : t.conn.state = .multibulk → AtArray t.consumed t.conn

lemma accepts_init : Accepts {} where
  wellFormed := wellFormed_init
  arrays := by simp
  init := fun _ => rfl
  reading := by rintro ⟨⟩

lemma Accepts.array (h : t.Accepts) (hnil : t.conn.ioBuf ≠ []) (hstate : t.conn.classify.state = .multibulk) :
    t.turn.Accepts := by
  obtain ⟨hwf, hbuf, -, -, -⟩ := classify_spec h.wellFormed
  have hat : AtArray t.consumed t.conn.classify := by
    by_cases hinit : t.conn.state = .init
    · rw [classify_of_init hinit] at hstate ⊢
      split_ifs at hstate with hstar
      exact Or.inl ⟨h.init hinit, h.wellFormed.idle (by rw [hinit]; decide), hstar⟩
    · rw [classify_of_ne hinit] at hstate ⊢
      exact h.reading hstate
  obtain ⟨c, status, hrun, -, hwf', hend⟩ := parseMultiBulk_spec hwf hstate
  obtain ⟨taken, htaken, hconsumes⟩ := parseMultiBulk_text hstate hwf hat
  rw [hbuf] at htaken
  rw [hrun] at htaken hconsumes
  have htake : t.conn.ioBuf.take (t.conn.ioBuf.length - c.ioBuf.length) = taken := by
    rw [htaken]
    exact take_left' (by simp)
  have hturn : t.conn.parseTurn = if status = .ok then ({ c with state := .init }, .ok) else (c, status) := by
    unfold parseTurn
    rw [if_neg (by rw [hstate]; decide), hrun]
    rcases hend with (rfl | rfl) | ⟨rfl, hz, -⟩
    · rfl
    · rfl
    · dsimp only
      rw [if_pos ⟨hz, hwf'.bulk hz⟩, if_pos rfl]
  unfold turn
  rw [if_neg hnil, hturn]
  rcases hconsumes with ⟨hok, a, ha, hbytes, hargs⟩ | ⟨hstop, hs, hat'⟩
  · subst hok
    rw [if_pos rfl]
    rw [if_neg (by simp), if_neg (by simpa using hstate), htake, hbytes, hargs]
    have hz : c.multibulkLen = 0 := by
      rcases hend with hstop | ⟨-, hz, -⟩
      · rcases hstop with hstop | hstop <;> cases hstop
      · exact hz
    refine ⟨⟨fun _ => hz, hwf'.bulk, hwf'.fresh, hwf'.reading⟩, ?_, fun _ => rfl, by rintro ⟨⟩⟩
    intro p hp
    rcases mem_append.1 hp with hp | hp
    · exact h.arrays p hp
    · exact ⟨a, ha, mem_singleton.1 hp⟩
  · rw [if_neg hstop]
    rw [if_pos hstop, htake]
    exact ⟨hwf', h.arrays, fun hi => absurd (hs.symm.trans hi) (by decide), fun _ => hat'⟩

lemma Accepts.line (h : t.Accepts) (hnil : t.conn.ioBuf ≠ []) (hstate : t.conn.classify.state = .inline) :
    t.turn.Accepts := by
  obtain ⟨c, status, hrun, -, hwf, -⟩ := parseTurn_spec h.wellFormed
  have hnext : c.state = if status = .ok then .init else .inline := by
    have hline := (parseInline_state t.conn.classify).trans hstate
    unfold parseTurn at hrun
    rw [if_pos hstate] at hrun
    generalize t.conn.classify.parseInline = out at hrun hline
    obtain ⟨c', status'⟩ := out
    cases status' with
    | ok =>
      dsimp only at hrun
      split_ifs at hrun
      · cases hrun
        rfl
      · cases hrun
        exact hline
    | _ =>
      cases hrun
      exact hline
  unfold turn
  rw [if_neg hnil, hrun]
  by_cases hok : status = .ok
  · rw [if_pos hok] at hnext
    rw [if_neg (by simpa using hok), if_pos (by rw [hstate]; decide)]
    exact ⟨hwf, h.arrays, fun _ => rfl, fun hm => absurd (hnext.symm.trans hm) (by decide)⟩
  · rw [if_neg hok] at hnext
    rw [if_pos hok]
    exact ⟨hwf, h.arrays, fun hi => absurd (hnext.symm.trans hi) (by decide),
      fun hm => absurd (hnext.symm.trans hm) (by decide)⟩

/-- **What has been consumed for an array is the text of one**, with any bytes in the places that are not checked. -/
theorem step_accepts (h : t.Accepts) (e : ParseEvent) : (t.step e).Accepts := by
  cases e with
  | arrive chunk =>
    refine ⟨⟨h.wellFormed.idle, h.wellFormed.bulk, h.wellFormed.fresh, h.wellFormed.reading⟩, h.arrays, h.init, ?_⟩
    intro hs
    rcases h.reading hs with ⟨hc, hz, hstar⟩ | ⟨hpos, hin⟩
    · refine Or.inl ⟨hc, hz, ?_⟩
      show (t.conn.ioBuf ++ chunk)[0]? = some 42
      rw [getElem?_append_left (List.getElem?_eq_some_iff.1 hstar).1, hstar]
    · exact Or.inr ⟨hpos, hin.state, hin.count, hin.text⟩
  | turn =>
    show t.turn.Accepts
    by_cases hnil : t.conn.ioBuf = []
    · unfold turn
      rwa [if_pos hnil]
    · cases hs : t.conn.classify.state with
      | multibulk => exact h.array hnil hs
      | inline => exact h.line hnil hs
      | init => exact absurd hs (classify_spec h.wellFormed).2.2.2.1

lemma run_accepts (h : t.Accepts) (es : List ParseEvent) : (t.run es).Accepts := by
  induction es generalizing t with
  | nil => exact h
  | cons e _ ih => exact ih (step_accepts h e)

end Traced

/-! ## Arrays of the protocol -/

def IsDecimal (s : Str) (n : ℕ) : Prop := s ≠ [] ∧ (∀ c ∈ s, isDigit c) ∧ digitsValue s = n

def IsArray (bytes : Str) (args : List (Option Str)) : Prop :=
  ∃ (count : Str) (bulks : List (Str × Str)), args = bulks.map (fun b => some b.2) ∧ IsDecimal count bulks.length ∧
    (∀ b ∈ bulks, IsDecimal b.1 b.2.length) ∧
    bytes = 42 :: count ++ crlf ++ bulks.flatMap (fun b => 36 :: b.1 ++ crlf ++ b.2 ++ crlf)

/-- the texts of `n` arguments: a length of plain digits, and CRLF behind that many bytes -/
def plainBulks : ℕ → Str → Bool
  | 0, _ => true
  | n + 1, rest =>
    let len := (rest.drop 1).takeWhile (· ≠ 13)
    let behind := rest.drop (len.length + 3 + digitsValue len)
    len.all isDigit && behind.take 2 == crlf && plainBulks n (behind.drop 2)

def plain (bytes : Str) : Bool :=
  let count := (bytes.drop 1).takeWhile (· ≠ 13)
  let behind := bytes.drop (count.length + 1)
  count.all isDigit && behind.take 2 == crlf && plainBulks (digitsValue count) (behind.drop 2)

lemma takeWhile_line {line : Str} (h : 13 ∉ line) (rest : Str) : (line ++ 13 :: rest).takeWhile (· ≠ 13) = line := by
  rw [takeWhile_append_of_pos]
  · simp
  · intro c hc
    have hne : c ≠ 13 := fun heq => h (heq ▸ hc)
    simpa using hne

lemma plainBulks_bytes {bulks : List BulkText}
    (h : ∀ b ∈ bulks, 13 ∉ b.len ∧ b.close.length = 2 ∧ (b.len.all isDigit → digitsValue b.len = b.arg.length)) :
    plainBulks bulks.length (bulks.flatMap BulkText.bytes) =
      bulks.all (fun b => b.len.all isDigit && b.close == crlf) := by
  induction bulks with
  | nil => rfl
  | cons b bulks ih =>
    obtain ⟨hline, hclose, hnumber⟩ := h b mem_cons_self
    have hbytes : (b :: bulks).flatMap BulkText.bytes =
        36 :: (b.len ++ 13 :: 10 :: (b.arg ++ (b.close ++ bulks.flatMap BulkText.bytes))) := by
      simp [BulkText.bytes, crlf]
    have hlen : ((36 :: (b.len ++ 13 :: 10 :: (b.arg ++ (b.close ++ bulks.flatMap BulkText.bytes)))).drop 1).takeWhile
        (· ≠ 13) = b.len := takeWhile_line hline _
    have hdrop : (36 :: (b.len ++ 13 :: 10 :: (b.arg ++ (b.close ++ bulks.flatMap BulkText.bytes)))).drop
        (b.len.length + 3 + b.arg.length) = b.close ++ bulks.flatMap BulkText.bytes := by
      rw [show (36 :: (b.len ++ 13 :: 10 :: (b.arg ++ (b.close ++ bulks.flatMap BulkText.bytes)))) =
        (36 :: (b.len ++ 13 :: 10 :: b.arg)) ++ (b.close ++ bulks.flatMap BulkText.bytes) by simp]
      exact drop_left' (by simp; omega)
    rw [length_cons, plainBulks, hbytes, hlen, all_cons]
    cases hdigit : b.len.all isDigit with
    | false => rfl
    | true =>
      rw [hnumber hdigit, hdrop, take_left' hclose, drop_left' hclose, ih (fun x hx => h x (mem_cons_of_mem b hx))]

lemma plain_bytes {a : ArrayText} (hline : 13 ∉ a.count)
    (hnumber : a.count.all isDigit → digitsValue a.count = a.bulks.length)
    (h : ∀ b ∈ a.bulks, 13 ∉ b.len ∧ b.close.length = 2 ∧ (b.len.all isDigit → digitsValue b.len = b.arg.length)) :
    plain a.bytes =
      (a.count.all isDigit && a.lf == 10 && a.bulks.all (fun b => b.len.all isDigit && b.close == crlf)) := by
  have hbytes : a.bytes = 42 :: (a.count ++ 13 :: a.lf :: a.bulks.flatMap BulkText.bytes) := by simp [ArrayText.bytes]
  have hcount : ((42 :: (a.count ++ 13 :: a.lf :: a.bulks.flatMap BulkText.bytes)).drop 1).takeWhile
      (· ≠ 13) = a.count :=
    takeWhile_line hline _
  have hdrop : (42 :: (a.count ++ 13 :: a.lf :: a.bulks.flatMap BulkText.bytes)).drop (a.count.length + 1) =
      13 :: a.lf :: a.bulks.flatMap BulkText.bytes := drop_left' rfl
  unfold plain
  rw [hbytes, hcount]
  dsimp only
  rw [hdrop]
  cases hdigit : a.count.all isDigit with
  | false => rfl
  | true =>
    show ((_ && ([13, a.lf] == crlf)) && plainBulks (digitsValue a.count) (a.bulks.flatMap BulkText.bytes)) = _
    rw [hnumber hdigit, plainBulks_bytes h]
    simp [crlf]

lemma isDecimal_of_simpleAtoi {s : Str} {n : ℕ} (hdigit : ∀ c ∈ s, isDigit c) (h : simpleAtoi s = some (n : ℤ)) :
    IsDecimal s n := by
  have hne : s ≠ [] := by
    rintro rfl
    cases h
  rw [simpleAtoi_digits hdigit hne] at h
  split_ifs at h
  exact ⟨hne, hdigit, by exact_mod_cast Option.some.inj h⟩

/-- **Only arrays become commands.** -/
theorem only_arrays (es : List ParseEvent) (bytes : Str) (args : List (Option Str))
    (hmem : (bytes, args) ∈ (Traced.run {} es).arrays) (hplain : plain bytes) : IsArray bytes args := by
  have hrun : (Traced.run {} es).Accepts := Traced.run_accepts Traced.accepts_init es
  obtain ⟨a, ha, heq⟩ := hrun.arrays _ hmem
  cases heq
  have hnumber : ∀ {s : Str} {n : ℕ}, simpleAtoi s = some (n : ℤ) → s.all isDigit → digitsValue s = n :=
    fun h hdigit => (isDecimal_of_simpleAtoi (all_eq_true.1 hdigit) h).2.2
  rw [plain_bytes ha.line (hnumber ha.number)
    (fun b hb => ⟨(ha.bulks b hb).line, (ha.bulks b hb).close, hnumber (ha.bulks b hb).number⟩)] at hplain
  simp only [Bool.and_eq_true, all_eq_true, beq_iff_eq] at hplain
  obtain ⟨⟨hcount, hlf⟩, hbulks⟩ := hplain
  refine ⟨a.count, a.bulks.map (fun b => (b.len, b.arg)), ?_, ?_, ?_, ?_⟩
  · simp [ArrayText.args]
  · rw [length_map]
    exact isDecimal_of_simpleAtoi hcount ha.number
  · intro p hp
    obtain ⟨b, hb, rfl⟩ := mem_map.1 hp
    exact isDecimal_of_simpleAtoi (hbulks b hb).1 (ha.bulks b hb).number
  · have hclose : a.bulks.flatMap BulkText.bytes =
        (a.bulks.map (fun b => (b.len, b.arg))).flatMap (fun b => 36 :: b.1 ++ crlf ++ b.2 ++ crlf) := by
      rw [flatMap_map]
      apply flatMap_congr
      intro b hb
      rw [BulkText.bytes, (hbulks b hb).2]
    rw [ArrayText.bytes, hclose, hlf]
    rfl

theorem only_arrays_cut : IsArray (text "*1\r\n$4\r\nPING\r\n") [some (text "PING")] :=
  only_arrays [.arrive (text "*1\r\n$4\r\nPI"), .turn, .arrive (text "NG\r\n"), .turn] _ _ (by decide +kernel)
    (by decide +kernel)

lemma IsArray.plain {bytes : Str} {args : List (Option Str)} (h : IsArray bytes args) : plain bytes := by
  obtain ⟨count, bulks, rfl, hcount, hbulks, rfl⟩ := h
  have hcr : ∀ {s : Str} {n : ℕ}, IsDecimal s n → 13 ∉ s := fun h hmem => absurd (h.2.1 13 hmem) (by decide)
  set a : ArrayText := ⟨count, 10, bulks.map (fun b => ⟨b.1, b.2, crlf⟩)⟩ with ha
  have hplain := plain_bytes (a := a) (hcr hcount) (fun _ => by rw [ha, length_map]; exact hcount.2.2) (by
    intro b hb
    obtain ⟨p, hp, rfl⟩ := mem_map.1 hb
    exact ⟨hcr (hbulks p hp), rfl, fun _ => (hbulks p hp).2.2⟩)
  have hbytes : a.bytes = 42 :: count ++ crlf ++ bulks.flatMap (fun b => 36 :: b.1 ++ crlf ++ b.2 ++ crlf) := by
    rw [ha, ArrayText.bytes, flatMap_map]
    rfl
  rw [hbytes] at hplain
  rw [hplain]
  simp only [ha, Bool.and_eq_true, all_eq_true, beq_iff_eq, mem_map, forall_exists_index, and_imp]
  refine ⟨⟨hcount.2.1, trivial⟩, ?_⟩
  rintro _ p hp rfl
  exact ⟨(hbulks p hp).2.1, rfl⟩

/-- A count without its line feed, a length with blanks and a sign, and an argument with other bytes behind it. -/
theorem loose_array :
    let bytes := text "*1\rX$ +4\r\nPINGYZ"
    (Traced.run {} [.arrive bytes, .turn]).arrays = [(bytes, [some (text "PING")])] ∧
      ¬ IsArray bytes [some (text "PING")] := by
  intro bytes
  have hloose : plain bytes = false := by decide +kernel
  refine ⟨by decide +kernel, fun h => ?_⟩
  cases h.plain.symm.trans hloose

end MaxRedis.Service

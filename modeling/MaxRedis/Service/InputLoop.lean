/-
The loop that serves a client connection (`Connection::InputLoop`) and the dispatch of its commands
(`Service::DispatchCommand`).
-/
import MaxRedis.Core.Run
import MaxRedis.Service.Parser

namespace MaxRedis.Service

open Kv Raft List

/-! ## Dispatch -/

inductive Handler where
  | ping
  | set
  | get
  | del
  | expire
  | save
  | debug
  | info
  | command
  deriving DecidableEq

def registry : List (Str × Handler × ℤ) :=
  [(text "PING", .ping, -1), (text "SET", .set, -3), (text "GET", .get, 2), (text "DEL", .del, -2),
    (text "EXPIRE", .expire, 3), (text "SAVE", .save, 1), (text "DEBUG", .debug, -2), (text "INFO", .info, -1),
    (text "COMMAND", .command, 0)]

/-- What the engine answers while a command is dispatched: the result of `SubmitCommand`, whether `ReadIndex` lets a GET
through (it does if linearizable reads are off), whether `CreateSnapshot` succeeds, and the text that INFO, DEBUG and
COMMAND reply with. -/
structure Engine where
  result : ApplyResult := ⟨.ok, 0⟩
  mayRead : Bool := true
  saved : Bool := true
  blob : Str := []
  deriving DecidableEq

def writeReply (e : Engine) (reply : Str) : Str :=
  if e.result.op = .error then errorReply (text "READONLY You can't write against a non-leader") else reply

/-- the handlers: the reply that is written at once, or `none` for a GET that a shard will answer. The text of DEBUG is
that for a caller that passes the arguments; the loop of a connection does not (`runsDebug`). -/
def handle (e : Engine) (args : List Str) : Handler → Option Str
  | .ping =>
    if args.length > 2 then some (errorReply (text "wrong number of arguments for 'ping' command"))
    else some (simpleReply ((args[1]?).getD (text "PONG")))
  | .set => some (writeReply e (simpleReply (text "OK")))
  | .get => if e.mayRead then none else some (errorReply (text "READONLY Cannot serve linearizable read: not leader"))
  | .del => some (writeReply e (longReply e.result.affectedRows))
  | .expire =>
    if (simpleAtoi ((args[2]?).getD [])).all (· < 0) then
      some (errorReply (text "value is not an integer or out of range"))
    else some (writeReply e (longReply e.result.affectedRows))
  | .save => some (if e.saved then simpleReply (text "OK") else errorReply (text "ERR Failed to create snapshot"))
  | .debug => some e.blob
  | .info => some e.blob
  | .command => some e.blob

def upper (c : UInt8) : UInt8 := if 97 ≤ c ∧ c ≤ 122 then c - 32 else c

def ParsedCommand.argv (cmd : ParsedCommand) : List Str :=
  match cmd.tokens.map (fun token => token.getD []) with
  | [] => []
  | name :: args => name.map upper :: args

def ParsedCommand.lookup (cmd : ParsedCommand) : Except Str Handler :=
  let name := (cmd.argv.head?).getD []
  match registry.lookup name with
  | none => .error (text "unknown command `" ++ name ++ text "`")
  | some (handler, arity) =>
    if 0 < arity ∧ (cmd.argv.length : ℤ) ≠ arity ∨ arity < 0 ∧ (cmd.argv.length : ℤ) < -arity then
      .error (text "wrong number of arguments for '" ++ name ++ text "' command")
    else .ok handler

/-- `DispatchCommand`: the command after it, and the reply that is written at once -/
def ParsedCommand.dispatchCommand (cmd : ParsedCommand) (e : Engine) : ParsedCommand × Option Str :=
  match cmd.lookup with
  | .error msg => ({ cmd with tokens := cmd.argv.map some }, some (errorReply msg))
  | .ok handler =>
    match handle e cmd.argv handler with
    | some reply => ({ cmd with tokens := cmd.argv.map some, dispatched := true }, some reply)
    | none => ({ cmd with tokens := cmd.argv.map some, dispatched := true, executeAsync := true }, none)

/-- `Service::Debug` reads the second of the arguments it is passed, and `InputLoop` passes the empty list. -/
def ParsedCommand.runsDebug (cmd : ParsedCommand) : Bool := cmd.lookup.toOption = some .debug

/-! ## The loop -/

inductive Phase where
  | await
  | dispatch
  | reply
  | closed
  | aborted
  deriving DecidableEq

structure InputLoop where
  conn : Connection := {}
  phase : Phase := .await
  deriving DecidableEq

/-- `complete i value`: the shard has looked up the key of the GET at position `i` -/
inductive LoopEvent where
  | read (chunk : Str)
  | dispatch (e : Engine)
  | reply
  | complete (i : ℕ) (value : Option Str)

namespace InputLoop

def read (s : InputLoop) (chunk : Str) : InputLoop :=
  match s.conn.feed chunk with
  | (c, .error) => ⟨c, .closed⟩
  | (c, .checkFailed) => ⟨c, .aborted⟩
  | (c, _) => ⟨c, .dispatch⟩

def dispatch (s : InputLoop) (e : Engine) : InputLoop :=
  match s.conn.cc.toExecute with
  | [] => { s with phase := .reply }
  | cmd :: rest =>
    if !cmd.parseComplete then { s with phase := .reply }
    else if cmd.tokens.length = 0 ∨ cmd.runsDebug then { s with phase := .aborted }
    else
      let batchMode := nextCanReply ParsedCommand.parseComplete rest
      let (cmd, reply) := cmd.dispatchCommand e
      let cc := { s.conn.cc with
        replying := s.conn.cc.replying ++ [cmd]
        toExecute := rest
        serializer := s.conn.cc.serializer.sendReply batchMode reply }
      { s with conn := { s.conn with cc := cc } }

def reply (s : InputLoop) : InputLoop :=
  let (cc, more) := s.conn.cc.replyReadyCommand
  { conn := { s.conn with cc := cc }, phase := if more then .reply else .await }

def complete (s : InputLoop) (i : ℕ) (value : Option Str) : InputLoop :=
  match s.conn.cc.replying[i]? with
  | none => s
  | some cmd =>
    if cmd.executeAsync ∧ ¬ cmd.executeDone then
      let cmd := { cmd with resp := (value.map Response.bulk).getD .null, executeDone := true }
      { s with conn := { s.conn with cc := { s.conn.cc with replying := s.conn.cc.replying.set i cmd } } }
    else s

def step (s : InputLoop) : LoopEvent → InputLoop
  | .read chunk => if s.phase = .await then s.read chunk else s
  | .dispatch e => if s.phase = .dispatch then s.dispatch e else s
  | .reply => if s.phase = .reply then s.reply else s
  | .complete i value => s.complete i value

abbrev run (s : InputLoop) (es : List LoopEvent) : InputLoop := Run.run step s es

end InputLoop

/-! ## What is answered later -/

def ParsedCommand.deferred (cmd : ParsedCommand) (e : Engine) : Bool :=
  cmd.argv.head? = some (text "GET") ∧ cmd.argv.length = 2 ∧ e.mayRead

lemma handle_eq_none {e : Engine} {args : List Str} {handler : Handler} :
    handle e args handler = none ↔ handler = .get ∧ e.mayRead := by
  cases handler with
  | get =>
    rw [handle]
    split_ifs with h <;> simp [h]
  | ping | expire =>
    rw [handle]
    split_ifs <;> simp
  | _ => simp [handle]

lemma registry_lookup : ∀ p ∈ registry, p.1.map upper = p.1 ∧ registry.lookup p.1 = some p.2 := by decide

lemma mem_registry_get : ∀ p ∈ registry, p.2.1 = .get → p = (text "GET", .get, 2) := by decide

section Lookup
variable {cmd : ParsedCommand} {handler : Handler}

def wrongArity (arity : ℤ) (argc : ℕ) : Prop := 0 < arity ∧ (argc : ℤ) ≠ arity ∨ arity < 0 ∧ (argc : ℤ) < -arity

lemma mem_registry_of_lookup (h : cmd.lookup = .ok handler) :
    ∃ name args arity, cmd.argv = name :: args ∧ (name, handler, arity) ∈ registry ∧
    ¬ wrongArity arity cmd.argv.length := by
  unfold ParsedCommand.lookup at h
  dsimp only at h
  split at h
  · cases h
  · rename_i found arity hfind
    split_ifs at h with hargs
    cases h
    obtain ⟨l1, l2, hreg, -⟩ := lookup_eq_some_iff.1 hfind
    have hmem := hreg ▸ mem_append_right l1 (mem_cons_self (l := l2))
    cases hargv : cmd.argv with
    | nil =>
      rw [hargv] at hfind
      exact absurd hfind (by rw [show registry.lookup (([] : List Str).head?.getD []) = none from by decide]; simp)
    | cons name args =>
      rw [hargv] at hmem hargs
      exact ⟨name, args, arity, rfl, hmem, hargs⟩

lemma lookup_of_mem_registry {name : Str} {args : List Str} {arity : ℤ} (hargv : cmd.argv = name :: args)
    (hmem : (name, handler, arity) ∈ registry) (harity : ¬ wrongArity arity cmd.argv.length) :
    cmd.lookup = .ok handler := by
  unfold ParsedCommand.lookup
  rw [hargv] at harity ⊢
  rw [head?_cons, Option.getD_some]
  dsimp only
  rw [(registry_lookup _ hmem).2]
  exact if_neg harity

lemma lookup_eq_get : cmd.lookup = .ok .get ↔ cmd.argv.head? = some (text "GET") ∧ cmd.argv.length = 2 := by
  constructor
  · intro h
    obtain ⟨name, args, arity, hargv, hmem, harity⟩ := mem_registry_of_lookup h
    cases mem_registry_get _ hmem rfl
    unfold wrongArity at harity
    exact ⟨by rw [hargv]; rfl, by omega⟩
  · rintro ⟨hname, hargs⟩
    obtain ⟨name, args, hargv⟩ := exists_cons_of_length_pos (by omega : 0 < cmd.argv.length)
    rw [hargv] at hname
    cases hname
    have hmem : (text "GET", Handler.get, (2 : ℤ)) ∈ registry := by decide
    apply lookup_of_mem_registry hargv hmem
    unfold wrongArity
    omega

end Lookup

lemma dispatchCommand_deferred (cmd : ParsedCommand) (e : Engine) :
    (cmd.dispatchCommand e).2 = none ↔ cmd.deferred e := by
  have hdef : cmd.deferred e ↔ cmd.lookup = .ok .get ∧ e.mayRead := by
    rw [lookup_eq_get]
    simp [ParsedCommand.deferred, and_assoc]
  rw [hdef]
  unfold ParsedCommand.dispatchCommand
  split
  · rename_i msg hlookup
    rw [hlookup]
    simp
  · rename_i handler hlookup
    rw [hlookup]
    split
    · rename_i reply hreply
      constructor
      · intro h
        cases h
      · rintro ⟨heq, hread⟩
        cases heq
        rw [handle_eq_none.2 ⟨rfl, hread⟩] at hreply
        cases hreply
    · rename_i hnone
      obtain ⟨rfl, hread⟩ := handle_eq_none.1 hnone
      exact ⟨fun _ => ⟨rfl, hread⟩, fun _ => rfl⟩

/-! ## Steps -/

namespace InputLoop

open Connection

variable {s : InputLoop}

def readsBlank (s : InputLoop) : LoopEvent → Bool
  | .read chunk =>
    s.phase = .await ∧
      (turns (s.conn.ioBuf ++ chunk).length { s.conn with ioBuf := s.conn.ioBuf ++ chunk }).any
        (fun c => c.inlineLine.any blankLine)
  | _ => false

def Skips (s : InputLoop) : LoopEvent → Prop
  | .read _ => s.phase ≠ .await
  | .dispatch _ => s.phase ≠ .dispatch
  | .reply => s.phase ≠ .reply
  | .complete i _ => ∀ cmd, s.conn.cc.replying[i]? = some cmd → ¬ (cmd.executeAsync ∧ ¬ cmd.executeDone)

/-- **What a step does** to the commands and the replies. -/
inductive LoopStep (s t : InputLoop) : LoopEvent → Prop where
  | idle (e : LoopEvent) (h : t = s) (hskip : s.Skips e) : LoopStep s t e
  | read (chunk : Str) (hs : s.phase = .await) (hframe : Frame s.conn t.conn) (ht : t.phase ≠ .await ∧ t.phase ≠ .reply)
      (hblank : t.phase = .aborted → s.readsBlank (.read chunk)) : LoopStep s t (.read chunk)
  | dispatchEnd (e : Engine) (hs : s.phase = .dispatch) (ht : t = { s with phase := .reply })
      (hend : ∀ cmd rest, s.conn.cc.toExecute = cmd :: rest → cmd.parseComplete = false) : LoopStep s t (.dispatch e)
  | dispatchOne (e : Engine) (cmd : ParsedCommand) (rest : List ParsedCommand) (hs : s.phase = .dispatch)
      (hlist : s.conn.cc.toExecute = cmd :: rest) (hcomplete : cmd.parseComplete) (hserved : cmd.runsDebug = false)
      (ht : t = { s with conn := { s.conn with cc := { s.conn.cc with
        replying := s.conn.cc.replying ++ [(cmd.dispatchCommand e).1]
        toExecute := rest
        serializer := s.conn.cc.serializer.sendReply (nextCanReply ParsedCommand.parseComplete rest)
          (cmd.dispatchCommand e).2 } } }) : LoopStep s t (.dispatch e)
  | crash (e : Engine) (cmd : ParsedCommand) (rest : List ParsedCommand) (hs : s.phase = .dispatch)
      (hlist : s.conn.cc.toExecute = cmd :: rest) (hcomplete : cmd.parseComplete) (hdebug : cmd.runsDebug)
      (ht : t = { s with phase := .aborted }) : LoopStep s t (.dispatch e)
  | replyOne (cmd : ParsedCommand) (rest : List ParsedCommand) (hs : s.phase = .reply)
      (hlist : s.conn.cc.replying = cmd :: rest) (hcan : (cmd.checkIfCanReply false).1)
      (ht : t = { s with conn := { s.conn with cc := { s.conn.cc with
        replying := rest
        serializer := s.conn.cc.serializer.sendReply
          (nextCanReply ParsedCommand.dispatched (rest ++ s.conn.cc.toExecute))
          cmd.resp.reply } } }) : LoopStep s t .reply
  | replyEnd (replying : List ParsedCommand) (hs : s.phase = .reply)
      (hlist : replying = s.conn.cc.replying ∨ ∃ cmd rest, s.conn.cc.replying = cmd :: rest ∧
        replying = { cmd with headReply := true } :: rest)
      (ht : t = ⟨{ s.conn with cc := { s.conn.cc with replying := replying } }, .await⟩) : LoopStep s t .reply
  | complete (i : ℕ) (value : Option Str) (cmd : ParsedCommand) (hcmd : s.conn.cc.replying[i]? = some cmd)
      (hasync : cmd.executeAsync) (hdone : cmd.executeDone = false)
      (ht : t = { s with conn := { s.conn with cc := { s.conn.cc with
        replying := s.conn.cc.replying.set i
          { cmd with resp := (value.map Response.bulk).getD .null, executeDone := true } } } }) :
      LoopStep s t (.complete i value)

lemma wellFormed_cc {c : Connection} {cc : ConnectionContext} (h : c.WellFormed)
    (hcc : cc.toExecute = c.cc.toExecute) : Connection.WellFormed { c with cc := cc } where
  idle := h.idle
  bulk := h.bulk
  fresh := by rw [hcc]; exact h.fresh
  reading := by rw [hcc]; exact h.reading

section
variable (h : s.conn.WellFormed)
include h

lemma read_spec (hs : s.phase = .await) (chunk : Str) :
    ∃ c status, s.conn.feed chunk = (c, status) ∧ Frame s.conn c ∧ c.WellFormed ∧
      (status = .ok ∧ c.ioBuf = [] ∨ status = .needMore ∨ status = .error ∨
        status = .checkFailed ∧ s.readsBlank (.read chunk)) := by
  have hwf : Connection.WellFormed { s.conn with ioBuf := s.conn.ioBuf ++ chunk } :=
    ⟨h.idle, h.bulk, h.fresh, h.reading⟩
  have happend : Frame s.conn { s.conn with ioBuf := s.conn.ioBuf ++ chunk } := .of_cc rfl
  obtain ⟨c, status, hrun, hframe, hc, hend⟩ := parseLoop_spec hwf le_rfl
  refine ⟨c, status, hrun, happend.trans hframe, hc, ?_⟩
  rcases hend with (hmore | herr) | ⟨hcheck, c', hc', line, hline, hl⟩ | hok
  · exact Or.inr (Or.inl hmore)
  · exact Or.inr (Or.inr (Or.inl herr))
  · refine Or.inr (Or.inr (Or.inr ⟨hcheck, ?_⟩))
    have hany : (turns (s.conn.ioBuf ++ chunk).length { s.conn with ioBuf := s.conn.ioBuf ++ chunk }).any
        (fun c => c.inlineLine.any blankLine) = true :=
      any_eq_true.2 ⟨c', hc', by rw [hline]; exact hl⟩
    simp only [readsBlank, hs, hany, true_and, decide_true]
  · exact Or.inl hok

lemma read_step (hs : s.phase = .await) (chunk : Str) :
    LoopStep s (s.read chunk) (.read chunk) ∧ (s.read chunk).conn.WellFormed := by
  obtain ⟨c, status, hfeed, hframe, hwf, hend⟩ := read_spec h hs chunk
  unfold read
  rw [hfeed]
  rcases hend with ⟨rfl, -⟩ | rfl | rfl | ⟨rfl, hblank⟩
  · exact ⟨.read chunk hs hframe (by simp) (by simp), hwf⟩
  · exact ⟨.read chunk hs hframe (by simp) (by simp), hwf⟩
  · exact ⟨.read chunk hs hframe (by simp) (by simp), hwf⟩
  · exact ⟨.read chunk hs hframe (by simp) (fun _ => hblank), hwf⟩

lemma dispatch_step (hs : s.phase = .dispatch) (e : Engine) :
    LoopStep s (s.dispatch e) (.dispatch e) ∧ (s.dispatch e).conn.WellFormed := by
  unfold dispatch
  cases hlist : s.conn.cc.toExecute with
  | nil =>
    refine ⟨.dispatchEnd e hs rfl ?_, h⟩
    intro cmd rest heq
    cases hlist.symm.trans heq
  | cons cmd rest =>
    dsimp only
    have hcmd : Fresh cmd := h.fresh cmd (by rw [hlist]; exact mem_cons_self ..)
    by_cases hcomplete : cmd.parseComplete
    · rw [if_neg (by simp [hcomplete])]
      by_cases hdebug : cmd.runsDebug
      · rw [if_pos (Or.inr hdebug)]
        exact ⟨.crash e cmd rest hs hlist hcomplete hdebug rfl, h⟩
      rw [if_neg (not_or.2 ⟨by simpa using hcmd.args, hdebug⟩)]
      refine ⟨.dispatchOne e cmd rest hs hlist hcomplete (by simpa using hdebug) rfl, ⟨h.idle, h.bulk, ?_, ?_⟩⟩
      · intro cmd' hmem
        exact h.fresh cmd' (by rw [hlist]; exact mem_cons_of_mem _ hmem)
      · intro hpos
        obtain ⟨ready, tail, heq, htail⟩ := h.reading hpos
        rw [hlist] at heq
        cases ready with
        | nil =>
          cases heq
          cases hcomplete.symm.trans htail
        | cons _ ready =>
          cases heq
          exact ⟨ready, tail, rfl, htail⟩
    · rw [if_pos (by simpa using hcomplete)]
      refine ⟨.dispatchEnd e hs rfl ?_, h⟩
      intro cmd' rest' heq
      cases hlist.symm.trans heq
      simpa using hcomplete

lemma reply_step (hs : s.phase = .reply) : LoopStep s s.reply .reply ∧ s.reply.conn.WellFormed := by
  unfold reply ConnectionContext.replyReadyCommand
  cases hlist : s.conn.cc.replying with
  | nil => exact ⟨.replyEnd _ hs (Or.inl rfl) rfl, h⟩
  | cons cmd rest =>
    dsimp only
    rcases cmd.checkIfCanReply_cases false with hcan | hcan | hcan
    · rw [hcan]
      refine ⟨.replyOne cmd rest hs hlist (by rw [hcan]) ?_, wellFormed_cc h rfl⟩
      rw [← hs]
      rfl
    · rw [hcan]
      exact ⟨.replyEnd _ hs (Or.inl hlist.symm) rfl, wellFormed_cc h rfl⟩
    · rw [hcan]
      exact ⟨.replyEnd _ hs (Or.inr ⟨cmd, rest, hlist, rfl⟩) rfl, wellFormed_cc h rfl⟩

lemma complete_step (i : ℕ) (value : Option Str) :
    LoopStep s (s.complete i value) (.complete i value) ∧ (s.complete i value).conn.WellFormed := by
  unfold complete
  cases hcmd : s.conn.cc.replying[i]? with
  | none => exact ⟨.idle _ rfl (fun cmd heq => by rw [hcmd] at heq; cases heq), h⟩
  | some cmd =>
    dsimp only
    by_cases hwait : cmd.executeAsync ∧ ¬ cmd.executeDone
    · rw [if_pos hwait]
      exact ⟨.complete i value cmd hcmd hwait.1 (by simpa using hwait.2) rfl, wellFormed_cc h rfl⟩
    · rw [if_neg hwait]
      refine ⟨.idle _ rfl (fun cmd' heq => ?_), h⟩
      obtain rfl := Option.some.inj (hcmd.symm.trans heq)
      exact hwait

/-- **Every step is one of these, and keeps the connection well formed.** -/
lemma step_spec (e : LoopEvent) : LoopStep s (s.step e) e ∧ (s.step e).conn.WellFormed := by
  cases e with
  | read chunk =>
    rw [step]
    split_ifs with hs
    · exact read_step h hs chunk
    · exact ⟨.idle _ rfl hs, h⟩
  | dispatch e =>
    rw [step]
    split_ifs with hs
    · exact dispatch_step h hs e
    · exact ⟨.idle _ rfl hs, h⟩
  | reply =>
    rw [step]
    split_ifs with hs
    · exact reply_step h hs
    · exact ⟨.idle _ rfl hs, h⟩
  | complete i value => exact complete_step h i value

end

/-! ## No failed check -/

structure Healthy (s : InputLoop) : Prop where
  wellFormed : s.conn.WellFormed
  alive : s.phase ≠ .aborted

lemma healthy_init : Healthy {} := ⟨wellFormed_init, by decide⟩

/-- the event dispatches a complete DEBUG with an argument -/
def callsDebug (s : InputLoop) : LoopEvent → Bool
  | .dispatch _ =>
    s.phase = .dispatch ∧ s.conn.cc.toExecute.head?.any (fun cmd => cmd.parseComplete && cmd.runsDebug)
  | _ => false

/-- **No step fails a `CHECK` or crashes**, unless an inline line of blanks is read or DEBUG is dispatched. -/
theorem step_healthy (h : s.Healthy) {e : LoopEvent} (he : s.readsBlank e = false) (hd : s.callsDebug e = false) :
    (s.step e).Healthy := by
  obtain ⟨hstep, hwf⟩ := step_spec h.wellFormed e
  refine ⟨hwf, ?_⟩
  cases hstep with
  | idle _ ht => rw [ht]; exact h.alive
  | read _ _ _ _ hblank =>
    intro habort
    rw [he] at hblank
    exact absurd (hblank habort) (by decide)
  | dispatchEnd _ _ ht => rw [ht]; simp
  | dispatchOne _ _ _ _ _ _ _ ht | replyOne _ _ _ _ _ ht => rw [ht]; exact h.alive
  | crash _ cmd rest hs hlist hcomplete hdebug =>
    rw [callsDebug, hlist] at hd
    simp [hs, hcomplete, hdebug] at hd
  | replyEnd _ _ _ ht => rw [ht]; simp
  | complete _ _ _ _ _ _ ht => rw [ht]; exact h.alive

/-- **No client input aborts the server**, as long as no inline line of blanks is read and no DEBUG is dispatched:
whatever the bytes and however they are cut, whatever the engine answers and whenever the shards do. -/
theorem never_aborts (es : List LoopEvent)
    (h : Run.along step (fun s e => !s.readsBlank e && !s.callsDebug e) {} es) (chunk : Str)
    (hchunk : (run {} es).readsBlank (.read chunk) = false) : (run {} es).phase ≠ .aborted ∧
    ((run {} es).phase = .await → ∃ c status, (run {} es).conn.feed chunk = (c, status) ∧
      (status = .ok ∧ c.ioBuf = [] ∨ status = .needMore ∨ status = .error)) := by
  have hstep : ∀ (s : InputLoop) (e : LoopEvent), s.Healthy → !s.readsBlank e && !s.callsDebug e →
      (s.step e).Healthy := by
    intro s e hs he
    obtain ⟨hblank, hdebug⟩ := Bool.and_eq_true_iff.1 he
    exact step_healthy hs (by simpa using hblank) (by simpa using hdebug)
  have hinv : (run {} es).Healthy := Run.along_run step hstep healthy_init h
  refine ⟨hinv.alive, fun hawait => ?_⟩
  obtain ⟨c, status, hfeed, -, -, hend⟩ := read_spec hinv.wellFormed hawait chunk
  refine ⟨c, status, hfeed, ?_⟩
  rcases hend with hok | hmore | herr | ⟨-, hblank⟩
  · exact Or.inl hok
  · exact Or.inr (Or.inl hmore)
  · exact Or.inr (Or.inr herr)
  · cases hchunk.symm.trans hblank

def inlineThenArray : List LoopEvent :=
  [.read (text "PI"), .dispatch {}, .reply, .read (text "NG\r\n*2\r\n$3\r\nGET"), .dispatch {}, .dispatch {},
    .reply, .reply]

theorem never_aborts_inlineThenArray :
    (run {} inlineThenArray).conn.cc.serializer.sink = text "+PONG\r\n" ∧
      (run {} inlineThenArray).phase ≠ .aborted := by
  have hend : (run {} inlineThenArray).conn.cc.serializer.sink = text "+PONG\r\n" ∧
      (run {} inlineThenArray).readsBlank (.read (text "\r\n$1\r\nk\r\n")) = false := by decide +kernel
  exact ⟨hend.1, (never_aborts inlineThenArray (by decide +kernel) (text "\r\n$1\r\nk\r\n") hend.2).1⟩

/-- An empty line has no arguments, and `CHECK(argc > 0)` fails; DEBUG reads past its arguments. -/
theorem blank_aborts : (run {} [.read (text "\r\n")]).phase = .aborted ∧
    (run {} [.read (text "DEBUG x\r\n"), .dispatch {}]).phase = .aborted := by decide +kernel

end InputLoop

end MaxRedis.Service

/-
The server in single-node mode without a Raft directory, and its restart.

A SET or DEL is appended to `appendonly.aof`, also one that the state machine has refused; an EXPIRE is not.
-/
import MaxRedis.Kv.Cells
import MaxRedis.Service.Aof
import MaxRedis.Service.InputLoop
import MaxRedis.Service.SnapshotFile

namespace MaxRedis.Service

open Kv Raft Bytes

/-! ## The server -/

structure Disk where
  snapshot : Option Str := none
  aof : Str := []

structure ClassicService [Platform] (n : ℕ) [NeZero n] where
  kv : KvStateMachine n := .empty
  disk : Disk := {}
  replayMode : Bool := false

def ParsedCommand.ofArgs (args : List Str) : ParsedCommand where
  tokens := args.map some
  parseComplete := true

namespace ClassicService

variable [Platform] {n m : ℕ} [NeZero n] [NeZero m]

/-- `SubmitEntry` of the single leader answers for the entry that it has applied, whatever the state machine said. -/
def submitCommand (s : ClassicService n) (now : UInt64) (args : List Str) : ClassicService n × ApplyResult :=
  ({ s with kv := (s.kv.applyLogEntry now (encodeRespArray args)).1 }, ⟨.ok, 1⟩)

def recordCommand (s : ClassicService n) (args : List Str) : ClassicService n :=
  { s with disk := { s.disk with aof := s.disk.aof ++ encodeRespArray args } }

def write (s : ClassicService n) (now : UInt64) (args : List Str) : ClassicService n :=
  let out := s.submitCommand now args
  if out.2.op = .error then out.1
  else if out.1.replayMode then out.1
  else out.1.recordCommand args

def set (s : ClassicService n) (now : UInt64) (args : List Str) : ClassicService n := s.write now args

def del (s : ClassicService n) (now : UInt64) (args : List Str) : ClassicService n := s.write now args

def expire (s : ClassicService n) (now : UInt64) (args : List Str) : ClassicService n :=
  if (simpleAtoi ((args[2]?).getD [])).all (· < 0) then s else (s.submitCommand now args).1

def createSnapshot (s : ClassicService n) : ClassicService n :=
  { s with disk := { s.disk with snapshot := some (encodeSnapshot s.kv.records) } }

def dispatchCommand (s : ClassicService n) (now : UInt64) (args : List Str) : ClassicService n :=
  let cmd := ParsedCommand.ofArgs args
  match cmd.lookup with
  | .ok .set => s.set now cmd.argv
  | .ok .del => s.del now cmd.argv
  | .ok .expire => s.expire now cmd.argv
  | .ok .save => s.createSnapshot
  | _ => s

/-! ## Restart -/

def loadSnapshot (s : ClassicService n) (clock : ℕ → UInt64) : ClassicService n :=
  match s.disk.snapshot.bind decodeSnapshot with
  | none => s
  | some entries => { s with kv := importEntries s.kv clock entries }

def replayCommands (s : ClassicService n) (clock : ℕ → UInt64) : List (List Str) → ClassicService n
  | [] => s
  | args :: commands => replayCommands (s.dispatchCommand (clock 0) args) (fun i => clock (i + 1)) commands

def replayAof (s : ClassicService n) (clock : ℕ → UInt64) : ClassicService n :=
  if s.disk.aof = [] then s
  else
    let result := parseRespCommands s.disk.aof
    if result.error.isSome ∧ result.commands = [] then s
    else { replayCommands { s with replayMode := true } clock result.commands with replayMode := false }

def restart (disk : Disk) (loading replaying : ℕ → UInt64) : ClassicService n :=
  (({ disk := disk } : ClassicService n).loadSnapshot loading).replayAof replaying

end ClassicService

/-! ## What a command does -/

structure Request where
  now : UInt64
  args : List Str

namespace Request

def argv (e : Request) : List Str := (ParsedCommand.ofArgs e.args).argv

def handler (e : Request) : Option Handler := (ParsedCommand.ofArgs e.args).lookup.toOption

def saves (e : Request) : Bool := e.handler = some .save

def inScope (e : Request) : Bool := e.handler.all (· ∈ [Handler.set, .del, .expire, .save])

def command (e : Request) : KvCommand :=
  if e.handler.any (· ∈ [Handler.set, .del, .expire]) then parseArgs e.argv else .malformed

/-- a SET or DEL that is carried out is recorded -/
def records (e : Request) : Bool := e.handler.any (· ∈ [Handler.set, .del])

end Request

lemma parseArgs_del (args : List Str) : (parseArgs (text "DEL" :: args)).recorded := by
  unfold parseArgs
  dsimp only
  rw [if_neg (by decide), if_pos (by decide)]
  split <;> rfl

lemma parseTtl_eq_none {unit : UInt64} {s : Str} : parseTtl unit s = none ↔ (simpleAtoi s).all (· < 0) := by
  unfold parseTtl
  cases simpleAtoi s with
  | none | some => simp

lemma mem_registry_set : ∀ p ∈ registry, p.2.1 = .set → p.1 = text "SET" := by decide

lemma mem_registry_del : ∀ p ∈ registry, p.2.1 = .del → p.1 = text "DEL" := by decide

lemma mem_registry_expire : ∀ p ∈ registry, p.2.1 = .expire → p = (text "EXPIRE", .expire, 3) := by decide

namespace Request

variable {e : Request} {h : Handler}

lemma handler_eq : e.handler = some h ↔ (ParsedCommand.ofArgs e.args).lookup = .ok h := by
  unfold handler
  cases (ParsedCommand.ofArgs e.args).lookup with
  | error | ok => simp [Except.toOption]

lemma command_of_records (h : e.records) :
    (∃ h ∈ [Handler.set, .del], e.handler = some h) ∧ e.command = parseArgs e.argv ∧ e.command.recorded := by
  obtain ⟨x, hx, hmem⟩ := (Option.any_eq_true _ _).1 h
  have hin : x ∈ [Handler.set, .del] := of_decide_eq_true hmem
  have hcommand : e.command = parseArgs e.argv := by
    rw [command, hx, if_pos]
    rw [Option.any_some, decide_eq_true_eq]
    exact List.mem_append_left [.expire] hin
  refine ⟨⟨x, hin, hx⟩, hcommand, ?_⟩
  obtain ⟨name, args, arity, hargv, hmem, -⟩ := mem_registry_of_lookup (handler_eq.1 hx)
  have hargv' : e.argv = name :: args := hargv
  rw [hcommand, hargv']
  rcases List.mem_pair.1 hin with rfl | rfl
  · obtain rfl := mem_registry_set _ hmem rfl
    rcases parseArgs_set args with hmal | ⟨_, _, _, _, -, -, hset⟩
    · exact congrArg KvCommand.recorded hmal
    · exact congrArg KvCommand.recorded hset
  · obtain rfl := mem_registry_del _ hmem rfl
    exact parseArgs_del args

lemma expire_argv (hh : e.handler = some .expire) : ∃ key seconds, e.argv = [text "EXPIRE", key, seconds] := by
  obtain ⟨name, args, arity, hargv, hmem, harity⟩ := mem_registry_of_lookup (handler_eq.1 hh)
  cases mem_registry_expire _ hmem rfl
  have hargv' : e.argv = text "EXPIRE" :: args := hargv
  have hlen : e.argv.length = 3 := by
    unfold wrongArity at harity
    have : (ParsedCommand.ofArgs e.args).argv.length = 3 := by omega
    exact this
  rw [hargv'] at hlen
  obtain ⟨key, seconds, rfl⟩ := List.length_eq_two.1 (show args.length = 2 by simpa using hlen)
  exact ⟨key, seconds, hargv'⟩

/-- What is not recorded is refused, or an EXPIRE. -/
lemma command_of_not_records (h : e.records = false) : e.command = .malformed ∨ e.command.recorded = false := by
  unfold records at h
  unfold command
  cases hh : e.handler with
  | none => exact Or.inl rfl
  | some x =>
    rw [hh] at h
    cases x with
    | set | del => cases h
    | expire =>
      obtain ⟨key, seconds, hargv⟩ := expire_argv hh
      have hparse : parseArgs [text "EXPIRE", key, seconds] = _ := parseArgs_expire key seconds []
      rw [if_pos (by decide), hargv, hparse]
      cases parseTtl 1000 seconds with
      | none => exact Or.inl rfl
      | some => exact Or.inr rfl
    | _ => exact Or.inl rfl

lemma argv_argv (hh : e.handler = some h) (now : UInt64) : (Request.mk now e.argv).argv = e.argv := by
  obtain ⟨name, args, arity, hargv, hmem, -⟩ := mem_registry_of_lookup (handler_eq.1 hh)
  have hargv' : e.argv = name :: args := hargv
  rw [hargv']
  show name.map upper :: (args.map some).map (fun token => token.getD []) = name :: args
  rw [(registry_lookup _ hmem).1, List.map_map]
  congr 1
  exact List.map_id' args

lemma handler_argv (hh : e.handler = some h) (now : UInt64) :
    (Request.mk now e.argv).handler = some h := by
  obtain ⟨name, args, arity, hargv, hmem, harity⟩ := mem_registry_of_lookup (handler_eq.1 hh)
  have hsame : (ParsedCommand.ofArgs e.argv).argv = e.argv := argv_argv hh now
  rw [handler_eq]
  apply lookup_of_mem_registry (hsame.trans hargv) hmem
  rw [hsame]
  exact harity

end Request

namespace ClassicService

variable [Platform] {n m : ℕ} [NeZero n] [NeZero m]

def step (s : ClassicService n) (e : Request) : ClassicService n := s.dispatchCommand e.now e.args

abbrev run (s : ClassicService n) (es : List Request) : ClassicService n := Run.run step s es

def execute (s : ClassicService n) (now : UInt64) (args : List Str) (c : KvCommand) (record : Bool) :
    ClassicService n where
  kv := (s.kv.apply now c).1
  disk := if record ∧ s.replayMode = false then { s.disk with aof := s.disk.aof ++ encodeRespArray args } else s.disk
  replayMode := s.replayMode

lemma submitCommand_eq {args : List Str} (hargs : Recordable args) (s : ClassicService n) (now : UInt64) :
    s.submitCommand now args = ({ s with kv := (s.kv.apply now (parseArgs args)).1 }, ⟨.ok, 1⟩) := by
  rw [submitCommand, KvStateMachine.applyLogEntry, parseCommand_encode hargs.1 hargs.length_lt]

lemma write_eq {args : List Str} (hargs : Recordable args) (s : ClassicService n) (now : UInt64) :
    s.write now args = s.execute now args (parseArgs args) true := by
  unfold write execute
  rw [submitCommand_eq hargs, if_neg (show ¬ ApplyOp.ok = .error by decide)]
  cases s.replayMode <;> rfl

lemma expire_eq {key seconds : Str} (hargs : Recordable [text "EXPIRE", key, seconds]) (s : ClassicService n)
    (now : UInt64) :
    s.expire now [text "EXPIRE", key, seconds] =
      s.execute now [text "EXPIRE", key, seconds] (parseArgs [text "EXPIRE", key, seconds]) false := by
  have hparse : parseArgs [text "EXPIRE", key, seconds] = _ := parseArgs_expire key seconds []
  unfold expire
  rw [hparse]
  cases httl : parseTtl 1000 seconds with
  | none =>
    have hneg : (simpleAtoi (([text "EXPIRE", key, seconds][2]?).getD [])).all (· < 0) := parseTtl_eq_none.1 httl
    rw [if_pos hneg]
    rfl
  | some =>
    have hpos : ¬ (simpleAtoi (([text "EXPIRE", key, seconds][2]?).getD [])).all (· < 0) := by
      intro h
      have hnone : parseTtl 1000 seconds = none := parseTtl_eq_none.2 h
      cases hnone.symm.trans httl
    rw [if_neg hpos, submitCommand_eq hargs, hparse, httl]
    rfl

theorem step_spec (s : ClassicService n) {e : Request} (hscope : e.inScope) (hargs : Recordable e.argv) :
    (e.saves ∧ e.command = .malformed ∧ s.step e = s.createSnapshot) ∨
    (e.saves = false ∧ s.step e = s.execute e.now e.argv e.command e.records) := by
  unfold step dispatchCommand Request.saves Request.command Request.records
  dsimp only
  cases hlookup : (ParsedCommand.ofArgs e.args).lookup with
  | error =>
    have hh : e.handler = none := by rw [Request.handler, hlookup]; rfl
    rw [hh]
    exact Or.inr ⟨rfl, rfl⟩
  | ok h =>
    have hh : e.handler = some h := Request.handler_eq.2 hlookup
    rw [hh]
    unfold Request.inScope at hscope
    rw [hh] at hscope
    cases h with
    | set | del => exact Or.inr ⟨rfl, write_eq hargs s e.now⟩
    | expire =>
      obtain ⟨key, seconds, hargv⟩ := Request.expire_argv hh
      refine Or.inr ⟨rfl, ?_⟩
      show s.expire e.now e.argv = s.execute e.now e.argv (parseArgs e.argv) false
      rw [hargv] at hargs ⊢
      exact expire_eq hargs s e.now
    | save => exact Or.inl ⟨rfl, rfl, rfl⟩
    | ping | get | debug | info | command => cases hscope

/-! ## Conditions -/

def SnapshotFits (kv : KvStateMachine n) : Prop := kv.records.length < 2 ^ 32 ∧ ∀ r ∈ kv.records, r.Fits

instance (kv : KvStateMachine n) : Decidable (SnapshotFits kv) :=
  inferInstanceAs (Decidable (kv.records.length < 2 ^ 32 ∧
    ∀ r ∈ kv.records, r.key.length < 2 ^ 32 ∧ r.value.length < 2 ^ 32))

/-- The conditions on one command. It is carried out until `stop` and is one of those above; it fits the append-only
file, and at a SAVE the store fits the snapshot; the expiry time that it sets comes after `last`; and it is no EXPIRE
that gives a key its first expiry time. -/
def settled (stop last : UInt64) (s : ClassicService n) (e : Request) : Bool :=
  e.inScope && decide (Recordable e.argv) && decide (e.now ≤ stop) && e.command.lasts last e.now &&
    !e.command.givesExpiry s.kv.lookup && (!e.saves || decide (SnapshotFits s.kv))

/-! ## Files from which the store is recovered -/

/-- a recorded command: it is dispatched as it stands, and its expiry time comes after `last` whenever it is carried
out -/
structure Replayable (stop last : UInt64) (args : List Str) : Prop where
  argv : (Request.mk stop args).argv = args
  scope : (Request.mk stop args).inScope
  command : (Request.mk stop args).command = parseArgs args
  live : (Request.mk stop args).saves = false
  recordable : Recordable args
  recorded : (parseArgs args).recorded
  lasts : (parseArgs args).lasts last stop

def savedStore (saved : Option (KvStateMachine n)) : Store := (saved.map KvStateMachine.lookup).getD (fun _ => none)

structure Recovers (stop last : UInt64) (s : ClassicService n) (cmds : List (List Str))
    (saved : Option (KvStateMachine n)) :
    Prop where
  live : s.replayMode = false
  aof : s.disk.aof = writeAll encodeRespArray cmds
  snapshot : s.disk.snapshot = saved.map (fun kv => encodeSnapshot kv.records)
  replayable : ∀ args ∈ cmds, Replayable stop last args
  fits : ∀ kv ∈ saved, SnapshotFits kv
  lastingSaved : Lasting last (savedStore saved)
  lasting : Lasting last s.kv.lookup
  replays : ∀ k, Cell.replay (cmds.map parseArgs) k (Store.cells (savedStore saved) k) = Store.cells s.kv.lookup k

def Stable (s : ClassicService n) (cmds : List (List Str)) : Prop :=
  ∀ k, Cell.replay (cmds.map parseArgs) k (Store.cells s.kv.lookup k) = Store.cells s.kv.lookup k

def Recoverable (stop last : UInt64) (s : ClassicService n) : Prop := ∃ cmds saved, Recovers stop last s cmds saved

def Saveable (stop last : UInt64) (s : ClassicService n) : Prop :=
  ∃ cmds saved, Recovers stop last s cmds saved ∧ Stable s cmds

section Steps
variable {stop last : UInt64} {s : ClassicService n} {e : Request} {cmds : List (List Str)}
  {saved : Option (KvStateMachine n)}

lemma settled_iff : settled stop last s e ↔
    e.inScope ∧ Recordable e.argv ∧ e.now ≤ stop ∧ e.command.lasts last e.now ∧
    e.command.givesExpiry s.kv.lookup = false ∧ (e.saves → SnapshotFits s.kv) := by
  simp [settled, and_assoc, Bool.or_eq_true, imp_iff_not_or]

lemma settled_step (hs : settled stop last s e) (hsave : e.saves = false) :
    s.step e = s.execute e.now e.argv e.command e.records := by
  obtain ⟨hscope, hargs, -⟩ := settled_iff.1 hs
  rcases step_spec s hscope hargs with ⟨hsaves, -⟩ | ⟨-, hstep⟩
  · cases hsave.symm.trans hsaves
  · exact hstep

lemma replayable_argv (hs : settled stop last s e) (hrec : e.records) : Replayable stop last e.argv := by
  obtain ⟨hscope, hargs, hnow, hlasts, -, -⟩ := settled_iff.1 hs
  obtain ⟨⟨h, hmem, hh⟩, hcommand, hkind⟩ := Request.command_of_records hrec
  have hsame := Request.argv_argv hh stop
  have hsameHandler : (Request.mk stop e.argv).handler = e.handler := (Request.handler_argv hh stop).trans hh.symm
  have hsameCommand : (Request.mk stop e.argv).command = e.command := by
    unfold Request.command
    rw [hsameHandler, hsame]
  refine ⟨hsame, ?_, hsameCommand.trans hcommand, ?_, hargs, hcommand ▸ hkind,
    hcommand ▸ KvCommand.lasts_mono hnow hlasts⟩
  · rw [Request.inScope, hsameHandler]
    exact hscope
  · rw [Request.saves, hsameHandler, hh, decide_eq_false_iff_not]
    rintro ⟨⟩
    exact absurd hmem (by decide)

def recordedBy (e : Request) : List (List Str) := if e.records then [e.argv] else []

lemma execute_cells (hlast : Lasting last s.kv.lookup) {now : UInt64} (hnow : now ≤ last) {c : KvCommand}
    (hc : c.lasts last now) (args : List Str) (record : Bool) : Lasting last (s.execute now args c record).kv.lookup ∧
    ∀ k, Store.cells (s.execute now args c record).kv.lookup k = c.act k (Store.cells s.kv.lookup k) := by
  have hlookup : (s.execute now args c record).kv.lookup = (Store.apply s.kv.lookup now c).1 :=
    congrArg Prod.fst (s.kv.apply_refines now c)
  rw [hlookup]
  obtain ⟨hlasting, hcells⟩ := Store.cells_apply hlast hnow hc
  exact ⟨hlasting, congrFun hcells⟩

lemma Recovers.execute (h : Recovers stop last s cmds saved) (hle : stop ≤ last) (hs : settled stop last s e)
    (hsave : e.saves = false) : Recovers stop last (s.step e) (cmds ++ recordedBy e) saved := by
  obtain ⟨-, -, hnow, hlasts, hexpiry, -⟩ := settled_iff.1 hs
  have hstep := settled_step hs hsave
  obtain ⟨hlasting, hcells⟩ := execute_cells h.lasting (UInt64.le_trans hnow hle) hlasts e.argv e.records
  rw [hstep]
  cases hrec : e.records with
  | false =>
    rw [hrec] at hlasting hcells
    rw [recordedBy, hrec]
    have hdisk : (s.execute e.now e.argv e.command false).disk = s.disk := by simp [ClassicService.execute]
    refine { live := h.live, aof := ?_, snapshot := ?_, replayable := ?_, fits := h.fits,
             lastingSaved := h.lastingSaved, lasting := hlasting, replays := ?_ }
    · rw [hdisk, h.aof]
      simp
    · rw [hdisk, h.snapshot]
    · simpa using h.replayable
    · intro k
      rw [hcells, KvCommand.act_of_not_recorded (Request.command_of_not_records hrec) hexpiry]
      simpa using h.replays k
  | true =>
    rw [hrec] at hlasting hcells
    rw [recordedBy, hrec]
    have hdisk : (s.execute e.now e.argv e.command true).disk =
      { s.disk with aof := s.disk.aof ++ encodeRespArray e.argv } :=
      if_pos ⟨rfl, h.live⟩
    refine { live := h.live, aof := ?_, snapshot := ?_, replayable := ?_, fits := h.fits,
             lastingSaved := h.lastingSaved, lasting := hlasting, replays := ?_ }
    · rw [hdisk]
      simp [h.aof]
    · rw [hdisk]
      exact h.snapshot
    · intro args hmem
      rcases List.mem_append.1 hmem with hold | hnew
      · exact h.replayable args hold
      · obtain rfl : args = e.argv := by simpa using hnew
        exact replayable_argv hs hrec
    · intro k
      rw [hcells, ← h.replays k, (Request.command_of_records hrec).2.1]
      simp [Cell.replay]

lemma Stable.execute (hstable : Stable s cmds) (h : Recovers stop last s cmds saved) (hle : stop ≤ last)
    (hs : settled stop last s e) (hsave : e.saves = false) (hmiss : e.command.misses s.kv.lookup = false) :
    Stable (s.step e) (cmds ++ recordedBy e) := by
  obtain ⟨-, -, hnow, hlasts, hexpiry, -⟩ := settled_iff.1 hs
  have hstep := settled_step hs hsave
  obtain ⟨-, hcells⟩ := execute_cells h.lasting (UInt64.le_trans hnow hle) hlasts e.argv e.records
  intro k
  rw [hstep, hcells]
  cases hrec : e.records with
  | false =>
    rw [recordedBy, hrec, KvCommand.act_of_not_recorded (Request.command_of_not_records hrec) hexpiry]
    simpa using hstable k
  | true =>
    rw [recordedBy, hrec]
    have hcommands : ∀ c ∈ cmds.map parseArgs, c.recorded := by
      intro c hc
      obtain ⟨args, hmem, rfl⟩ := List.mem_map.1 hc
      exact (h.replayable args hmem).recorded
    have hact := Cell.replay_act hcommands (Request.command_of_records hrec).2.2 (hstable k) (by
      rintro val o hc hxx
      rw [hc, KvCommand.misses, hxx] at hmiss
      simpa [Store.cells] using hmiss)
    rw [(Request.command_of_records hrec).2.1] at hact ⊢
    simpa using hact

lemma Recovers.save (h : Recovers stop last s cmds saved) (hstable : Stable s cmds) (hs : settled stop last s e)
    (hsave : e.saves) : Recovers stop last (s.step e) cmds (some s.kv) ∧ Stable (s.step e) cmds := by
  obtain ⟨hscope, hargs, -, -, -, hfits⟩ := settled_iff.1 hs
  have hstep : s.step e = s.createSnapshot := by
    rcases step_spec s hscope hargs with ⟨-, -, hstep⟩ | ⟨hno, -⟩
    · exact hstep
    · cases hsave.symm.trans hno
  rw [hstep]
  refine ⟨?_, hstable⟩
  exact { live := h.live, aof := h.aof, snapshot := rfl, replayable := h.replayable
          fits := by
            rintro kv hkv
            cases hkv
            exact hfits hsave
          lastingSaved := h.lasting, lasting := h.lasting, replays := hstable }

end Steps

/-! ## The restart -/

section Restart
variable {stop last : UInt64}

lemma replayCommands_cells {cmds : List (List Str)} (hcmds : ∀ args ∈ cmds, Replayable stop last args)
    {s : ClassicService n} (hlast : Lasting last s.kv.lookup) {clock : ℕ → UInt64}
      (hclock : ∀ i, stop ≤ clock i ∧ clock i ≤ last) : Lasting last (s.replayCommands clock cmds).kv.lookup ∧
    ∀ k, Store.cells (s.replayCommands clock cmds).kv.lookup k =
      Cell.replay (cmds.map parseArgs) k (Store.cells s.kv.lookup k) := by
  induction cmds generalizing s clock with
  | nil => exact ⟨hlast, fun _ => rfl⟩
  | cons args _ ih =>
    have hargs := hcmds args List.mem_cons_self
    have hstep : s.dispatchCommand (clock 0) args =
        s.execute (clock 0) args (parseArgs args) (Request.mk (clock 0) args).records := by
      have hspec := step_spec (e := ⟨clock 0, args⟩) s hargs.scope (hargs.argv.symm ▸ hargs.recordable)
      rcases hspec with ⟨hsaves, -⟩ | ⟨-, hstep⟩
      · exact absurd hsaves (by rw [show (Request.mk (clock 0) args).saves = false from hargs.live]; decide)
      · have hargv : (Request.mk (clock 0) args).argv = args := hargs.argv
        have hcommand : (Request.mk (clock 0) args).command = parseArgs args := hargs.command
        rw [hargv, hcommand] at hstep
        exact hstep
    obtain ⟨hlasting, hcells⟩ := execute_cells hlast (hclock 0).2 (KvCommand.lasts_mono (hclock 0).1 hargs.lasts) args
      (Request.mk (clock 0) args).records
    rw [replayCommands, hstep]
    obtain ⟨hlasting', hcells'⟩ :=
      ih (fun x hx => hcmds x (List.mem_cons_of_mem args hx)) hlasting (fun i => hclock (i + 1))
    refine ⟨hlasting', fun k => ?_⟩
    rw [hcells', hcells]
    rfl

lemma loadSnapshot_lookup {disk : Disk} {saved : Option (KvStateMachine n)}
    (hdisk : disk.snapshot = saved.map (fun kv => encodeSnapshot kv.records)) (hfits : ∀ kv ∈ saved, SnapshotFits kv)
    (loading : ℕ → UInt64) :
    (({ disk := disk } : ClassicService m).loadSnapshot loading).kv.lookup = savedStore saved ∧
    (({ disk := disk } : ClassicService m).loadSnapshot loading).disk = disk := by
  unfold loadSnapshot
  rw [hdisk]
  cases saved with
  | none => exact ⟨rfl, rfl⟩
  | some kv =>
    obtain ⟨hcount, hrecords⟩ := hfits kv rfl
    rw [Option.map_some, Option.bind_some, decodeSnapshot_encode hrecords hcount]
    exact ⟨lookup_importEntries kv loading, rfl⟩

theorem restart_cells {s : ClassicService n} {cmds : List (List Str)} {saved : Option (KvStateMachine n)}
    (h : Recovers stop last s cmds saved) (loading : ℕ → UInt64) {replaying : ℕ → UInt64}
    (hclock : ∀ i, stop ≤ replaying i ∧ replaying i ≤ last) :
    Lasting last (restart s.disk loading replaying : ClassicService m).kv.lookup ∧
    Store.cells (restart s.disk loading replaying : ClassicService m).kv.lookup = Store.cells s.kv.lookup := by
  obtain ⟨hload, hdisk⟩ := loadSnapshot_lookup (m := m) h.snapshot h.fits loading
  unfold restart
  set t := ({ disk := s.disk } : ClassicService m).loadSnapshot loading with ht
  have hparse : parseRespCommands t.disk.aof = ⟨cmds, none⟩ := by
    rw [hdisk, h.aof]
    exact parseRespCommands_recorded (fun args hargs => (h.replayable args hargs).recordable)
  have hlast : Lasting last t.kv.lookup := by
    rw [hload]
    exact h.lastingSaved
  obtain ⟨hlasting, hcells⟩ := replayCommands_cells h.replayable (s := { t with replayMode := true }) hlast hclock
  have hall : ∀ k, Cell.replay (cmds.map parseArgs) k (Store.cells t.kv.lookup k) = Store.cells s.kv.lookup k := by
    rw [hload]
    exact h.replays
  unfold replayAof
  rw [hparse]
  by_cases hempty : t.disk.aof = []
  · -- nothing has been recorded
    have hnone : cmds = [] := by
      rw [hempty] at hparse
      exact (congrArg AofParseResult.commands hparse).symm
    subst hnone
    rw [if_pos hempty]
    exact ⟨hlast, funext hall⟩
  · rw [if_neg hempty]
    exact ⟨hlasting, funext (fun k => (hcells k).trans (hall k))⟩

end Restart

/-! ## The data survives -/

lemma saveable_init (stop last : UInt64) : Saveable stop last ({} : ClassicService n) := by
  have hempty : Lasting last (fun _ => none) := by
    rintro k v ⟨⟩
  refine ⟨[], none, ?_, fun _ => rfl⟩
  exact { live := rfl, aof := rfl, snapshot := rfl, replayable := by simp, fits := by simp, lastingSaved := hempty,
          lasting := hempty, replays := fun _ => rfl }

lemma saveable_step {stop last : UInt64} (hle : stop ≤ last) {s : ClassicService n} {e : Request}
    (h : Saveable stop last s) (he : (settled stop last s e && !e.command.misses s.kv.lookup) = true) :
    Saveable stop last (s.step e) := by
  obtain ⟨cmds, saved, hrec, hstable⟩ := h
  rw [Bool.and_eq_true, Bool.not_eq_true'] at he
  cases hsave : e.saves with
  | false => exact ⟨_, _, hrec.execute hle he.1 hsave, hstable.execute hrec hle he.1 hsave he.2⟩
  | true => exact ⟨_, _, hrec.save hstable he.1 hsave⟩

lemma recoverable_step {stop last : UInt64} (hle : stop ≤ last) {s : ClassicService n} {e : Request}
    (h : Recoverable stop last s) (he : (settled stop last s e && !e.saves) = true) :
    Recoverable stop last (s.step e) := by
  obtain ⟨cmds, saved, hrec⟩ := h
  rw [Bool.and_eq_true, Bool.not_eq_true'] at he
  exact ⟨_, _, hrec.execute hle he.1 he.2⟩

/-- **A restart keeps the data.** -/
theorem restart_keeps (early late : List Request) (stop last : UInt64) (loading replaying : ℕ → UInt64)
    (hearly : Run.along step (fun s e => settled stop last s e && !e.command.misses s.kv.lookup)
      ({} : ClassicService n) early)
    (hlate : Run.along step (fun s e => settled stop last s e && !e.saves) (run ({} : ClassicService n) early) late)
    (hclock : ∀ i, stop ≤ replaying i ∧ replaying i ≤ last) (key : Str) :
    let before := run ({} : ClassicService n) (early ++ late)
    let after : ClassicService m := restart before.disk loading replaying
    (alive last (after.kv.lookup key)).map (fun v => (v.value, decide (v.expireMs ≠ 0))) =
      (alive stop (before.kv.lookup key)).map (fun v => (v.value, decide (v.expireMs ≠ 0))) := by
  have hle : stop ≤ last := UInt64.le_trans (hclock 0).1 (hclock 0).2
  have hmid : Saveable stop last (run ({} : ClassicService n) early) :=
    Run.along_run step (fun s e h he => saveable_step hle h he) (saveable_init stop last) hearly
  obtain ⟨cmds, saved, hrec, -⟩ := hmid
  have hend : Recoverable stop last (run (run ({} : ClassicService n) early) late) :=
    Run.along_run step (fun s e h he => recoverable_step hle h he) ⟨cmds, saved, hrec⟩ hlate
  obtain ⟨cmds, saved, hrec⟩ := hend
  intro before after
  have hbefore : before = run (run ({} : ClassicService n) early) late := List.foldl_append
  rw [← hbefore] at hrec
  obtain ⟨hlast, hcells⟩ := restart_cells (m := m) hrec loading hclock
  rw [hlast.alive (UInt64.le_refl last) key, hrec.lasting.alive hle key]
  exact congrFun hcells key

end ClassicService

namespace ClassicService

def request (now : UInt64) (line : List String) : Request := ⟨now, line.map text⟩

def keptEarly : List Request :=
  [request 1000 ["SET", "k", "v", "EX", "100"], request 1001 ["set", "j", "w", "NX"],
    request 1002 ["SET", "k", "x", "XX"],
    request 1002 ["SET", "k", "y", "EX", "abc"], request 1003 ["EXPIRE", "k", "200"], request 1004 ["SAVE"],
      request 1005 ["DEL", "j"]]

def keptLate : List Request := [request 1006 ["SET", "i", "v", "XX"],
    request 1007 ["SET", "i", "u", "XX", "PX", "90000"]]

theorem restart_keeps_run :
    let before := run ({} : ClassicService 2) (keptEarly ++ keptLate)
    let after : ClassicService 3 := restart before.disk (fun _ => 2000) (fun _ => 2001)
    (before.kv.lookup (text "k") = some ⟨text "x", 201003⟩ ∧ after.kv.lookup (text "k") = some ⟨text "x", 102001⟩) ∧
    ∀ key, (alive 3000 (after.kv.lookup key)).map (fun v => (v.value, decide (v.expireMs ≠ 0))) =
      (alive 1500 (before.kv.lookup key)).map (fun v => (v.value, decide (v.expireMs ≠ 0))) := by
  intro before after
  refine ⟨by decide +kernel, ?_⟩
  exact restart_keeps keptEarly keptLate 1500 3000 _ _ (by decide +kernel) (by decide +kernel) (fun _ => by decide)

/-- **A restart may change the data.** -/
theorem restart_changes :
    let expire := run ({} : ClassicService 1) [request 1000 ["SET", "k", "v"], request 1001 ["EXPIRE", "k", "100"]]
    let expired := run ({} : ClassicService 1) [request 1000 ["SET", "k", "v", "PX", "10"]]
    let missed := run ({} : ClassicService 1) [request 1000 ["SET", "k", "v", "XX"], request 1001 ["SAVE"]]
    let after (s : ClassicService 1) : ClassicService 1 := restart s.disk (fun _ => 2000) (fun _ => 2000)
    let live (now : UInt64) (s : ClassicService 1) := alive now (s.kv.lookup (text "k"))
    (live 1500 expire = some ⟨text "v", 101001⟩ ∧ live 2001 (after expire) = some ⟨text "v", 0⟩) ∧
    (live 1500 expired = none ∧ live 2001 (after expired) = some ⟨text "v", 2010⟩) ∧
    (live 1500 missed = some ⟨[], 0⟩ ∧ live 2001 (after missed) = some ⟨text "v", 0⟩) := by
  decide +kernel

/-! ## Another number of shards -/

end ClassicService

end MaxRedis.Service

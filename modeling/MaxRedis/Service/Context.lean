/-
The commands of a client connection and its replies (`conn_context.cc`, `reply_builder.cc`).

A connection keeps a list of parsed commands. Those from `parsed_head` up to `to_execute` have been dispatched
(`replying`); those from `to_execute` on have not (`toExecute`), and the last of them may still lack arguments. A
command that is answered at dispatch writes its reply at once; a GET leaves a response behind (`resp`, `executeDone`)
that is written when the command comes to the head of the list.

The serializer writes to the socket or, in batch mode, to a buffer that goes out with the next reply that is not
batched. -/
import Mathlib.Data.List.ModifyLast
import MaxRedis.Kv.Commands
import MaxRedis.Raft.Types

namespace MaxRedis.Service

open Kv

def text (s : String) : Str := ascii s.toList

/-! ## Replies -/

structure BaseSerializer where
  shouldBatch : Bool := false
  batch : Str := []
  sink : Str := []
  deriving DecidableEq

namespace BaseSerializer

variable (s : BaseSerializer)

def setBatchMode (s : BaseSerializer) (batch : Bool) : BaseSerializer := { s with shouldBatch := batch }

def send (s : BaseSerializer) (data : Str) : BaseSerializer :=
  if s.shouldBatch then { s with batch := s.batch ++ data }
  else { s with batch := [], sink := s.sink ++ s.batch ++ data }

def sent (s : BaseSerializer) : Str := s.sink ++ s.batch

def sendReply (s : BaseSerializer) (batch : Bool) (reply : Option Str) : BaseSerializer :=
  (reply.map (s.setBatchMode batch).send).getD (s.setBatchMode batch)

lemma sent_send (data : Str) : (s.send data).sent = s.sent ++ data := by
  unfold send
  split_ifs <;> simp [sent]

lemma sent_sendReply (batch : Bool) (reply : Option Str) :
    (s.sendReply batch reply).sent = s.sent ++ reply.getD [] := by
  cases reply with
  | none => exact (List.append_nil _).symm
  | some data => exact sent_send _ data

lemma batch_sendReply_direct (data : Str) : (s.sendReply false (some data)).batch = [] := rfl

end BaseSerializer

def errorReply (str : Str) : Str := if str[0]? = some 45 then str ++ crlf else text "-ERR " ++ str ++ crlf

def simpleReply (str : Str) : Str := text "+" ++ str ++ crlf

def bulkReply (str : Str) : Str := text "$" ++ toDecimal (str.length % 2 ^ 32) ++ crlf ++ str ++ crlf

def nullReply : Str := text "$-1" ++ crlf

def longReply (val : ℕ) : Str := text ":" ++ toDecimal val ++ crlf

inductive Response where
  | monostate
  | error (str : Str)
  | simple (str : Str)
  | bulk (str : Str)
  | null
  deriving DecidableEq

def Response.reply : Response → Option Str
  | .monostate => none
  | .error str => some (errorReply str)
  | .simple str => some (simpleReply str)
  | .bulk str => some (bulkReply str)
  | .null => some nullReply

/-! ## Commands -/

/-- `ParsedCommand`; an argument is `none` until it has been read, and `argc` is the length of `tokens` -/
structure ParsedCommand where
  tokens : List (Option Str)
  parseComplete : Bool := false
  dispatched : Bool := false
  executeAsync : Bool := false
  resp : Response := .monostate
  executeDone : Bool := false
  headReply : Bool := false
  deriving DecidableEq

def ParsedCommand.checkIfCanReply (head : ParsedCommand) (peekOnly : Bool) : Bool × ParsedCommand :=
  if !head.parseComplete then (false, head)
  else if !head.executeAsync then (true, head)
  else if head.executeDone then (true, head)
  else if peekOnly then (false, head)
  else (false, { head with headReply := true })

lemma ParsedCommand.checkIfCanReply_cases (cmd : ParsedCommand) (peekOnly : Bool) :
    cmd.checkIfCanReply peekOnly = (true, cmd) ∨ cmd.checkIfCanReply peekOnly = (false, cmd) ∨
      cmd.checkIfCanReply peekOnly = (false, { cmd with headReply := true }) := by
  unfold ParsedCommand.checkIfCanReply
  split_ifs <;> simp

lemma ParsedCommand.checkIfCanReply_fst (cmd : ParsedCommand) (peekOnly : Bool) :
    (cmd.checkIfCanReply peekOnly).1 = (cmd.parseComplete && (!cmd.executeAsync || cmd.executeDone)) := by
  unfold ParsedCommand.checkIfCanReply
  split_ifs <;> simp_all

/-- The batch mode for a reply: the next command looks as if it would be replied to as well. The dispatch asks whether
it is parsed (`looks`), the reply whether it is dispatched. -/
def nextCanReply (looks : ParsedCommand → Bool) (rest : List ParsedCommand) : Bool :=
  (rest.head?.map (fun next => looks next && (next.checkIfCanReply true).1)).getD false

structure ConnectionContext where
  replying : List ParsedCommand := []
  toExecute : List ParsedCommand := []
  serializer : BaseSerializer := {}
  /-- the commands in the order in which they were marked complete; the source keeps no such list -/
  completed : List (List (Option Str)) := []
  deriving DecidableEq

namespace ConnectionContext

variable (cc : ConnectionContext)

def addParsedCommand (cc : ConnectionContext) (tokens : List (Option Str)) (fullyParsed : Bool) : ConnectionContext :=
  { cc with
    toExecute := cc.toExecute ++ [{ tokens := tokens, parseComplete := fullyParsed }]
    completed := if fullyParsed then cc.completed ++ [tokens] else cc.completed }

def modifyTail (cc : ConnectionContext) (f : ParsedCommand → ParsedCommand) : ConnectionContext :=
  if cc.toExecute = [] then { cc with replying := cc.replying.modifyLast f }
  else { cc with toExecute := cc.toExecute.modifyLast f }

def setToken (cc : ConnectionContext) (missing : ℕ) (arg : Str) : ConnectionContext :=
  cc.modifyTail (fun cmd => { cmd with tokens := cmd.tokens.set (cmd.tokens.length - missing) (some arg) })

def completeTail (cc : ConnectionContext) : ConnectionContext :=
  { cc.modifyTail (fun cmd => { cmd with parseComplete := true }) with
    completed := cc.completed ++ ((cc.replying ++ cc.toExecute).getLast?.map ParsedCommand.tokens).toList }

def ready (cc : ConnectionContext) : List (List (Option Str)) :=
  (cc.toExecute.filter ParsedCommand.parseComplete).map ParsedCommand.tokens

def replyReadyCommand (cc : ConnectionContext) : ConnectionContext × Bool :=
  match cc.replying with
  | [] => (cc, false)
  | cmd :: rest =>
    match cmd.checkIfCanReply false with
    | (false, cmd) => ({ cc with replying := cmd :: rest }, false)
    | (true, cmd) =>
      let batchMode := nextCanReply ParsedCommand.dispatched (rest ++ cc.toExecute)
      ({ cc with replying := rest, serializer := cc.serializer.sendReply batchMode cmd.resp.reply }, true)

lemma ready_addParsedCommand (tokens : List (Option Str)) :
    (cc.addParsedCommand tokens true).ready = cc.ready ++ [tokens] := by
  simp [ready, addParsedCommand]

lemma ready_openCommand (tokens : List (Option Str)) :
    (cc.addParsedCommand tokens false).ready = cc.ready := by
  simp [ready, addParsedCommand]

section Tail
variable {cc : ConnectionContext} {ready : List ParsedCommand} {tail : ParsedCommand}
variable (h : cc.toExecute = ready ++ [tail])
include h

lemma modifyTail_concat (f : ParsedCommand → ParsedCommand) :
    cc.modifyTail f = { cc with toExecute := ready ++ [f tail] } := by
  have hne : cc.toExecute ≠ [] := by simp [h]
  rw [modifyTail, if_neg hne, h, List.modifyLast_concat]

lemma setToken_concat (missing : ℕ) (arg : Str) : cc.setToken missing arg =
    { cc with toExecute := ready ++ [{ tail with
      tokens := tail.tokens.set (tail.tokens.length - missing) (some arg) }] } :=
  modifyTail_concat h _

lemma completeTail_concat : cc.completeTail =
    { cc with
      toExecute := ready ++ [{ tail with parseComplete := true }]
      completed := cc.completed ++ [tail.tokens] } := by
  have hlast : (cc.replying ++ cc.toExecute).getLast? = some tail := by
    rw [h, ← List.append_assoc, List.getLast?_concat]
  rw [completeTail, modifyTail_concat h, hlast]
  rfl

lemma ready_setToken (htail : tail.parseComplete = false) (missing : ℕ)
    (arg : Str) : (cc.setToken missing arg).ready = cc.ready := by
  rw [setToken_concat h]
  simp [ConnectionContext.ready, h, htail]

lemma ready_completeTail (htail : tail.parseComplete = false) : cc.completeTail.ready = cc.ready ++ [tail.tokens] := by
  rw [completeTail_concat h]
  simp [ConnectionContext.ready, h, htail]

end Tail

end ConnectionContext

end MaxRedis.Service

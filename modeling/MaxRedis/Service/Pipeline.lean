/-
Pipelined commands and their replies.

Two paths lead to the serializer of a connection: a command that is answered at dispatch writes its reply then, and the
response of a GET is written when the GET comes to the head of the list.
-/
import MaxRedis.Service.InputLoop

namespace MaxRedis.Service

open Kv Connection List

/-! ## Commands that have been dispatched -/

structure Answering (cmd : ParsedCommand) : Prop where
  complete : cmd.parseComplete = true
  direct : cmd.executeAsync = false → cmd.resp = .monostate
  later : cmd.executeAsync = true → (cmd.executeDone = true ↔ cmd.resp.reply ≠ none)

section Dispatched
variable {cmd : ParsedCommand}

lemma dispatchCommand_spec (cmd : ParsedCommand) (e : Engine) :
    (cmd.dispatchCommand e).1.parseComplete = cmd.parseComplete ∧ (cmd.dispatchCommand e).1.resp = cmd.resp ∧
      (cmd.dispatchCommand e).1.executeDone = cmd.executeDone ∧
      (cmd.executeAsync = false → ((cmd.dispatchCommand e).1.executeAsync = true ↔ (cmd.dispatchCommand e).2 = none)) ∧
      (cmd.dispatched = false → (cmd.dispatchCommand e).1.dispatched = true → cmd.lookup.isOk) := by
  unfold ParsedCommand.dispatchCommand
  split
  · refine ⟨rfl, rfl, rfl, fun h => by simp [h], fun h hd => ?_⟩
    cases h.symm.trans hd
  · rename_i handler hlookup
    split
    · exact ⟨rfl, rfl, rfl, fun h => by simp [h], fun _ _ => by rw [hlookup]; rfl⟩
    · exact ⟨rfl, rfl, rfl, fun h => by simp, fun _ _ => by rw [hlookup]; rfl⟩

lemma answering_dispatchCommand (h : Fresh cmd) (hcomplete : cmd.parseComplete) (e : Engine) :
    Answering (cmd.dispatchCommand e).1 := by
  obtain ⟨hparse, hresp, hdone, -⟩ := dispatchCommand_spec cmd e
  refine ⟨hparse.trans hcomplete, fun _ => hresp.trans h.resp, fun _ => ?_⟩
  rw [hdone, hresp, h.pending, h.resp]
  simp [Response.reply]

lemma Answering.headReply (h : Answering cmd) : Answering { cmd with headReply := true } :=
  ⟨h.complete, h.direct, h.later⟩

lemma Answering.done (h : Answering cmd) (hasync : cmd.executeAsync) (value : Option Str) :
    Answering { cmd with resp := (value.map Response.bulk).getD .null, executeDone := true } := by
  refine ⟨h.complete, fun h => ?_, fun _ => ⟨fun _ => ?_, fun _ => rfl⟩⟩
  · cases hasync.symm.trans h
  · cases value with
    | none | some => simp [Response.reply]

lemma Answering.reply (h : Answering cmd) (hasync : cmd.executeAsync) (hcan : (cmd.checkIfCanReply false).1) :
    ∃ data, cmd.resp.reply = some data := by
  rw [ParsedCommand.checkIfCanReply_fst] at hcan
  have hdone : cmd.executeDone = true := by simpa [hasync] using (Bool.and_eq_true_iff.1 hcan).2
  exact Option.ne_none_iff_exists'.1 ((h.later hasync).1 hdone)

end Dispatched

namespace InputLoop

variable {s : InputLoop}

/-! ## The buffer -/

def crowds (s : InputLoop) : LoopEvent → Bool
  | .dispatch e =>
    match s.conn.cc.toExecute with
    | [] => false
    | cmd :: _ =>
      s.phase = .dispatch ∧ cmd.parseComplete ∧ cmd.lookup.isOk ∧ ¬ cmd.deferred e ∧
        s.conn.cc.replying.getLast?.any ParsedCommand.executeAsync
  | _ => false

def kind (cmd : ParsedCommand) : Bool × Bool := (cmd.executeAsync, cmd.dispatched)

def Behind (a b : Bool × Bool) : Prop := a.1 → b.2 → b.1

structure Flushed (s : InputLoop) : Prop where
  wellFormed : s.conn.WellFormed
  answering : ∀ cmd ∈ s.conn.cc.replying, Answering cmd
  behind : (s.conn.cc.replying.map kind).IsChain Behind
  goesOut : s.conn.cc.serializer.batch ≠ [] →
    ((s.phase = .dispatch ∨ s.phase = .aborted) ∧ ∃ cmd rest, s.conn.cc.toExecute = cmd :: rest ∧ cmd.parseComplete) ∨
    ∃ k ∈ s.conn.cc.replying.map kind, k.1

lemma flushed_init : Flushed {} where
  wellFormed := Connection.wellFormed_init
  answering := by simp
  behind := isChain_nil
  goesOut := by simp

lemma nextCanReply_true {looks : ParsedCommand → Bool} {rest : List ParsedCommand}
    (h : nextCanReply looks rest = true) : ∃ next rest', rest = next :: rest' ∧ looks next := by
  cases rest with
  | nil => cases h
  | cons next rest' =>
    refine ⟨next, rest', rfl, ?_⟩
    have : (looks next && (next.checkIfCanReply true).1) = true := h
    exact (Bool.and_eq_true_iff.1 this).1

lemma map_set_eq {α β : Type} {f : α → β} {l : List α} {i : ℕ} {a a' : α} (h : l[i]? = some a) (hf : f a' = f a) :
    (l.set i a').map f = l.map f := by
  apply ext_getElem?
  intro j
  rw [getElem?_map, getElem?_map, getElem?_set]
  split_ifs with hij hi
  · subst hij
    rw [h, Option.map_some, Option.map_some, hf]
  · rw [getElem?_eq_none (by omega)]
  · rfl

lemma step_answering (hwf : s.conn.WellFormed) (h : ∀ cmd ∈ s.conn.cc.replying, Answering cmd) (e : LoopEvent) :
    ∀ cmd ∈ (s.step e).conn.cc.replying, Answering cmd := by
  have hstep := (step_spec hwf e).1
  generalize s.step e = t at hstep
  cases hstep with
  | idle _ ht =>
    rw [ht]
    exact h
  | read _ _ hframe =>
    rw [hframe.replying]
    exact h
  | dispatchEnd _ _ ht =>
    subst ht
    exact h
  | crash _ _ _ _ _ _ _ ht =>
    subst ht
    exact h
  | dispatchOne e cmd _ _ hlist hcomplete _ ht =>
    subst ht
    have hfresh : Connection.Fresh cmd := hwf.fresh cmd (by rw [hlist]; exact mem_cons_self ..)
    exact forall_mem_append.2 ⟨h, by simpa using answering_dispatchCommand hfresh hcomplete e⟩
  | replyOne _ _ _ hlist _ ht =>
    subst ht
    rw [hlist] at h
    exact (forall_mem_cons.1 h).2
  | replyEnd _ _ hlist ht =>
    subst ht
    rcases hlist with rfl | ⟨cmd, rest, hold, rfl⟩
    · exact h
    · rw [hold] at h
      obtain ⟨hcmd, hrest⟩ := forall_mem_cons.1 h
      exact forall_mem_cons.2 ⟨hcmd.headReply, hrest⟩
  | complete _ value cmd hcmd hasync _ ht =>
    subst ht
    intro c hc
    rcases mem_or_eq_of_mem_set hc with hc | rfl
    · exact h c hc
    · exact (h cmd (mem_of_getElem? hcmd)).done hasync value

lemma flushed_dispatchOne (h : s.Flushed) {e : Engine} (he : s.crowds (.dispatch e) = false) {cmd : ParsedCommand}
    {rest : List ParsedCommand} (hs : s.phase = .dispatch) (hlist : s.conn.cc.toExecute = cmd :: rest)
    (hcomplete : cmd.parseComplete) {t : InputLoop} (hwf : t.conn.WellFormed)
    (hans : ∀ cmd ∈ t.conn.cc.replying, Answering cmd) (hphase : t.phase = s.phase)
    (hreplying : t.conn.cc.replying = s.conn.cc.replying ++ [(cmd.dispatchCommand e).1])
    (hrest : t.conn.cc.toExecute = rest)
    (hser : t.conn.cc.serializer = s.conn.cc.serializer.sendReply (nextCanReply ParsedCommand.parseComplete rest)
      (cmd.dispatchCommand e).2) : t.Flushed := by
  have hfresh : Connection.Fresh cmd := h.wellFormed.fresh cmd (by rw [hlist]; exact mem_cons_self ..)
  obtain ⟨-, -, -, hasync, hdisp⟩ := dispatchCommand_spec cmd e
  refine ⟨hwf, hans, ?_, ?_⟩
  · rw [hreplying, map_append, isChain_append]
    refine ⟨h.behind, by simp, ?_⟩
    intro last hlast k hk hgo hd
    obtain rfl : kind (cmd.dispatchCommand e).1 = k := by simpa using hk
    -- a registered command behind a GET is a GET itself
    apply (hasync hfresh.sync).2
    rw [dispatchCommand_deferred]
    by_contra hdef
    have hgets : s.conn.cc.replying.getLast?.any ParsedCommand.executeAsync = true := by
      rw [getLast?_map] at hlast
      obtain ⟨c, hc, rfl⟩ := Option.map_eq_some_iff.1 hlast
      rw [hc]
      exact hgo
    have : s.crowds (.dispatch e) = true := by
      unfold crowds
      rw [hlist]
      simp [hs, hcomplete, hdisp hfresh.dispatched hd, hdef, hgets]
    cases he.symm.trans this
  · intro hbatch
    rw [hser] at hbatch
    rw [hphase, hrest, hreplying]
    cases hreply : (cmd.dispatchCommand e).2 with
    | none =>
      refine Or.inr ⟨kind (cmd.dispatchCommand e).1, by simp, ?_⟩
      exact (hasync hfresh.sync).2 hreply
    | some data =>
      rw [hreply] at hbatch
      cases hnext : nextCanReply ParsedCommand.parseComplete rest with
      | false =>
        rw [hnext] at hbatch
        exact absurd (BaseSerializer.batch_sendReply_direct _ data) hbatch
      | true =>
        obtain ⟨next, rest', rfl, hcomp⟩ := nextCanReply_true hnext
        exact Or.inl ⟨Or.inl hs, next, rest', rfl, hcomp⟩

lemma flushed_replyOne (h : s.Flushed) {cmd : ParsedCommand} {rest : List ParsedCommand} (hs : s.phase = .reply)
    (hlist : s.conn.cc.replying = cmd :: rest) (hcan : (cmd.checkIfCanReply false).1) {t : InputLoop}
    (hwf : t.conn.WellFormed) (hans : ∀ cmd ∈ t.conn.cc.replying, Answering cmd) (hreplying : t.conn.cc.replying = rest)
    (hser : t.conn.cc.serializer = s.conn.cc.serializer.sendReply
      (nextCanReply ParsedCommand.dispatched (rest ++ s.conn.cc.toExecute)) cmd.resp.reply) : t.Flushed := by
  have hcmd : Answering cmd := h.answering cmd (by rw [hlist]; exact mem_cons_self ..)
  have hbehind := h.behind
  rw [hlist, map_cons] at hbehind
  refine ⟨hwf, hans, ?_, ?_⟩
  · rw [hreplying]
    exact hbehind.tail
  · intro hbatch
    rw [hser] at hbatch
    rw [hreplying]
    right
    cases hasync : cmd.executeAsync with
    | false =>
      -- nothing is written, so the buffer waits for a GET behind this command
      rw [hcmd.direct hasync] at hbatch
      rcases h.goesOut hbatch with ⟨hphase, -⟩ | ⟨k, hk, hget⟩
      · rw [hs] at hphase
        exact absurd hphase (by decide)
      · rw [hlist] at hk
        rcases mem_cons.1 hk with rfl | hk
        · rw [show (kind cmd).1 = false from hasync] at hget
          cases hget
        · exact ⟨k, hk, hget⟩
    | true =>
      obtain ⟨data, hdata⟩ := hcmd.reply hasync hcan
      rw [hdata] at hbatch
      cases hnext : nextCanReply ParsedCommand.dispatched (rest ++ s.conn.cc.toExecute) with
      | false =>
        rw [hnext] at hbatch
        exact absurd (BaseSerializer.batch_sendReply_direct _ data) hbatch
      | true =>
        obtain ⟨next, rest', heq, hdisp⟩ := nextCanReply_true hnext
        cases rest with
        | nil =>
          -- a command that has not been dispatched does not pass for one
          have hfresh := h.wellFormed.fresh next (by rw [show s.conn.cc.toExecute = next :: rest' from heq]; simp)
          cases hfresh.dispatched.symm.trans hdisp
        | cons =>
          cases heq
          rw [map_cons, isChain_cons_cons] at hbehind
          exact ⟨kind next, by simp, hbehind.1 hasync hdisp⟩

lemma step_flushed (h : s.Flushed) {e : LoopEvent} (he : s.crowds e = false) : (s.step e).Flushed := by
  obtain ⟨hstep, hwf⟩ := step_spec h.wellFormed e
  have hans := step_answering h.wellFormed h.answering e
  generalize s.step e = t at hstep hwf hans
  -- a step that changes no command and no reply
  have hkeep : t.conn.cc.replying.map kind = s.conn.cc.replying.map kind →
      t.conn.cc.serializer = s.conn.cc.serializer →
      (s.phase = .dispatch ∨ s.phase = .aborted →
        (∃ cmd rest, s.conn.cc.toExecute = cmd :: rest ∧ cmd.parseComplete) →
        (t.phase = .dispatch ∨ t.phase = .aborted) ∧ t.conn.cc.toExecute = s.conn.cc.toExecute) → t.Flushed := by
    intro hkind hser hphase
    refine ⟨hwf, hans, by rw [hkind]; exact h.behind, ?_⟩
    intro hbatch
    rw [hser] at hbatch
    rw [hkind]
    rcases h.goesOut hbatch with ⟨hd, hcmd⟩ | hget
    · obtain ⟨hd', hlist⟩ := hphase hd hcmd
      rw [hlist]
      exact Or.inl ⟨hd', hcmd⟩
    · exact Or.inr hget
  cases hstep with
  | idle _ ht =>
    rw [ht]
    exact h
  | read _ hs hframe =>
    apply hkeep (by rw [hframe.replying]) hframe.serializer
    intro hd
    rw [hs] at hd
    exact absurd hd (by decide)
  | dispatchEnd _ _ ht hend =>
    subst ht
    apply hkeep rfl rfl
    rintro - ⟨cmd, rest, hlist, hcomplete⟩
    rw [hend cmd rest hlist] at hcomplete
    cases hcomplete
  | crash _ _ _ _ _ _ _ ht =>
    subst ht
    exact hkeep rfl rfl (fun _ _ => ⟨Or.inr rfl, rfl⟩)
  | dispatchOne _ _ _ hs hlist hcomplete _ ht =>
    subst ht
    exact flushed_dispatchOne h he hs hlist hcomplete hwf hans rfl rfl rfl rfl
  | replyOne _ _ hs hlist hcan ht =>
    subst ht
    exact flushed_replyOne h hs hlist hcan hwf hans rfl rfl
  | replyEnd _ hs hlist ht =>
    subst ht
    apply hkeep
    · rcases hlist with rfl | ⟨cmd, rest, hold, rfl⟩
      · rfl
      · rw [hold]
        rfl
    · rfl
    · intro hd
      rw [hs] at hd
      exact absurd hd (by decide)
  | complete _ _ _ hcmd _ _ ht =>
    subst ht
    exact hkeep (map_set_eq hcmd rfl) rfl (fun hd _ => ⟨hd, rfl⟩)

lemma Flushed.batch_eq_nil (h : s.Flushed) (hreplying : s.conn.cc.replying = [])
    (htoExecute : s.conn.cc.toExecute = []) : s.conn.cc.serializer.batch = [] := by
  by_contra hbatch
  rcases h.goesOut hbatch with ⟨-, cmd, rest, hlist, -⟩ | ⟨k, hk, -⟩
  · cases htoExecute.symm.trans hlist
  · rw [hreplying] at hk
    cases hk

/-- **No reply stays buffered.** -/
theorem nothing_buffered (es : List LoopEvent) (hes : Run.along step (fun s e => !s.crowds e) {} es)
    (hreplying : (run {} es).conn.cc.replying = []) (htoExecute : (run {} es).conn.cc.toExecute = []) :
    (run {} es).conn.cc.serializer.batch = [] := by
  have hstep : ∀ (s : InputLoop) (e : LoopEvent), s.Flushed → !s.crowds e → (s.step e).Flushed :=
    fun s e hs he => step_flushed hs (by simpa using he)
  have hinv : (run {} es).Flushed := Run.along_run step hstep flushed_init hes
  exact hinv.batch_eq_nil hreplying htoExecute

def apart : List LoopEvent :=
  [.read (text "*2\r\n$3\r\nGET\r\n$1\r\nk\r\n"), .dispatch {}, .dispatch {}, .complete 0 (some (text "v")),
    .reply, .reply,
    .read (text "PING\r\nPING\r\n"), .dispatch {}, .dispatch {}, .dispatch {}, .reply, .reply, .reply]

theorem nothing_buffered_apart : (run {} apart).conn.cc.serializer.sink = text "$1\r\nv\r\n+PONG\r\n+PONG\r\n" ∧
    (run {} apart).conn.cc.serializer.batch = [] := by
  have hend : (run {} apart).conn.cc.serializer.sink = text "$1\r\nv\r\n+PONG\r\n+PONG\r\n" ∧
      (run {} apart).conn.cc.replying = [] ∧ (run {} apart).conn.cc.toExecute = [] := by decide +kernel
  exact ⟨hend.1, nothing_buffered apart (by decide +kernel) hend.2.1 hend.2.2⟩

def together : List LoopEvent :=
  [.read (text "*2\r\n$3\r\nGET\r\n$1\r\nk\r\nPING\r\n"), .dispatch {}, .dispatch {}, .dispatch {},
    .complete 0 (some (text "v")),
    .reply, .reply, .reply]

/-- The reply of the GET is batched because the PING behind it passes for a command with a reply. The PING writes
nothing, the list is empty, and the reply stays in the buffer. -/
theorem stays_buffered :
    (run {} together).conn.cc.replying = [] ∧ (run {} together).conn.cc.toExecute = [] ∧
    (run {} together).conn.cc.serializer.batch = text "$1\r\nv\r\n" := by decide +kernel

end InputLoop

/-! ## The order of replies -/

structure Pipeline where
  loop : InputLoop := {}
  answers : List (List (Option Str) × Option Str) := []

namespace Pipeline

def record (s : InputLoop) (answers : List (List (Option Str) × Option Str)) :
    LoopEvent → List (List (Option Str) × Option Str)
  | .dispatch e =>
    match s.conn.cc.toExecute with
    | [] => answers
    | cmd :: _ =>
      if s.phase = .dispatch ∧ cmd.parseComplete ∧ cmd.runsDebug = false then
        answers ++ [(cmd.tokens, (cmd.dispatchCommand e).2)]
      else answers
  | .complete i value =>
    match s.conn.cc.replying[i]? with
    | none => answers
    | some cmd =>
      if cmd.executeAsync ∧ ¬ cmd.executeDone then
        answers.modify (answers.length - s.conn.cc.replying.length + i)
          (fun a => (a.1, ((value.map Response.bulk).getD .null).reply))
      else answers
  | _ => answers

def step (p : Pipeline) (e : LoopEvent) : Pipeline := ⟨p.loop.step e, record p.loop p.answers e⟩

abbrev run (p : Pipeline) (es : List LoopEvent) : Pipeline := Run.run step p es

def overtakes (p : Pipeline) : LoopEvent → Bool
  | .dispatch e =>
    match p.loop.conn.cc.toExecute with
    | [] => false
    | cmd :: _ =>
      p.loop.phase = .dispatch ∧ cmd.parseComplete ∧ ¬ cmd.deferred e ∧
        p.loop.conn.cc.replying.any ParsedCommand.executeAsync
  | _ => false

/-- The commands in `said` have been answered, and their replies are what has been sent. Those in `later` are the GETs
at the end of the list. -/
structure InOrder (p : Pipeline) (said : List (List (Option Str) × Str)) (later : List (List (Option Str) × Option Str))
    (syncs asyncs : List ParsedCommand) : Prop where
  answers : p.answers = said.map (fun a => (a.1, some a.2)) ++ later
  replying : p.loop.conn.cc.replying = syncs ++ asyncs
  sync : ∀ cmd ∈ syncs, cmd.executeAsync = false
  async : ∀ cmd ∈ asyncs, cmd.executeAsync = true
  later : later.map Prod.snd = asyncs.map (fun cmd => cmd.resp.reply)
  few : syncs.length ≤ said.length
  sent : p.loop.conn.cc.serializer.sent = said.flatMap Prod.snd
  completed : p.answers.map Prod.fst ++ p.loop.conn.cc.ready = p.loop.conn.cc.completed

variable {p : Pipeline} {said : List (List (Option Str) × Str)} {later : List (List (Option Str) × Option Str)}
  {syncs asyncs : List ParsedCommand}

lemma record_skips {s : InputLoop} {e : LoopEvent} (h : s.Skips e) (answers : List (List (Option Str) × Option Str)) :
    record s answers e = answers := by
  cases e with
  | read | reply => rfl
  | dispatch =>
    rw [record]
    split
    · rfl
    · rw [if_neg (fun hp => h hp.1)]
  | complete =>
    rw [record]
    split
    · rfl
    · rename_i cmd hcmd
      rw [if_neg (h cmd hcmd)]

variable {cmd : ParsedCommand} {t : InputLoop} {rest : List ParsedCommand}

def answer (cmd : ParsedCommand) : Bool × Option Str := (cmd.executeAsync, cmd.resp.reply)

lemma InOrder.keep (h : InOrder p said later syncs asyncs)
    (hlist : t.conn.cc.replying.map answer = p.loop.conn.cc.replying.map answer)
    (hser : t.conn.cc.serializer = p.loop.conn.cc.serializer)
    (hcompleted : ∃ more, t.conn.cc.completed = p.loop.conn.cc.completed ++ more ∧
      t.conn.cc.ready = p.loop.conn.cc.ready ++ more) :
    ∃ syncs' asyncs', InOrder ⟨t, p.answers⟩ said later syncs' asyncs' := by
  obtain ⟨more, hc, hr⟩ := hcompleted
  rw [h.replying, map_append] at hlist
  obtain ⟨syncs', asyncs', hnew, hsyncs, hasyncs⟩ := map_eq_append_iff.1 hlist
  have hsame : ∀ {new old : List ParsedCommand} {b : Bool}, new.map answer = old.map answer →
      (∀ cmd ∈ old, cmd.executeAsync = b) → ∀ cmd ∈ new, cmd.executeAsync = b := by
    intro new old b hmap hold cmd hcmd
    obtain ⟨cmd', hcmd', heq⟩ := mem_map.1 (hmap ▸ mem_map_of_mem hcmd)
    exact (congrArg Prod.fst heq).symm.trans (hold cmd' hcmd')
  refine ⟨syncs', asyncs', h.answers, hnew, hsame hsyncs h.sync, hsame hasyncs h.async, ?_, ?_, ?_, ?_⟩
  · have hsnd := congrArg (map Prod.snd) hasyncs
    rw [map_map, map_map] at hsnd
    exact h.later.trans hsnd.symm
  · rw [← length_map answer, hsyncs, length_map]
    exact h.few
  · rw [hser]
    exact h.sent
  · rw [hc, hr, ← append_assoc, h.completed]

lemma InOrder.direct (h : InOrder p said [] syncs []) {cmd cmd' : ParsedCommand} {data : Str}
    {batch : Bool} (hcmd : cmd'.executeAsync = false)
      (hreplying : t.conn.cc.replying = p.loop.conn.cc.replying ++ [cmd'])
      (hser : t.conn.cc.serializer = p.loop.conn.cc.serializer.sendReply batch (some data))
    (hready : p.loop.conn.cc.ready = cmd.tokens :: t.conn.cc.ready)
    (hcompleted : t.conn.cc.completed = p.loop.conn.cc.completed) :
    InOrder ⟨t, p.answers ++ [(cmd.tokens, some data)]⟩ (said ++ [(cmd.tokens, data)]) [] (syncs ++ [cmd']) [] where
  answers := by
    rw [h.answers]
    simp
  replying := by
    rw [hreplying, h.replying]
    simp
  sync := by
    intro c hc
    rcases mem_append.1 hc with hc | hc
    · exact h.sync c hc
    · rw [mem_singleton.1 hc]
      exact hcmd
  async := by simp
  later := rfl
  few := by
    have := h.few
    simp only [length_append, length_singleton]
    omega
  sent := by
    rw [hser, BaseSerializer.sent_sendReply, h.sent]
    simp
  completed := by
    rw [hcompleted, ← h.completed, hready]
    simp

lemma InOrder.deferred (h : InOrder p said later syncs asyncs) {cmd cmd' : ParsedCommand}
    {batch : Bool} (hcmd : cmd'.executeAsync = true) (hresp : cmd'.resp = .monostate)
    (hreplying : t.conn.cc.replying = p.loop.conn.cc.replying ++ [cmd'])
    (hser : t.conn.cc.serializer = p.loop.conn.cc.serializer.sendReply batch none)
    (hready : p.loop.conn.cc.ready = cmd.tokens :: t.conn.cc.ready)
    (hcompleted : t.conn.cc.completed = p.loop.conn.cc.completed) :
    InOrder ⟨t, p.answers ++ [(cmd.tokens, none)]⟩ said (later ++ [(cmd.tokens, none)]) syncs (asyncs ++ [cmd']) where
  answers := by
    rw [h.answers, append_assoc]
  replying := by
    rw [hreplying, h.replying, append_assoc]
  sync := h.sync
  async := by
    intro c hc
    rcases mem_append.1 hc with hc | hc
    · exact h.async c hc
    · rw [mem_singleton.1 hc]
      exact hcmd
  later := by
    rw [map_append, h.later]
    simp [hresp, Response.reply]
  few := h.few
  sent := by
    rw [hser, BaseSerializer.sent_sendReply, h.sent]
    simp
  completed := by
    rw [hcompleted, ← h.completed, hready]
    simp

lemma InOrder.leave (h : InOrder p said later syncs asyncs) {batch : Bool} (hcmd : Answering cmd)
    (hcan : (cmd.checkIfCanReply false).1)
    (hlist : p.loop.conn.cc.replying = cmd :: rest) (hreplying : t.conn.cc.replying = rest)
    (hser : t.conn.cc.serializer = p.loop.conn.cc.serializer.sendReply batch cmd.resp.reply)
    (hready : t.conn.cc.ready = p.loop.conn.cc.ready) (hcompleted : t.conn.cc.completed = p.loop.conn.cc.completed) :
    ∃ said' later' syncs' asyncs', InOrder ⟨t, p.answers⟩ said' later' syncs' asyncs' := by
  have hdone : p.answers.map Prod.fst ++ t.conn.cc.ready = t.conn.cc.completed := by
    rw [hready, hcompleted, h.completed]
  have hsplit := h.replying
  rw [hlist] at hsplit
  cases syncs with
  | cons _ syncs =>
    obtain ⟨rfl, rfl⟩ := cons.inj hsplit
    have hsync := h.sync cmd (mem_cons_self ..)
    have hfew := h.few
    rw [length_cons] at hfew
    refine ⟨said, later, syncs, asyncs, h.answers, hreplying, fun c hc => h.sync c (mem_cons_of_mem _ hc), h.async,
      h.later, by omega, ?_, hdone⟩
    rw [hser, hcmd.direct hsync, BaseSerializer.sent_sendReply, h.sent]
    simp [Response.reply]
  | nil =>
    subst hsplit
    obtain ⟨data, hdata⟩ := hcmd.reply (h.async cmd (mem_cons_self ..)) hcan
    have hlater := h.later
    rw [map_cons, hdata] at hlater
    obtain ⟨first, later, rfl, hfirst, hmore⟩ := map_eq_cons_iff.1 hlater
    obtain ⟨tokens, reply⟩ := first
    obtain rfl : reply = some data := hfirst
    refine ⟨said ++ [(tokens, data)], later, [], rest, ?_, hreplying, by simp,
      fun c hc => h.async c (mem_cons_of_mem _ hc), hmore, by simp, ?_, hdone⟩
    · rw [h.answers]
      simp
    · rw [hser, hdata, BaseSerializer.sent_sendReply, h.sent]
      simp

lemma modify_append_cons {α : Type} (l1 l2 : List α) (a : α) (f : α → α) :
    (l1 ++ a :: l2).modify l1.length f = l1 ++ f a :: l2 := by
  induction l1 with
  | nil => rfl
  | cons _ _ ih => simpa using ih

lemma set_append_cons {α : Type} (l1 l2 : List α) (a b : α) : (l1 ++ a :: l2).set l1.length b = l1 ++ b :: l2 := by
  rw [set_append_right _ _ le_rfl, Nat.sub_self, set_cons_zero]

lemma InOrder.place (h : InOrder p said later syncs asyncs) {i : ℕ}
    (hcmd : p.loop.conn.cc.replying[i]? = some cmd) (hasync : cmd.executeAsync) :
    ∃ asyncs1 asyncs2 later1 later2 answer, asyncs = asyncs1 ++ cmd :: asyncs2 ∧ later = later1 ++ answer :: later2 ∧
      later1.map Prod.snd = asyncs1.map (fun cmd => cmd.resp.reply) ∧
      later2.map Prod.snd = asyncs2.map (fun cmd => cmd.resp.reply) ∧ i = syncs.length + asyncs1.length := by
  rw [h.replying] at hcmd
  have hge : syncs.length ≤ i := by
    by_contra hlt
    rw [getElem?_append_left (by omega)] at hcmd
    have := h.sync cmd (mem_of_getElem? hcmd)
    cases hasync.symm.trans this
  rw [getElem?_append_right hge] at hcmd
  obtain ⟨hi, hget⟩ := List.getElem?_eq_some_iff.1 hcmd
  have hsplit : asyncs = asyncs.take (i - syncs.length) ++ cmd :: asyncs.drop (i - syncs.length + 1) := by
    rw [← hget, getElem_cons_drop, take_append_drop]
  have hlater := h.later
  rw [hsplit, map_append] at hlater
  obtain ⟨later1, more, rfl, hone, hmore⟩ := map_eq_append_iff.1 hlater
  obtain ⟨answer, later2, rfl, -, htwo⟩ := map_eq_cons_iff.1 hmore
  refine ⟨_, _, later1, later2, answer, hsplit, rfl, hone, htwo, ?_⟩
  rw [length_take]
  omega

lemma InOrder.complete (h : InOrder p said later syncs asyncs) {i : ℕ} {value : Option Str}
    (hcmd : p.loop.conn.cc.replying[i]? = some cmd) (hasync : cmd.executeAsync)
    (hdone : cmd.executeDone = false) (hreplying : t.conn.cc.replying = p.loop.conn.cc.replying.set i
      { cmd with resp := (value.map Response.bulk).getD .null, executeDone := true })
    (hser : t.conn.cc.serializer = p.loop.conn.cc.serializer)
    (hready : t.conn.cc.ready = p.loop.conn.cc.ready) (hcompleted : t.conn.cc.completed = p.loop.conn.cc.completed) :
    ∃ later' asyncs', InOrder ⟨t, record p.loop p.answers (.complete i value)⟩ said later' syncs asyncs' := by
  obtain ⟨asyncs1, asyncs2, later1, later2, answer, rfl, rfl, hone, htwo, rfl⟩ := h.place hcmd hasync
  set reply := ((value.map Response.bulk).getD .null).reply with hreply
  have hlen1 : later1.length = asyncs1.length := by simpa using congrArg length hone
  have hlen2 : later2.length = asyncs2.length := by simpa using congrArg length htwo
  have hfew := h.few
  have hrecord : record p.loop p.answers (.complete (syncs.length + asyncs1.length) value) =
      said.map (fun a => (a.1, some a.2)) ++ (later1 ++ (answer.1, reply) :: later2) := by
    have hindex : p.answers.length - p.loop.conn.cc.replying.length + (syncs.length + asyncs1.length) =
        (said.map (fun a => (a.1, some a.2)) ++ later1).length := by
      rw [h.answers, h.replying]
      simp only [length_append, length_map, length_cons]
      omega
    rw [record, hcmd]
    dsimp only
    rw [if_pos ⟨hasync, by simp [hdone]⟩, hindex, h.answers, ← append_assoc, modify_append_cons, append_assoc]
  refine ⟨later1 ++ (answer.1, reply) :: later2, asyncs1 ++ { cmd with
    resp := (value.map Response.bulk).getD .null, executeDone := true } :: asyncs2, ?_, ?_, h.sync, ?_, ?_, h.few, ?_,
      ?_⟩
  · exact hrecord
  · rw [hreplying, h.replying, ← append_assoc, ← length_append, set_append_cons, append_assoc]
  · intro c hc
    rcases mem_append.1 hc with hc | hc
    · exact h.async c (mem_append_left _ hc)
    · rcases mem_cons.1 hc with rfl | hc
      · exact hasync
      · exact h.async c (mem_append_right _ (mem_cons_of_mem _ hc))
  · rw [map_append, map_cons, map_append, map_cons, hone, htwo]
  · rw [hser]
    exact h.sent
  · rw [hrecord, hready, hcompleted, ← h.completed, h.answers]
    simp

structure Sound (p : Pipeline) : Prop where
  flushed : p.loop.Flushed
  inOrder : ∃ said later syncs asyncs, InOrder p said later syncs asyncs

lemma sound_init : Sound {} :=
  ⟨InputLoop.flushed_init, [], [], [], [], rfl, rfl, by simp, by simp, rfl, le_rfl, rfl, rfl⟩

lemma overtakes_of_crowds {e : LoopEvent} (h : p.loop.crowds e = true) : p.overtakes e = true := by
  cases e with
  | dispatch =>
    unfold InputLoop.crowds at h
    unfold overtakes
    cases hlist : p.loop.conn.cc.toExecute with
    | nil =>
      rw [hlist] at h
      cases h
    | cons =>
      rw [hlist] at h
      obtain ⟨hs, hcomplete, -, hdef, hlast⟩ := of_decide_eq_true h
      have hany : p.loop.conn.cc.replying.any ParsedCommand.executeAsync = true := by
        obtain ⟨c, hc, hasync⟩ := (Option.any_eq_true _ _).1 hlast
        exact any_eq_true.2 ⟨c, mem_of_getLast? hc, hasync⟩
      simp [hs, hcomplete, hdef, hany]
  | _ => cases h

lemma ready_cons {cc cc' : ConnectionContext}
    (hlist : cc.toExecute = cmd :: rest) (hcomplete : cmd.parseComplete) (hrest : cc'.toExecute = rest) :
    cc.ready = cmd.tokens :: cc'.ready := by
  unfold ConnectionContext.ready
  rw [hlist, hrest, filter_cons_of_pos hcomplete, map_cons]

lemma InOrder.dispatch (h : InOrder p said later syncs asyncs) (hwf : p.loop.conn.WellFormed) {e : Engine}
    (he : p.overtakes (.dispatch e) = false)
    (hs : p.loop.phase = .dispatch) (hlist : p.loop.conn.cc.toExecute = cmd :: rest) (hcomplete : cmd.parseComplete)
    (hserved : cmd.runsDebug = false)
    (hreplying : t.conn.cc.replying = p.loop.conn.cc.replying ++ [(cmd.dispatchCommand e).1])
    (hrest : t.conn.cc.toExecute = rest) {batch : Bool}
    (hser : t.conn.cc.serializer = p.loop.conn.cc.serializer.sendReply batch (cmd.dispatchCommand e).2)
    (hcompleted : t.conn.cc.completed = p.loop.conn.cc.completed) :
    ∃ said' later' syncs' asyncs', InOrder ⟨t, record p.loop p.answers (.dispatch e)⟩ said' later' syncs' asyncs' := by
  have hfresh : Connection.Fresh cmd := hwf.fresh cmd (by rw [hlist]; exact mem_cons_self ..)
  obtain ⟨-, hresp, -, hasync, -⟩ := dispatchCommand_spec cmd e
  have hready := ready_cons hlist hcomplete hrest
  have hrecord : record p.loop p.answers (.dispatch e) = p.answers ++ [(cmd.tokens, (cmd.dispatchCommand e).2)] := by
    rw [record, hlist]
    dsimp only
    rw [if_pos ⟨hs, hcomplete, hserved⟩]
  rw [hrecord]
  cases hreply : (cmd.dispatchCommand e).2 with
  | none =>
    rw [hreply] at hser
    exact ⟨said, _, syncs, _, h.deferred ((hasync hfresh.sync).2 hreply) (hresp.trans hfresh.resp) hreplying hser hready
      hcompleted⟩
  | some =>
    rw [hreply] at hser
    -- it is answered now, so no GET waits
    have hsome : (cmd.dispatchCommand e).2 ≠ none := by simp [hreply]
    have hdirect : (cmd.dispatchCommand e).1.executeAsync = false :=
      Bool.eq_false_iff.2 (fun hcase => hsome ((hasync hfresh.sync).1 hcase))
    have hdef : cmd.deferred e = false :=
      Bool.eq_false_iff.2 (fun hcase => hsome ((dispatchCommand_deferred cmd e).2 hcase))
    have hnone : asyncs = [] := by
      cases asyncs with
      | nil => rfl
      | cons get =>
        have hany : p.loop.conn.cc.replying.any ParsedCommand.executeAsync = true := by
          rw [h.replying]
          simp [h.async get (mem_cons_self ..)]
        unfold overtakes at he
        rw [hlist] at he
        simp [hs, hcomplete, hdef, hany] at he
    subst hnone
    obtain rfl : later = [] := map_eq_nil_iff.1 h.later
    exact ⟨_, [], _, [], h.direct hdirect hreplying hser hready hcompleted⟩

theorem step_sound (h : p.Sound) {e : LoopEvent} (he : p.overtakes e = false) : (p.step e).Sound := by
  have hcrowds : p.loop.crowds e = false :=
    Bool.eq_false_iff.2 (fun hc => Bool.eq_false_iff.1 he (overtakes_of_crowds hc))
  refine ⟨InputLoop.step_flushed h.flushed hcrowds, ?_⟩
  obtain ⟨said, later, syncs, asyncs, hin⟩ := h.inOrder
  have hstep := (InputLoop.step_spec h.flushed.wellFormed e).1
  unfold step
  generalize p.loop.step e = t at hstep
  cases hstep with
  | idle _ ht hskip =>
    rw [ht, record_skips hskip]
    exact ⟨said, later, syncs, asyncs, hin⟩
  | read _ _ hframe =>
    exact ⟨said, later, hin.keep (by rw [hframe.replying]) hframe.serializer hframe.completed⟩
  | dispatchEnd e _ ht hend =>
    have hrecord : record p.loop p.answers (.dispatch e) = p.answers := by
      rw [record]
      split
      · rfl
      · rename_i cmd rest hlist
        rw [if_neg (fun hp => by rw [hend cmd rest hlist] at hp; cases hp.2.1)]
    rw [hrecord]
    subst ht
    exact ⟨said, later, hin.keep rfl rfl ⟨[], by simp, by simp⟩⟩
  | crash e cmd rest _ hlist _ hdebug ht =>
    have hrecord : record p.loop p.answers (.dispatch e) = p.answers := by
      rw [record, hlist]
      exact if_neg (fun hp => by rw [hdebug] at hp; cases hp.2.2)
    rw [hrecord]
    subst ht
    exact ⟨said, later, hin.keep rfl rfl ⟨[], by simp, by simp⟩⟩
  | dispatchOne _ _ _ hs hlist hcomplete hserved ht =>
    subst ht
    exact hin.dispatch h.flushed.wellFormed he hs hlist hcomplete hserved rfl rfl rfl rfl
  | replyOne cmd _ _ hlist hcan ht =>
    subst ht
    have hcmd : Answering cmd := h.flushed.answering cmd (by rw [hlist]; exact mem_cons_self ..)
    exact hin.leave hcmd hcan hlist rfl rfl rfl rfl
  | replyEnd _ _ hlist ht =>
    subst ht
    refine ⟨said, later, hin.keep ?_ rfl ⟨[], (append_nil _).symm, (append_nil _).symm⟩⟩
    rcases hlist with rfl | ⟨cmd, rest, hold, rfl⟩
    · rfl
    · rw [hold]
      rfl
  | complete _ _ _ hcmd hasync hdone ht =>
    have hready : t.conn.cc.ready = p.loop.conn.cc.ready := by rw [ht]; rfl
    obtain ⟨later', asyncs', hin'⟩ := hin.complete hcmd hasync hdone (by rw [ht]) (by rw [ht]) hready (by rw [ht])
    exact ⟨said, later', syncs, asyncs', hin'⟩

/-! ## Whole pipelines -/

def Settled (p : Pipeline) : Prop :=
  ∃ said : List (List (Option Str) × Str), p.answers = said.map (fun a => (a.1, some a.2)) ∧
    said.map Prod.fst = p.loop.conn.cc.completed ∧ p.loop.conn.cc.serializer.sink = said.flatMap Prod.snd

lemma Sound.settled (h : p.Sound) (hreplying : p.loop.conn.cc.replying = [])
    (htoExecute : p.loop.conn.cc.toExecute = []) : p.Settled := by
  obtain ⟨said, later, syncs, asyncs, hin⟩ := h.inOrder
  have hnil := hin.replying
  rw [hreplying] at hnil
  obtain ⟨rfl, rfl⟩ := append_eq_nil_iff.1 hnil.symm
  obtain rfl : later = [] := map_eq_nil_iff.1 hin.later
  have hanswers : p.answers = said.map (fun a => (a.1, some a.2)) := by
    rw [hin.answers, append_nil]
  refine ⟨said, hanswers, ?_, ?_⟩
  · rw [← hin.completed, hanswers, ConnectionContext.ready, htoExecute]
    simp
  · rw [← hin.sent, BaseSerializer.sent, h.flushed.batch_eq_nil hreplying htoExecute, append_nil]

lemma run_reply {replying : List ParsedCommand} (hlist : p.loop.conn.cc.replying = replying)
    (hphase : p.loop.phase = .reply) (hcan : ∀ cmd ∈ replying, (cmd.checkIfCanReply false).1) :
    (p.run (replicate replying.length .reply)).loop.conn.cc.replying = [] ∧
    (p.run (replicate replying.length .reply)).loop.conn.cc.toExecute = p.loop.conn.cc.toExecute := by
  induction replying generalizing p with
  | nil => exact ⟨hlist, rfl⟩
  | cons cmd rest ih =>
    have hcmd : cmd.checkIfCanReply false = (true, cmd) := by
      have hfst := hcan cmd (mem_cons_self ..)
      rcases cmd.checkIfCanReply_cases false with hc | hc | hc
      · exact hc
      · rw [hc] at hfst
        cases hfst
      · rw [hc] at hfst
        cases hfst
    have hnext : (p.step .reply).loop.conn.cc.replying = rest ∧ (p.step .reply).loop.phase = .reply ∧
        (p.step .reply).loop.conn.cc.toExecute = p.loop.conn.cc.toExecute := by
      unfold step
      rw [InputLoop.step, if_pos hphase, InputLoop.reply, ConnectionContext.replyReadyCommand, hlist]
      dsimp only
      rw [hcmd]
      exact ⟨rfl, rfl, rfl⟩
    obtain ⟨h1, h2⟩ := ih hnext.1 hnext.2.1 (fun c hc => hcan c (mem_cons_of_mem _ hc))
    exact ⟨h1, h2.trans hnext.2.2⟩

lemma run_sound {es : List LoopEvent} (h : p.Sound) (hes : Run.along step (fun p e => !p.overtakes e) p es) :
    (p.run es).Sound := by
  have hstep : ∀ (p : Pipeline) (e : LoopEvent), p.Sound → !p.overtakes e → (p.step e).Sound :=
    fun p e hp he => step_sound hp (by simpa using he)
  exact Run.along_run step hstep h hes

/-- **Replies come back in the order of the commands**, as long as no command is answered at dispatch while a GET before
it is still in the list. -/
theorem replies_in_order (es : List LoopEvent) (hes : Run.along step (fun p e => !p.overtakes e) {} es) :
    (∃ (said : List (List (Option Str) × Str)) (later : List (List (Option Str) × Option Str)),
      (run {} es).answers = said.map (fun a => (a.1, some a.2)) ++ later ∧
      (run {} es).loop.conn.cc.serializer.sent = said.flatMap Prod.snd) ∧
    ((run {} es).loop.conn.cc.replying = [] → (run {} es).loop.conn.cc.toExecute = [] → (run {} es).Settled) ∧
    ((run {} es).loop.phase = .reply → (run {} es).loop.conn.cc.toExecute = [] →
      (∀ cmd ∈ (run {} es).loop.conn.cc.replying, cmd.executeAsync → cmd.executeDone) →
      ((run {} es).run (replicate (run {} es).loop.conn.cc.replying.length .reply)).Settled) := by
  have hsound : (run {} es).Sound := run_sound sound_init hes
  refine ⟨?_, hsound.settled, ?_⟩
  · obtain ⟨said, later, syncs, asyncs, hin⟩ := hsound.inOrder
    exact ⟨said, later, hin.answers, hin.sent⟩
  · intro hphase htoExecute hdone
    have hcan : ∀ cmd ∈ (run {} es).loop.conn.cc.replying, (cmd.checkIfCanReply false).1 := by
      intro cmd hcmd
      rw [ParsedCommand.checkIfCanReply_fst, (hsound.flushed.answering cmd hcmd).complete]
      cases hasync : cmd.executeAsync with
      | false => rfl
      | true => simp [hdone cmd hcmd hasync]
    obtain ⟨h1, h2⟩ := run_reply rfl hphase hcan
    have hreplies : Run.along step (fun p e => !p.overtakes e) (run {} es)
        (replicate (run {} es).loop.conn.cc.replying.length .reply) := by
      generalize (run {} es).loop.conn.cc.replying.length = n
      generalize run {} es = q
      induction n generalizing q with
      | zero => rfl
      | succ _ ih => exact ih (q.step .reply)
    exact (run_sound hsound hreplies).settled h1 (h2.trans htoExecute)

theorem replies_in_order_apart : (run {} InputLoop.apart).Settled ∧
    (run {} InputLoop.apart).answers.map Prod.snd =
      [some (text "$1\r\nv\r\n"), some (text "+PONG\r\n"), some (text "+PONG\r\n")] := by
  have hend : (run {} InputLoop.apart).loop.conn.cc.replying = [] ∧
    (run {} InputLoop.apart).loop.conn.cc.toExecute = [] ∧
      (run {} InputLoop.apart).answers.map Prod.snd =
        [some (text "$1\r\nv\r\n"), some (text "+PONG\r\n"), some (text "+PONG\r\n")] := by decide +kernel
  exact ⟨(replies_in_order InputLoop.apart (by decide +kernel)).2.1 hend.1 hend.2.1, hend.2.2⟩

/-- The PING behind the GET is answered first, and its reply is on the socket alone. -/
theorem overtaken :
    (run {} InputLoop.together).answers.map Prod.snd = [some (text "$1\r\nv\r\n"), some (text "+PONG\r\n")] ∧
    (run {} InputLoop.together).loop.conn.cc.serializer.sink = text "+PONG\r\n" := by decide +kernel

end Pipeline

end MaxRedis.Service

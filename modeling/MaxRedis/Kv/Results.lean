/-
What a client is told, against what the store answered.

The cluster runs with the texts of commands as its commands, and what a node has applied is the list of its state
machine.
-/
import MaxRedis.Kv.StateMachine
import MaxRedis.Raft.GroupBatches

namespace MaxRedis.Kv

open Raft Raft.Cluster

/-! ## One row -/

def KvCommand.One (st : Store) (now : UInt64) : KvCommand → Prop
  | .malformed => False
  | .set key _ o => (o.nx → alive now (st key) = none) ∧ (o.xx → alive now (st key) ≠ none)
  | .del keys => (keys.toFinset.filter (fun k => (st k).isSome)).card = 1
  | .expire key _ => (st key).isSome

lemma Store.delAll_snd (st : Store) (deleted : ℕ) (keys : List Str) :
    (st.delAll deleted keys).2 = deleted + (keys.toFinset.filter (fun k => (st k).isSome)).card := by
  induction keys generalizing st deleted with
  | nil => simp [Store.delAll]
  | cons key keys ih =>
    set held := keys.toFinset.filter (fun k => (st k).isSome) with hheld
    have hrest : keys.toFinset.filter (fun k => (Function.update st key none k).isSome) = held.erase key := by
      ext k
      by_cases hk : k = key
      · simp [hk]
      · simp [hk, hheld]
    rw [Store.delAll, ih, hrest, List.toFinset_cons, Finset.filter_insert]
    split_ifs with hsome
    · rw [Finset.card_insert_eq_ite]
      split_ifs with hmem
      · have hpos := Finset.card_pos.2 ⟨key, hmem⟩
        rw [Finset.card_erase_of_mem hmem]
        omega
      · rw [Finset.erase_eq_of_notMem hmem]
        omega
    · have hmem : key ∉ held := by simp [hheld, hsome]
      rw [Finset.erase_eq_of_notMem hmem]

lemma Store.apply_one [Platform] {st : Store} {now : UInt64} {c : KvCommand} (h : c.One st now) :
    (Store.apply st now c).2 = ⟨.ok, 1⟩ := by
  cases c with
  | malformed => exact h.elim
  | set key val o =>
    obtain ⟨hnx, hxx⟩ := h
    have happlied : ((ShardTask.set now key val o.nx o.xx (expireAt now o.ttlMs)).cell (st key)).2 = true := by
      simp only [ShardTask.set]
      rw [if_neg, if_neg]
      · rintro ⟨hx, hnone⟩
        exact hxx hx (Option.isNone_iff_eq_none.1 hnone)
      · rintro ⟨hn, hsome⟩
        rw [hnx hn] at hsome
        cases hsome
    exact congrArg rows happlied
  | del keys =>
    have hone : (st.delAll 0 keys).2 = 1 := by
      rw [Store.delAll_snd, Nat.zero_add]
      exact h
    show (⟨.ok, (st.delAll 0 keys).2 % 2 ^ 32⟩ : ApplyResult) = ⟨.ok, 1⟩
    rw [hone]
    rfl
  | expire => exact congrArg rows h

/-! ## What was applied -/

def entryText {N : Type} (e : LogEntry N Str) : Str :=
  match e.command with
  | .client text => text
  | _ => []

section Applied
variable [Platform] {N : Type} (n : ℕ) [NeZero n] (time : ℕ → UInt64)

/-- the store after a list of entries; the entry at place `i` is applied at `time i` -/
def replay (es : List (LogEntry N Str)) : KvStateMachine n :=
  (es.zipIdx).foldl (fun s e => (s.applyLogEntry (time e.2) (entryText e.1)).1) .empty

def resultAt (es : List (LogEntry N Str)) (p : ℕ) : Option ApplyResult :=
  (es[p]?).map (fun e => ((replay n time (es.take p)).applyLogEntry (time p) (entryText e)).2)

end Applied

/-- **The client sees the result of its own command.** -/
theorem submit_returns_result [Platform] {N L : Type} [DecidableEq N] [LogStorage N Str L]
    (config : N → ClusterConfig N) (as : List (Action N Str L)) (hok : along inTime (init config) as = true) {k : ℕ}
    {f : Fiber N Str} {w : RaftWaiter N Str} {r : ApplyResult}
      (hk : (run (init config : Cluster N Str L) as).fibers[k]? = some f) (hw : f.waiter = some w)
      (hret : f.pc = .returned (.submitted r)) (n : ℕ) [NeZero n] (time : ℕ → UInt64) (p : ℕ)
    (happlied : ((run (init config) as).nodes f.owner).stateMachine[p]? = some w.entry)
    (hone : (parseCommand (entryText w.entry)).One
      (replay n time (((run (init config) as).nodes f.owner).stateMachine.take p)).lookup (time p)) :
    resultAt n time ((run (init config) as).nodes f.owner).stateMachine p = some r := by
  have hr : r = ⟨.ok, 1⟩ := submit_answers_ok config as hok hk hw hret
  unfold resultAt
  rw [happlied, Option.map_some, ((replay n time _).applyLogEntry_refines _ _).2, Store.apply_one hone, hr]

def submitAlone (text : Str) : List (Action Unit Str (CommandLog Unit Str)) :=
  [.call () .bootstrapSingleNode, .call () (.submitEntry (.client text)), .advance 0, .advance 0, .advance 0,
    .advance 0, .advance 0, .advance 0, .advance 0, .advance 0]

theorem submit_returns_result_alone :
    let s := run (init (fun _ => {})) (submitAlone (setText 'k' 'v' []))
    (s.fibers[0]?).map Fiber.pc = some (.returned (.submitted ⟨.ok, 1⟩)) ∧
    resultAt 1 (fun _ => 1000) (s.nodes ()).stateMachine 0 = some ⟨.ok, 1⟩ := by
  intro s
  have hok : along inTime (init (fun _ => {})) (submitAlone (setText 'k' 'v' [])) = true := by decide +kernel
  have hk : s.fibers[0]? = some ⟨(), .returned (.submitted ⟨.ok, 1⟩), none,
      some ⟨1, ⟨1, 1, .client (setText 'k' 'v' [])⟩, some ⟨.ok, 1⟩⟩⟩ := by decide +kernel
  have happlied : (s.nodes ()).stateMachine[0]? = some ⟨1, 1, .client (setText 'k' 'v' [])⟩ := by decide +kernel
  have hparse : parseCommand (setText 'k' 'v' []) = .set (ascii ['k']) (ascii ['v']) {} := by decide +kernel
  have hone : (parseCommand (setText 'k' 'v' [])).One
    (replay 1 (fun _ => 1000) ((s.nodes ()).stateMachine.take 0)).lookup 1000 := by
    exact ⟨nofun, nofun⟩
  refine ⟨by rw [hk]; rfl, ?_⟩
  exact submit_returns_result (fun _ => {}) (submitAlone (setText 'k' 'v' [])) hok hk rfl rfl 1
    (fun _ => 1000) 0 happlied hone

/-- the call of node 0 goes through its 16 rounds, in which nothing is sent; then a `ReplicateLog` call and a read
commit the entry and apply it -/
def submitLate : List (Action (Fin 2) Str (CommandLog (Fin 2) Str)) :=
  let submit : List (Action (Fin 2) Str (CommandLog (Fin 2) Str)) :=
    [.call 0 .startElection, .advance 0, .deliver 0, .recv 0, .advance 0,
      .call 0 (.submitEntry (.client (setText 'k' 'v' []))), .advance 1, .advance 1]
  let late : List (Action (Fin 2) Str (CommandLog (Fin 2) Str)) :=
    [.call 0 (.replicateLog false), .advance 2, .advance 2, .deliver 2, .recv 2, .advance 2,
      .call 0 .readIndex, .advance 3, .deliver 3, .recv 3, .advance 3, .advance 3]
  submit ++ List.replicate 67 (.advance 1) ++ late

/-- **Other results.** -/
theorem submit_result_differs :
    let del := encodeRespArray [ascii ['D', 'E', 'L'], ascii ['k']]
    let s := run (init (fun _ => {})) (submitAlone del)
    let t := run (init (othersConfig 2)) submitLate
    ((s.fibers[0]?).map Fiber.pc = some (.returned (.submitted ⟨.ok, 1⟩)) ∧
      (s.nodes ()).stateMachine = [⟨1, 1, .client del⟩] ∧
      resultAt 1 (fun _ => 1000) (s.nodes ()).stateMachine 0 = some ⟨.ok, 0⟩) ∧
    ((t.fibers[1]?).map Fiber.pc = some (.returned (.submitted ⟨.error, 0⟩)) ∧
      (t.nodes 0).stateMachine = [⟨1, 1, .client (setText 'k' 'v' [])⟩] ∧
      resultAt 1 (fun _ => 1000) (t.nodes 0).stateMachine 0 = some ⟨.ok, 1⟩) := by
  decide +kernel

end MaxRedis.Kv

/-
State Machine Safety, and what AppendEntries does to committed entries.
-/
import MaxRedis.Raft.Decisions

namespace MaxRedis.Raft.Cluster

open LogStorage LawfulLog RaftNode TermLog

variable {N C L : Type} [DecidableEq N] [LogStorage N C L] [LawfulLog N C L] [Fintype N]
variable {h h' : History N C} {s s' : Cluster N C L} {a : Action N C L}

lemma applied_decided (rep : CommitRep h s) {n : N} {e : LogEntry N C} (he : e ∈ (s.nodes n).stateMachine) :
    ∃ p i, Decided h (s.nodes n).term p ∧ p[i]? = some e ∧ e.index = i + 1 := by
  have hk := rep.nodes n
  rw [hk.sm] at he
  obtain ⟨i, hi, rfl⟩ := List.getElem_of_mem he
  refine ⟨_, i, hk.decided.of_le (List.take_prefix_take_left hk.le), List.getElem?_eq_getElem hi, ?_⟩
  apply index_eq _ (rep.ack.log.nodes n).plain.whole
  rw [List.getElem_take]
  exact List.getElem?_eq_getElem _

/-- **State Machine Safety.** -/
theorem state_machine_safety (config : N → ClusterConfig N) (hc : ∀ n m, m ∈ (config n).voters.ids ↔ m ≠ n)
    (as bs : List (Action N C L)) (ha : ∀ a ∈ as ++ bs, a.Steady) (hs : along decisionSound (init config) (as ++ bs))
    (n m : N) (e f : LogEntry N C) (he : e ∈ ((run (init config) as).nodes n).stateMachine)
    (hf : f ∈ ((run (init config) (as ++ bs)).nodes m).stateMachine) (hi : e.index = f.index) : e = f := by
  rw [along_append, Bool.and_eq_true] at hs
  obtain ⟨h1, -, rep1⟩ :=
    commit_run as (fun x hx => ha x (List.mem_append_left _ hx)) hs.1 (commitRep_init (L := L) config hc)
  obtain ⟨h2, p2, rep2⟩ := commit_run bs (fun x hx => ha x (List.mem_append_right _ hx)) hs.2 rep1
  rw [run_append] at hf
  obtain ⟨p, i, hdp, hpi, hei⟩ := applied_decided rep1 he
  obtain ⟨r, j, hdr, hrj, hfj⟩ := applied_decided rep2 hf
  obtain rfl : i = j := by omega
  -- both lists are decided in the later history, so one is the beginning of the other
  have hdp' := p2.decided trivial rep1.ack.log.base rep1.ack.safe hdp
  rcases decided_comparable rep2.ack.log.base rep2.ack.safe hdp' hdr with ⟨t, rfl⟩ | ⟨t, rfl⟩
  · rw [List.getElem?_append_left (List.getElem?_eq_some_iff.1 hpi).1, hpi] at hrj
    exact Option.some.inj hrj
  · rw [List.getElem?_append_left (List.getElem?_eq_some_iff.1 hrj).1, hrj] at hpi
    exact (Option.some.inj hpi).symm

def applyOne : List (Action (Fin 3) ℕ (CommandLog (Fin 3) ℕ)) :=
  replicateOne ++ ([.recv 1, .advance 1, .advance 1, .call 0 (.heartbeatTick false), .advance 2, .deliver 2] : Steps3)

theorem state_machine_safety_applyOne :
    let s := run (init (othersConfig 3)) applyOne
    (s.nodes 0).stateMachine = [⟨1, 1, .client 10⟩] ∧ (s.nodes 1).stateMachine = [⟨1, 1, .client 10⟩] ∧
    (⟨1, 1, .client 10⟩ : LogEntry (Fin 3) ℕ) = ⟨1, 1, .client 10⟩ :=
  ⟨by decide +kernel, by decide +kernel,
    state_machine_safety (othersConfig 3) (by decide) applyOne []
      (by simp [applyOne, replicateOne, electZero, Action.Steady, Command.isClient]) (by decide +kernel) 0 1 _ _
      (by decide +kernel) (by decide +kernel) rfl⟩

/-- **Leader Completeness.** -/
theorem leader_completeness (config : N → ClusterConfig N) (hc : ∀ n m, m ∈ (config n).voters.ids ↔ m ≠ n)
    (as bs : List (Action N C L)) (ha : ∀ a ∈ as ++ bs, a.Steady) (hs : along decisionSound (init config) (as ++ bs))
    (n m : N) (hm : ((run (init config) (as ++ bs)).nodes m).role = .leader)
    (ht : ((run (init config) as).nodes n).term ≤ ((run (init config) (as ++ bs)).nodes m).term) :
    (entries ((run (init config) as).nodes n).log).take ((run (init config) as).nodes n).commitIndex <+:
      entries ((run (init config) (as ++ bs)).nodes m).log := by
  rw [along_append, Bool.and_eq_true] at hs
  obtain ⟨h1, -, rep1⟩ :=
    commit_run as (fun x hx => ha x (List.mem_append_left _ hx)) hs.1 (commitRep_init (L := L) config hc)
  obtain ⟨h2, p2, rep2⟩ := commit_run bs (fun x hx => ha x (List.mem_append_right _ hx)) hs.2 rep1
  rw [run_append] at hm ht ⊢
  have hdecided := p2.decided trivial rep1.ack.log.base rep1.ack.safe (rep1.nodes n).decided
  have r := rep2.ack.log.nodes m
  rw [← r.log]
  exact decided_held rep2.ack.safe hdecided ht (r.lead hm)

theorem leader_completeness_applyOne :
    let s := run (init (othersConfig 3)) applyOne
    (s.nodes 1).commitIndex = 1 ∧ (entries (s.nodes 1).log).take (s.nodes 1).commitIndex <+: entries (s.nodes 0).log :=
  ⟨by decide +kernel,
    leader_completeness (othersConfig 3) (by decide) applyOne []
      (by simp [applyOne, replicateOne, electZero, Action.Steady, Command.isClient]) (by decide +kernel) 1 0
      (by decide +kernel) (by decide +kernel)⟩

def staleHeartbeat : List (Action (Fin 3) ℕ (CommandLog (Fin 3) ℕ)) :=
  electZero ++ ([.call 0 (.submitEntry (.client 10)),
    .call 1 .startElection, .advance 2, .fail 2, .advance 2, .deliver 2, .recv 2, .advance 2,
    .call 1 (.submitEntry (.client 20)), .advance 3, .advance 3, .advance 3, .advance 3, .fail 3, .advance 3,
    .deliver 3, .recv 3, .advance 3,
    .call 1 (.heartbeatTick false), .advance 4, .deliver 4] : Steps3)

theorem heartbeat_commits_stale :
    let s := run (init (othersConfig 3)) staleHeartbeat
    (s.nodes 0).stateMachine = [⟨1, 1, .client 10⟩] ∧ (s.nodes 1).stateMachine = [⟨2, 1, .client 20⟩] := by
  decide +kernel

/-! ## Committed entries and AppendEntries -/

lemma step_delivered {dst : N} {req : Request N C} (hd : s.delivered a = some (dst, req)) :
    (s.step a).nodes dst = s.nodes dst ∨ ∃ t : Cluster N C L, t.nodes = s.nodes ∧
      (s.step a).nodes dst = (t.handle dst req).1.nodes dst := by
  unfold delivered at hd
  split at hd
  · split at hd
    · rename_i owner pc dst' req' w hk
      cases hd
      simp only [step, hk, deliver]
      split_ifs
      · exact Or.inl rfl
      · exact Or.inr ⟨s, rfl, rfl⟩
    · cases hd
  · rename_i j
    simp only [step, hd]
    split_ifs
    · exact Or.inl rfl
    · exact Or.inr ⟨{ s with net := s.net.eraseIdx j }, rfl, rfl⟩
  · cases hd

lemma onAppendEntries_survive (rep : CommitRep h s) {n : N} {r : AppendEntriesRequest N C}
    (hd : s.delivered a = some (n, .appendEntries r)) (hk : s.keepsCommon a) :
    Plain ((s.nodes n).onAppendEntries r).1.log ∧
    (entries (s.nodes n).log).take (s.nodes n).commitIndex <+: entries ((s.nodes n).onAppendEntries r).1.log := by
  have lr := rep.ack.log
  have hok := lr.delivered_ok hd
  rcases onAppendEntries_rep lr.base (lr.nodes n) lr.numbered hok with ⟨-, -, hdata⟩ | ⟨log, acc⟩
  · rw [hdata.log]
    exact ⟨(lr.nodes n).plain, List.take_prefix _ _⟩
  · have hkeep := onAppendEntries_keeps rep.ack.safe (rep.nodes n) lr.numbered (lr.nodes n) (lr.nodes r.leaderId) hok
      (by simpa only [keepsCommon, hd] using hk) acc
    have hlog := (commitFromLeader_log { (s.nodes n).observe r.term with log := log } r.leaderCommit).1
    rw [acc.eq]
    exact ⟨hlog.plain acc.plain, by rw [hlog.entries]; exact hkeep⟩

/-- **Committed entries survive AppendEntries.** -/
theorem committed_survive (config : N → ClusterConfig N) (hc : ∀ n m, m ∈ (config n).voters.ids ↔ m ≠ n)
    (as : List (Action N C L)) (a : Action N C L) (ha : ∀ x ∈ as ++ [a], x.Steady)
    (hs : along decisionSound (init config) (as ++ [a])) (n : N) (r : AppendEntriesRequest N C)
    (hd : (run (init config) as).delivered a = some (n, .appendEntries r)) (i : ℕ)
    (hi : i < ((run (init config) as).nodes n).commitIndex) :
    ∃ e, get ((run (init config) as).nodes n).log (i + 1) = some e ∧
      get ((run (init config) (as ++ [a])).nodes n).log (i + 1) = some e := by
  rw [along_append, Bool.and_eq_true] at hs
  obtain ⟨h, -, rep⟩ :=
    commit_run as (fun x hx => ha x (List.mem_append_left _ hx)) hs.1 (commitRep_init (L := L) config hc)
  have hk : (run (init config) as).keepsCommon a := by
    have hlast := hs.2
    simp only [along, decisionSound, countsRight, Bool.and_eq_true] at hlast
    exact hlast.1.1.1.1.1
  rw [run_append]
  change ∃ e, _ ∧ get (((run (init config) as).step a).nodes n).log (i + 1) = some e
  generalize run (init config) as = s at *
  have hp := (rep.ack.log.nodes n).plain
  have hlen := (rep.nodes n).len
  have hget : (entries (s.nodes n).log)[i]? = some ((entries (s.nodes n).log)[i]) := List.getElem?_eq_getElem (by omega)
  refine ⟨_, by rw [get_eq _ hp.whole]; exact hget, ?_⟩
  rcases step_delivered hd with he | ⟨t, htn, he⟩
  · rw [he, get_eq _ hp.whole]; exact hget
  · have hnode : (t.handle n (.appendEntries r)).1.nodes n = ((s.nodes n).onAppendEntries r).1 := by
      rw [← htn]; exact setNode_self _ _ _
    obtain ⟨hp', rest, hrest⟩ := onAppendEntries_survive rep hd hk
    rw [he, hnode, get_eq _ hp'.whole, ← hrest, List.getElem?_append_left (by rw [List.length_take]; omega),
      List.getElem?_take_of_lt hi]
    exact hget

def sendNext : List (Action (Fin 3) ℕ (CommandLog (Fin 3) ℕ)) :=
  applyOne ++ ([.call 0 (.submitEntry (.client 20)), .advance 3, .advance 3, .advance 3, .advance 3] : Steps3)

theorem committed_survive_sendNext : ((run (init (othersConfig 3)) sendNext).nodes 1).commitIndex = 1 ∧
    ∃ e, get ((run (init (othersConfig 3)) sendNext).nodes 1).log (0 + 1) = some e ∧
      get ((run (init (othersConfig 3)) (sendNext ++ [.deliver 3])).nodes 1).log (0 + 1) = some e :=
  ⟨by decide +kernel,
    committed_survive (othersConfig 3) (by decide) sendNext (.deliver 3)
      (by simp [sendNext, applyOne, replicateOne, electZero, Action.Steady, Command.isClient]) (by decide +kernel) 1
      ⟨1, 0, 1, 1, [⟨1, 2, .client 20⟩], 1⟩ (by decide +kernel) 0 (by decide +kernel)⟩

def lateRequest : List (Action (Fin 3) ℕ (CommandLog (Fin 3) ℕ)) :=
  electZero ++ ([.call 0 (.submitEntry (.client 10)), .advance 1, .advance 1, .advance 1, .advance 1, .fail 1,
    .advance 1, .fail 1, .advance 1,
    .call 0 (.submitEntry (.client 20)), .advance 2, .advance 2, .advance 2, .advance 2, .deliver 2, .recv 2,
    .advance 2, .advance 2,
    .call 0 (.heartbeatTick false), .advance 3, .deliver 3] : Steps3)

theorem late_request_cuts :
    let s := run (init (othersConfig 3)) lateRequest
    let s' := s.step (.deliverLate 0)
    s.delivered (.deliverLate 0) = some (1, .appendEntries ⟨1, 0, 0, 0, [⟨1, 1, .client 10⟩], 0⟩) ∧
    (s.nodes 1).commitIndex = 2 ∧ get (s.nodes 1).log 2 = some ⟨1, 2, .client 20⟩ ∧ get (s'.nodes 1).log 2 = none := by
  decide +kernel

end MaxRedis.Raft.Cluster

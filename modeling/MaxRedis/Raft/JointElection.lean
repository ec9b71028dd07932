/-
Election Safety across membership changes.

A node counts votes under the configuration it has applied, so two candidates of one term may count under different
ones.
-/
import MaxRedis.Raft.Lease

namespace MaxRedis.Raft

open LogStorage RaftNode List

variable {N C L : Type}

/-! ## The tally -/

namespace RaftNode

variable [DecidableEq N]

lemma majority_of_configVotes (nd : RaftNode N C L) (config : ClusterConfig N) {granters : List N}
    (hn : granters.Nodup) (ho : nd.nodeId ∉ granters)
    (hw : (config.voters.ids.length + 1) / 2 + 1 ≤ nd.configVotes config granters) :
    (nd.members config).card < 2 * (insert nd.nodeId granters.toFinset ∩ nd.members config).card := by
  set g := (granters.filter config.voters.count).toFinset with hg
  have hmem : ∀ v ∈ g, v ∈ granters ∧ v ∈ config.voters.ids := by
    intro v hv
    simpa [hg, IdSet.count] using hv
  have hcard : g.card = (granters.filter config.voters.count).length := toFinset_card_of_nodup (hn.filter _)
  have hvotes : nd.configVotes config granters ≤ (insert nd.nodeId g).card := by
    rw [Finset.card_insert_of_notMem (fun h => ho (hmem _ h).1), configVotes]
    split_ifs <;> omega
  have hsub : insert nd.nodeId g ⊆ insert nd.nodeId granters.toFinset ∩ nd.members config := by
    intro v hv
    rw [Finset.mem_inter, members, Finset.mem_insert, Finset.mem_insert]
    rcases Finset.mem_insert.1 hv with rfl | hv
    · exact ⟨Or.inl rfl, Or.inl rfl⟩
    · exact ⟨Or.inr (mem_toFinset.2 (hmem v hv).1), Or.inr (mem_toFinset.2 (hmem v hv).2)⟩
  have hle := Finset.card_le_card hsub
  have hall := card_members_le nd config
  omega

/-- **Joint elections need both majorities.** -/
theorem joint_tally [LogStorage N C L] (nd : RaftNode N C L) (req : VoteRequest N) (result : ElectionResult)
    (granters : List N) (maxPeerTerm : ℕ) (hjoint : nd.configState = .joint) (hn : granters.Nodup)
    (ho : nd.nodeId ∉ granters) (hold : nd.role ≠ .leader)
    (hlead : (nd.finishElection req result granters maxPeerTerm).role = .leader) :
    ∀ config ∈ [nd.jointConfig.oldConfig, nd.jointConfig.newConfig],
      (nd.members config).card < 2 * (insert nd.nodeId granters.toFinset ∩ nd.members config).card := by
  rcases finishElection_spec nd req result granters maxPeerTerm with hkept | hwins
  · exact absurd ((hkept.quiet.role (by rw [hlead]; simp)).1.symm.trans hlead) hold
  · have hwon := hwins.won
    unfold Won at hwon
    rw [hjoint] at hwon
    intro config hc
    simp only [mem_cons, not_mem_nil, or_false] at hc
    rcases hc with rfl | rfl
    · exact majority_of_configVotes nd _ hn ho hwon.1
    · exact majority_of_configVotes nd _ hn ho hwon.2

def outsider : RaftNode (Fin 5) ℕ (CommandLog (Fin 5) ℕ) where
  nodeId := 0
  log := {}
  role := .candidate
  configState := .joint
  jointConfig := ⟨{ voters := ⟨[1, 2], nodup_one_two⟩ }, { voters := ⟨[2, 3, 4], nodup_two_three_four⟩ }⟩

theorem joint_tally_outsider : (outsider.finishElection ⟨0, 0, 0, 0⟩ {} [1, 2, 3, 4] 0).role = .leader ∧
    ∀ config ∈ [outsider.jointConfig.oldConfig, outsider.jointConfig.newConfig], (outsider.members config).card <
        2 * (insert outsider.nodeId ([1, 2, 3, 4] : List (Fin 5)).toFinset ∩ outsider.members config).card := by
  have hlead : (outsider.finishElection ⟨0, 0, 0, 0⟩ {} [1, 2, 3, 4] 0).role = .leader := by decide +kernel
  exact ⟨hlead, joint_tally outsider ⟨0, 0, 0, 0⟩ {} [1, 2, 3, 4] 0 rfl (by decide) (by decide) (by decide) hlead⟩

end RaftNode

/-! ## Wins -/

structure Count (N : Type) where
  members : Finset N
  needed : ℕ

structure Win (N : Type) where
  node : N
  term : ℕ
  counts : List (Count N)

section
variable [DecidableEq N] {tbl : N → ℕ → Option N} {nd : RaftNode N C L} {e : Election N} {rpc : Option (Envelope N C)}

def jointCount (n : N) (config : ClusterConfig N) : Count N :=
  ⟨if config.voters.ids = [] then {n} else config.voters.ids.toFinset, (config.voters.ids.length + 1) / 2 + 1⟩

/-- the counts of an election of `nd` that asked `asked`: one under a stable configuration, where every vote given
counts, two under a joint one -/
def counts (nd : RaftNode N C L) (asked : List N) : List (Count N) :=
  match nd.configState with
  | .stable => [⟨insert nd.nodeId asked.toFinset, (nd.clusterConfig.voters.ids.length + 1) / 2 + 1⟩]
  | .joint => [jointCount nd.nodeId nd.jointConfig.oldConfig, jointCount nd.nodeId nd.jointConfig.newConfig]

def Win.meets (x y : Win N) : Bool :=
  x.counts.any fun c => y.counts.any fun d => decide ((c.members ∪ d.members).card < c.needed + d.needed)

def Win.Backed (tbl : N → ℕ → Option N) (w : Win N) : Prop :=
  ∀ c ∈ w.counts, ∃ q ⊆ c.members, c.needed ≤ q.card ∧ ∀ v ∈ q, tbl v w.term = some w.node

lemma Win.Backed.mono {tbl tbl' : N → ℕ → Option N} {w : Win N} (h : w.Backed tbl)
    (hext : ∀ n t c, tbl n t = some c → tbl' n t = some c) : w.Backed tbl' := by
  intro c hc
  obtain ⟨q, hq, hle, hv⟩ := h c hc
  exact ⟨q, hq, hle, fun v hm => hext _ _ _ (hv v hm)⟩

lemma Win.Backed.unique {x y : Win N} (hx : x.Backed tbl) (hy : y.Backed tbl)
    (ht : x.term = y.term) (hm : x.meets y) : x.node = y.node := by
  simp only [Win.meets, any_eq_true, decide_eq_true_eq] at hm
  obtain ⟨c, hc, d, hd, hlt⟩ := hm
  obtain ⟨p, hp, hpn, hpv⟩ := hx c hc
  obtain ⟨q, hq, hqn, hqv⟩ := hy d hd
  obtain ⟨v, hvp, hvq⟩ : ∃ v ∈ p, v ∈ q := by
    by_contra hno
    push Not at hno
    have hcard := Finset.card_union_of_disjoint (Finset.disjoint_left.2 hno)
    have hle := Finset.card_le_card (Finset.union_subset_union hp hq)
    omega
  have e1 := hpv v hvp
  have e2 := hqv v hvq
  rw [ht] at e1
  exact Option.some.inj (e1.symm.trans e2)

lemma jointCount_backed
    (hok : ElectionOk tbl nd.nodeId e rpc) (ht : e.todo = []) (config : ClusterConfig N)
    (hw : (config.voters.ids.length + 1) / 2 + 1 ≤ nd.configVotes config e.granters) :
    ∃ q ⊆ (jointCount nd.nodeId config).members, (jointCount nd.nodeId config).needed ≤ q.card ∧
      ∀ v ∈ q, tbl v e.req.term = some nd.nodeId := by
  have hn := hok.nodup
  have ho := hok.other
  rw [ht, append_nil] at hn ho
  set g := (e.granters.filter config.voters.count).toFinset with hg
  have hmem : ∀ v ∈ g, v ∈ e.granters ∧ v ∈ config.voters.ids := by
    intro v hv
    simpa [hg, IdSet.count] using hv
  have hcard : g.card = (e.granters.filter config.voters.count).length := toFinset_card_of_nodup (hn.filter _)
  have hneed : (jointCount nd.nodeId config).needed = (config.voters.ids.length + 1) / 2 + 1 := rfl
  unfold configVotes at hw
  by_cases hself : config.voters.ids = [] ∨ config.voters.count nd.nodeId
  · rw [if_pos hself] at hw
    refine ⟨insert nd.nodeId g, ?_, ?_, ?_⟩
    · intro v hv
      unfold jointCount
      rcases Finset.mem_insert.1 hv with rfl | hv
      · split_ifs with hnil
        · exact Finset.mem_singleton_self _
        · rcases hself with h | h
          · exact absurd h hnil
          · simpa [IdSet.count] using h
      · have h2 := (hmem v hv).2
        rw [if_neg (ne_nil_of_mem h2)]
        exact mem_toFinset.2 h2
    · rw [Finset.card_insert_of_notMem (fun h => ho (hmem _ h).1)]
      omega
    · intro v hv
      rcases Finset.mem_insert.1 hv with rfl | hv
      · exact hok.voted
      · exact hok.granted v (hmem v hv).1
  · rw [if_neg hself] at hw
    push Not at hself
    refine ⟨g, fun v hv => ?_, by omega, fun v hv => hok.granted v (hmem v hv).1⟩
    unfold jointCount
    rw [if_neg hself.1]
    exact mem_toFinset.2 (hmem v hv).2

lemma counts_backed [LogStorage N C L] (hok : ElectionOk tbl nd.nodeId e rpc) (ht : e.todo = [])
    (hw : Won nd e.result e.granters) : Win.Backed tbl ⟨nd.nodeId, e.req.term, counts nd e.peers⟩ := by
  intro c hc
  unfold Won at hw
  dsimp only [counts] at hc
  cases hst : nd.configState with
  | joint =>
    rw [hst] at hw hc
    simp only [mem_cons, not_mem_nil, or_false] at hc
    rcases hc with rfl | rfl
    · exact jointCount_backed hok ht _ hw.1
    · exact jointCount_backed hok ht _ hw.2
  | stable =>
    rw [hst] at hw hc
    simp only [mem_cons, not_mem_nil, or_false] at hc
    subst hc
    have hn := hok.nodup
    have ho := hok.other
    have ha := hok.asked
    rw [ht, append_nil] at hn ho ha
    refine ⟨(nd.nodeId :: e.granters).toFinset, fun v hv => ?_, ?_, fun v hv => ?_⟩
    · rcases mem_cons.1 (mem_toFinset.1 hv) with rfl | hv
      · exact Finset.mem_insert_self _ _
      · exact Finset.mem_insert_of_mem (mem_toFinset.2 (ha v hv))
    · rw [toFinset_card_of_nodup (nodup_cons.2 ⟨ho, hn⟩), length_cons, ← hok.count]
      exact hw
    · rcases mem_cons.1 (mem_toFinset.1 hv) with rfl | hv
      · exact hok.voted
      · exact hok.granted v hv

end

namespace Cluster

variable [DecidableEq N] [LogStorage N C L]

def contest (s : Cluster N C L) : Action N C L → Option (Win N)
  | .advance k =>
    match s.fibers[k]? with
    | some ⟨owner, .election e, none, _⟩ =>
      if e.todo = [] then some ⟨owner, e.req.term, counts (s.nodes owner) e.peers⟩ else none
    | _ => none
  | .call n .bootstrapSingleNode =>
    let nd := s.nodes n
    some ⟨n, if nd.role = .candidate then nd.term else nd.term + 1, [⟨{n}, 1⟩]⟩
  | _ => none

def recordWin (ws : List (Win N)) (s : Cluster N C L) (a : Action N C L) : List (Win N) :=
  match s.contest a with
  | some x =>
    if (s.nodes x.node).role ≠ .leader ∧ ((s.step a).nodes x.node).role = .leader then x :: ws else ws
  | none => ws

def overlapping : List (Win N) → Cluster N C L → List (Action N C L) → Bool
  | _, _, [] => true
  | ws, s, a :: as =>
    (match s.contest a with
     | some x => ws.all fun y => decide (y.term ≠ x.term) || decide (y.node = x.node) || x.meets y
     | none => true) && overlapping (recordWin ws s a) (s.step a) as

structure WinInv (tbl : N → ℕ → Option N) (ws : List (Win N)) (s : Cluster N C L) : Prop where
  rep : VoteRep tbl s
  backed : ∀ w ∈ ws, w.Backed tbl
  leaders : ∀ n, (s.nodes n).role = .leader → ∃ w ∈ ws, w.node = n ∧ w.term = (s.nodes n).term
  one : ∀ x ∈ ws, ∀ y ∈ ws, x.term = y.term → x.node = y.node

variable [LawfulLog N C L] {tbl : N → ℕ → Option N} {ws : List (Win N)} {s s' : Cluster N C L} {a : Action N C L}

lemma mem_recordWin {w : Win N} (h : w ∈ recordWin ws s a) :
    w ∈ ws ∨ (s.contest a = some w ∧ (s.nodes w.node).role ≠ .leader ∧ ((s.step a).nodes w.node).role = .leader) := by
  unfold recordWin at h
  split at h
  · rename_i x hx
    split_ifs at h with hl
    · rcases mem_cons.1 h with rfl | h
      · exact Or.inr ⟨hx, hl⟩
      · exact Or.inl h
    · exact Or.inl h
  · exact Or.inl h

lemma new_win (h : VoteRep tbl s) (n : N) (hold : (s.nodes n).role ≠ .leader)
    (hr : ((s.step a).nodes n).role = .leader) :
    ∃ w, s.contest a = some w ∧ w.node = n ∧ w.term = ((s.step a).nodes n).term ∧
      w.Backed (recordVotes tbl (s.step a)) := by
  have ht := step_trans s a
  have hext := recordVotes_ext h ht
  have hv' := recordVotes_step h ht
  cases new_leader ht n hr with
  | still role => exact absurd role hold
  | alone act _ _ term =>
    refine ⟨⟨n, ((s.step a).nodes n).term, [⟨{n}, 1⟩]⟩, by rw [term, act]; rfl, rfl, rfl, fun c hc => ?_⟩
    obtain rfl := mem_singleton.1 hc
    refine ⟨{n}, subset_rfl, by simp, fun v hv => ?_⟩
    rw [Finset.mem_singleton.1 hv]
    exact (hv'.cur n).trans (hv'.self n (by rw [hr]; simp))
  | elected _ act f hk rpc owner e pc todo wins =>
    have hok := (h.fibers f (mem_of_getElem? hk) e pc).mono hext
    rw [owner, ← h.id n] at hok
    refine ⟨⟨n, e.req.term, counts (s.nodes n) e.peers⟩, ?_, rfl, wins.term_eq.symm, ?_⟩
    · obtain ⟨o, p, r, w⟩ := f
      subst act rpc owner pc
      simp only [contest, hk, todo, if_true]
    · have hb := counts_backed hok todo wins.won
      rwa [h.id n] at hb

lemma recordWin_mem {w : Win N} (hw : w ∈ ws) : w ∈ recordWin ws s a := by
  unfold recordWin
  split
  · split_ifs
    · exact mem_cons_of_mem _ hw
    · exact hw
  · exact hw

lemma winInv_step (h : WinInv tbl ws s)
    (ho : ∀ x, s.contest a = some x → ∀ y ∈ ws, y.term = x.term → y.node = x.node ∨ x.meets y) :
    WinInv (recordVotes tbl (s.step a)) (recordWin ws s a) (s.step a) := by
  have ht := step_trans s a
  have hext := recordVotes_ext h.rep ht
  have hbacked : ∀ w ∈ recordWin ws s a, w.Backed (recordVotes tbl (s.step a)) := by
    intro w hw
    rcases mem_recordWin hw with hw | ⟨hc, hold, hr⟩
    · exact (h.backed w hw).mono hext
    · obtain ⟨w', hc', -, -, hb⟩ := new_win h.rep w.node hold hr
      rw [hc] at hc'
      rw [Option.some.inj hc']; exact hb
  refine ⟨recordVotes_step h.rep ht, hbacked, fun n hr => ?_, ?_⟩
  · by_cases hold : (s.nodes n).role = .leader
    · obtain ⟨w, hw, h1, h2⟩ := h.leaders n hold
      refine ⟨w, recordWin_mem hw, h1, ?_⟩
      cases new_leader ht n hr with
      | still _ term => exact h2.trans term.symm
      | alone _ _ old => exact absurd hold old
      | elected _ _ _ _ _ _ _ _ _ wins => rw [wins.old] at hold; cases hold
    · obtain ⟨w, hc, hn, hterm, -⟩ := new_win h.rep n hold hr
      refine ⟨w, ?_, hn, hterm⟩
      unfold recordWin
      rw [hc]
      dsimp only
      rw [if_pos (by rw [hn]; exact ⟨hold, hr⟩)]
      exact mem_cons_self
  · -- an old win and the new one meet, so they share a voter
    have hnew : ∀ x, s.contest a = some x → x ∈ recordWin ws s a → ∀ y ∈ ws, y.term = x.term → y.node = x.node := by
      intro x hx hxm y hy hterm
      rcases ho x hx y hy hterm with he | hm
      · exact he
      · exact ((hbacked x hxm).unique (hbacked y (recordWin_mem hy)) hterm.symm hm).symm
    intro x hx y hy hterm
    rcases mem_recordWin hx with hx' | ⟨hcx, -⟩ <;> rcases mem_recordWin hy with hy' | ⟨hcy, -⟩
    · exact h.one x hx' y hy' hterm
    · exact hnew y hcy hy x hx' hterm
    · exact (hnew x hcx hx y hy' hterm.symm).symm
    · rw [hcx] at hcy; rw [Option.some.inj hcy]

lemma winInv_run (as bs : List (Action N C L)) (tbl : N → ℕ → Option N) (ws : List (Win N)) (s : Cluster N C L)
    (h : WinInv tbl ws s) (ho : overlapping ws s (as ++ bs)) :
    ∃ tbl' ws', WinInv tbl' ws' (run s as) ∧ (∀ w ∈ ws, w ∈ ws') ∧ overlapping ws' (run s as) bs := by
  induction as generalizing tbl ws s with
  | nil => exact ⟨tbl, ws, h, fun _ hw => hw, ho⟩
  | cons a _ ih =>
    simp only [cons_append, overlapping, Bool.and_eq_true] at ho
    obtain ⟨h1, h2⟩ := ho
    have hstep := winInv_step (a := a) h (fun x hx y hy hterm => by
      rw [hx] at h1
      simp only [all_eq_true, Bool.or_eq_true, decide_eq_true_eq] at h1
      rcases h1 y hy with (hne | he) | hm
      · exact absurd hterm hne
      · exact Or.inl he
      · exact Or.inr hm)
    obtain ⟨tbl', ws', h', hsub, hrest⟩ := ih _ _ _ hstep h2
    exact ⟨tbl', ws', h', fun w hw => hsub w (recordWin_mem hw), hrest⟩

lemma winInv_init (config : N → ClusterConfig N) : WinInv (fun _ _ => none) [] (init config : Cluster N C L) :=
  ⟨voteRep_init config, nofun, fun n hr => by simp [init] at hr, nofun⟩

/-- **Election Safety across membership changes.** -/
theorem joint_electionSafety (config : N → ClusterConfig N) (as bs : List (Action N C L))
    (ho : overlapping [] (init config) (as ++ bs)) (n m : N) (hn : ((run (init config) as).nodes n).role = .leader)
    (hm : ((run (init config) (as ++ bs)).nodes m).role = .leader)
    (ht : ((run (init config) as).nodes n).term = ((run (init config) (as ++ bs)).nodes m).term) : n = m := by
  obtain ⟨tbl, ws, h1, -, hrest⟩ := winInv_run as bs _ _ _ (winInv_init config) ho
  obtain ⟨tbl', ws', h2, hsub, -⟩ := winInv_run bs [] _ _ _ h1 (by rwa [append_nil])
  rw [← run_append] at h2
  obtain ⟨x, hx, hxn, hxt⟩ := h1.leaders n hn
  obtain ⟨y, hy, hyn, hyt⟩ := h2.leaders m hm
  rw [← hxn, ← hyn]
  exact h2.one x (hsub x hx) y hy (by rw [hxt, ht, hyt])

/-- **Terms only grow, and a vote is final**, in every run: with membership changes, snapshots and restarts. -/
theorem vote_final (config : N → ClusterConfig N) (as bs : List (Action N C L)) (n : N) :
    let nd := (run (init config) as).nodes n
    let nd' := (run (init config) (as ++ bs)).nodes n
    nd.term ≤ nd'.term ∧ (nd'.term = nd.term → nd.votedFor ≠ none → nd'.votedFor = nd.votedFor) := by
  induction bs using reverseRecOn with
  | nil => rw [append_nil]; exact ⟨le_rfl, fun _ _ => rfl⟩
  | append_singleton bs a ih =>
    obtain ⟨tbl, rep⟩ := run_voteRep config (as ++ bs)
    have hmove := trans_moves rep.file (step_trans _ a) n
    obtain ⟨hle, hkeep⟩ := ih
    rw [← append_assoc, run_append]
    refine ⟨hle.trans hmove.le, fun hterm hvote => ?_⟩
    -- the term is the same in between, so the vote is
    have hmid := le_antisymm (hmove.le.trans_eq hterm) hle
    have hvoted := hkeep hmid hvote
    exact (hmove.keep (hterm.trans hmid.symm) (by rwa [hvoted])).trans hvoted

/-! ## Two leaders of one term -/

def oldPair (n : Fin 4) : ClusterConfig (Fin 4) :=
  { voters := if n = 0 then ⟨[1], by decide⟩ else if n = 1 then ⟨[0], by decide⟩ else ⟨[0, 1], by decide⟩ }

def newPair : ClusterConfig (Fin 4) := { version := 1, voters := ⟨[2, 3], by decide⟩ }

/-- node 0 leads term 1, and the change is proposed twice; node 1 acknowledges both entries, so node 0 commits and
applies them in one sweep and is stable under the new configuration -/
def proposeTwice : List (Action (Fin 4) ℕ (CommandLog (Fin 4) ℕ)) :=
  [.call 0 .startElection, .advance 0, .deliver 0, .recv 0, .advance 0,
   .call 0 (.beginConfigChange newPair), .call 0 (.beginConfigChange newPair),
   .call 0 (.heartbeatTick false), .advance 1, .deliver 1, .recv 1, .advance 1, .advance 1, .advance 1, .deliver 1,
   .recv 1, .advance 1]

def informTwo : List (Action (Fin 4) ℕ (CommandLog (Fin 4) ℕ)) :=
  [.call 0 (.replicateLog true), .advance 2, .advance 2, .deliver 2, .recv 2, .advance 2, .fail 2, .advance 2,
   .advance 2, .advance 2, .deliver 2]

def electOne : List (Action (Fin 4) ℕ (CommandLog (Fin 4) ℕ)) :=
  [.call 1 .startElection, .advance 3, .deliver 3, .recv 3, .advance 3]

def electTwo (k : ℕ) : List (Action (Fin 4) ℕ (CommandLog (Fin 4) ℕ)) :=
  [.call 2 .startElection, .advance k, .deliver k, .recv k, .advance k]

theorem split_brain :
    let s := run (init oldPair) (proposeTwice ++ informTwo ++ electOne ++ electTwo 4)
    (s.nodes 1).role = .leader ∧ (s.nodes 2).role = .leader ∧ (s.nodes 1).term = (s.nodes 2).term := by
  decide +kernel

/-- without the election of node 1 the same change of membership is safe -/
theorem joint_electionSafety_two :
    let s := run (init oldPair) (proposeTwice ++ informTwo ++ electTwo 3)
    overlapping [] (init oldPair) (proposeTwice ++ informTwo ++ electTwo 3) ∧
    (s.nodes 2).role = .leader ∧ (s.nodes 2).term = 2 ∧ (2 : Fin 4) = 2 :=
  ⟨by decide +kernel, by decide +kernel, by decide +kernel,
    joint_electionSafety oldPair (proposeTwice ++ informTwo ++ electTwo 3) []
    (by decide +kernel) 2 2 (by decide +kernel)
      (by decide +kernel) (by decide +kernel)⟩

end Cluster

end MaxRedis.Raft

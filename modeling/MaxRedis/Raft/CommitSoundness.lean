/-
What a leader commits by counting.
-/
import MaxRedis.Raft.Acks

namespace MaxRedis.Raft

open LogStorage LawfulLog RaftNode TermLog List

variable {N C L : Type}

def reached (nd : RaftNode N C L) (c : ℕ) : List N :=
  ((nd.lastPeerIds.zip nd.peerLastLogIndex).filter (fun p => c ≤ p.2)).map Prod.fst

lemma reached_length (nd : RaftNode N C L) (hlen : nd.peerLastLogIndex.length ≤ nd.lastPeerIds.length) (c : ℕ) :
    (reached nd c).length = (nd.peerLastLogIndex.filter (c ≤ ·)).length := by
  have hsnd : (nd.lastPeerIds.zip nd.peerLastLogIndex).map Prod.snd = nd.peerLastLogIndex :=
    map_snd_zip hlen
  unfold reached
  conv_rhs => rw [← hsnd, filter_map, length_map]
  rw [length_map]
  rfl

section
variable [DecidableEq N] {h : History N C} {nd : RaftNode N C L}

lemma reached_sublist (nd : RaftNode N C L) (c : ℕ) : (reached nd c).Sublist nd.lastPeerIds := by
  have hzip : ∀ (l : List N) (m : List ℕ), ((l.zip m).map Prod.fst).Sublist l := by
    intro l
    induction l with
    | nil => simp
    | cons _ _ ih =>
      intro m
      cases m with
      | nil => simp
      | cons _ m => simpa using ih m
  exact (filter_sublist.map Prod.fst).trans (hzip _ _)

lemma reached_acked (hk : NodeAck h nd) {c : ℕ} {p : N} (hp : p ∈ reached nd c) : c ≤ h.acked p nd.term := by
  simp only [reached, mem_map, mem_filter, decide_eq_true_eq] at hp
  obtain ⟨⟨q, x⟩, ⟨hz, hx⟩, rfl⟩ := hp
  obtain ⟨i, hi⟩ := getElem?_of_mem hz
  rw [getElem?_zip_eq_some] at hi
  exact hx.trans (hk.acked i q x hi.1 hi.2)

end

namespace Cluster

variable [DecidableEq N] [LogStorage N C L] [LawfulLog N C L] [Fintype N]
variable {h h' : History N C} {s s' : Cluster N C L} {a : Action N C L} {n : N}

lemma committed_of_count (b : Base majorities h) (sf : Safe majorities h) {nd : RaftNode N C L}
    (rep : NodeRep h n nd) (fx : FixedNode n nd) (hid : nd.nodeId = n) (hl : nd.role = .leader) (hk : NodeAck h nd)
    {c : ℕ} (hc : kthLargest ((nd.clusterConfig.voters.ids.length + 1) / 2) (lastIndex nd.log :: nd.peerLastLogIndex) =
      some c)
    (hpos : 0 < c) (hterm : getTerm nd.log c = 0 ∨ nd.term ≤ getTerm nd.log c) : Committed majorities h nd.term c := by
  have hlead := rep.lead hl
  have hlog : entries nd.log = h.tlog nd.term := by
    rw [← rep.log, ← rep.term]; exact b.lead_log n (by rw [rep.term]; exact hlead)
  have hcount := kthLargest_count hc
  rw [lastIndex_eq _ rep.plain.whole, filter_cons] at hcount
  have hlen := reached_length nd hk.len c
  -- a counter is at most the length of the leader's log
  have hle : c ≤ (entries nd.log).length := by
    by_contra hgt
    rw [if_neg (by simpa using hgt)] at hcount
    obtain ⟨p, hp⟩ : ∃ p, p ∈ reached nd c := exists_mem_of_length_pos (by omega)
    have h1 := reached_acked hk hp
    have h2 := sf.ack_le p nd.term
    rw [← hlog] at h2
    omega
  refine ⟨?_, by rw [← hlog]; exact hle, (n :: reached nd c).toFinset, ?_, fun v hv => ?_⟩
  · -- the entry there is of this term, so it is past what the leader started with
    obtain ⟨i, rfl⟩ : ∃ i, c = i + 1 := ⟨c - 1, by omega⟩
    have hget : (entries nd.log)[i]? = some ((entries nd.log)[i]) := getElem?_eq_getElem (by omega)
    rw [getTerm_eq _ rep.plain, hget] at hterm
    have hgood : Good h (entries nd.log) := by rw [← rep.log]; exact b.log_good n
    have h0 := good_pos b hgood hget
    simp only [Option.map_some, Option.getD_some] at hterm
    by_contra hst
    have hmem : (entries nd.log)[i] ∈ (h.tlog nd.term).take (h.start nd.term) := by
      rw [← hlog]
      exact mem_take_iff_getElem.2 ⟨i, by omega, rfl⟩
    have hlt := b.start_lt _ _ hmem
    have : ((entries nd.log)[i]).term < nd.term := hlt
    omega
  · have hnd : (n :: reached nd c).Nodup := by
      refine nodup_cons.2
        ⟨fun hm => ?_, (reached_sublist nd c).nodup (by rw [hk.peers]; exact nodup_getPeerIdsLocked nd)⟩
      have := (reached_sublist nd c).subset hm
      rw [hk.peers, ← hid] at this
      exact self_notMem_getPeerIdsLocked nd this
    refine Majority.of_list hnd fx.card ?_
    split_ifs at hcount
    · rw [length_cons] at hcount; omega
    · omega
  · rcases mem_cons.1 (mem_toFinset.1 hv) with rfl | hv
    · rw [sf.ack_lead _ _ hlead, ← hlog]; exact hle
    · exact reached_acked hk hv

lemma advance_committed (b : Base majorities h) (sf : Safe majorities h) {nd : RaftNode N C L}
    (rep : NodeRep h n nd) (fx : FixedNode n nd) (hid : nd.nodeId = n) (hl : nd.role = .leader) (hk : NodeAck h nd) :
    nd.advanceCommitIndexLocked = nd ∨ ∃ c, nd.advanceCommitIndexLocked = { nd with commitIndex := c } ∧
      nd.commitIndex < c ∧ Committed majorities h nd.term c := by
  rcases advanceCommitIndexLocked_stable nd fx.clean.state with he | ⟨c, hc, he, hlt, hterm⟩
  · exact Or.inl he
  · exact Or.inr ⟨c, he, hlt, committed_of_count b sf rep fx hid hl hk hc (by omega) hterm⟩

lemma NodeRep.only {nd mid : RaftNode N C L} (rep : NodeRep h n nd) (ho : OnlyPeers nd mid) :
    NodeRep h n mid := by
  refine ⟨by rw [ho.data.log]; exact rep.plain, ho.data.snap.trans rep.snap, rep.term.trans ho.same.term.symm,
    by rw [ho.data.log]; exact rep.log, fun hr => ?_, fun hr => ?_⟩
  · rw [ho.same.term]; exact rep.lead (by rw [← ho.same.role]; exact hr)
  · rw [ho.same.term]; exact rep.cand (by rw [← ho.same.role]; exact hr)

lemma FixedNode.only {nd mid : RaftNode N C L} (fx : FixedNode n nd) (ho : OnlyPeers nd mid) :
    FixedNode n mid :=
  ⟨⟨ho.data.state.trans fx.clean.state, by rw [ho.data.log]; exact fx.clean.log⟩,
    by rw [ho.data.config]; exact fx.voters⟩

inductive Counted (h : History N C) (nd nd' : RaftNode N C L) : Prop where
  | same (h : nd'.commitIndex = nd.commitIndex)
  | moved (committed : Committed majorities h nd.term nd'.commitIndex) (lt : nd.commitIndex < nd'.commitIndex)
      (log : SameLog nd.log nd'.log)

lemma Counted.of_advance (rep : AckRep h s) {mid nd' : RaftNode N C L} (hl : (s.nodes n).role = .leader)
    (ho : OnlyPeers (s.nodes n) mid) (hk : NodeAck h mid)
    (hc : nd'.commitIndex = mid.advanceCommitIndexLocked.commitIndex)
    (hlog : SameLog mid.advanceCommitIndexLocked.log nd'.log) : Counted h (s.nodes n) nd' := by
  rcases advance_committed rep.log.base rep.safe ((rep.log.nodes n).only ho) ((rep.log.fixed.nodes n).only ho)
    (ho.data.id.trans (rep.log.votes.id n)) (ho.same.role.trans hl) hk with he | ⟨c, he, hlt, hcom⟩
  · exact .same (by rw [hc, he]; exact ho.data.commit)
  · rw [he] at hc hlog
    refine .moved (by rw [hc, ← ho.same.term]; exact hcom) (by rw [hc, ← ho.data.commit]; exact hlt) ?_
    rw [← ho.data.log]; exact hlog

/-- **A leader's commit index moves by counting only**, and then nothing happens at the other nodes. -/
theorem count_step (rep : AckRep h s) (ha : a.Steady) (hc : s.countSound a) (ht : Trans s a s')
    (hl : (s.nodes n).role = .leader) (hd : ∀ req, s.delivered a ≠ some (n, req)) :
    (s'.nodes n).commitIndex = (s.nodes n).commitIndex ∨
    (Counted h (s.nodes n) (s'.nodes n) ∧ ∀ m, m ≠ n → s'.nodes m = s.nodes m) := by
  by_cases hsame : (s'.nodes n).commitIndex = (s.nodes n).commitIndex
  · exact Or.inl hsame
  refine Or.inr ⟨?_, fun m hm => ht.unchanged (fun he => hsame (by rw [he])) hm⟩
  have hst := (rep.log.fixed.nodes n).clean.state
  have happly : ∀ {mid : RaftNode N C L}, OnlyPeers (s.nodes n) mid → NodeAck h mid →
      Counted h (s.nodes n) mid.advanceCommitIndexLocked.maybeAutoFinalizeJointLocked.applyCommittedLogsLocked := by
    intro mid ho hk
    rw [commitAndApply_stable mid (ho.data.state.trans hst)]
    have happ := applyCommittedLogsLocked_applies mid.advanceCommitIndexLocked
    exact .of_advance rep hl ho hk happ.commit happ.log
  cases ht.node n with
  | kept _ hk => exact .same hk.data.commit
  | applied _ _ _ _ _ eq => exact .same (by rw [eq]; exact (applyCommittedLogsLocked_applies _).commit)
  | persisted _ _ _ _ _ eq => exact .same (by rw [eq])
  | campaign _ hcamp => exact .same hcamp.data.commit
  | boot _ hr => exact absurd hl hr
  | wins _ _ _ _ _ _ _ _ hw => exact .same hw.leads.data.commit
  | countBeats _ f hk hr ho b hf htodo eq =>
    subst ho
    rw [eq]
    rcases heartbeatFinish_spec (s.nodes f.owner) b.isLoop b.epoch b.ackCount b.rspLastLog b.maxPeerTerm with
      he | ⟨-, he⟩ | ⟨hloop, -, hkept⟩
    · exact .same (by rw [he])
    · exact .same (by rw [he]; exact (becomeFollowerLocked_data _ _).commit)
    · refine .of_advance rep hl (recordHeartbeatAcks_only _ _)
        ((rep.nodes f.owner hl).recordHeartbeatAcks _ (beat_acks rep hk hr hf htodo hc hloop hl)) hkept.data.commit ?_
      rw [hkept.data.log]; exact SameLog.refl _
  | append _ _ eq => exact .same (by rw [eq])
  | refresh _ eq => exact .same (by rw [eq]; rfl)
  | countAppends _ f hk ho r hf eq =>
    subst ho
    rw [eq]
    rcases replicateFinish_spec (s.nodes f.owner) r.currentTerm r.rsps with he | ⟨t, -, he⟩ | ⟨-, hterm, he⟩
    · exact .same (by rw [he])
    · exact .same (by rw [he]; exact (becomeFollowerLocked_data _ _).commit)
    · rw [he]
      have hps := ((rep.fibers f (mem_of_getElem? hk)).round r hf).2
      rw [← hterm] at hps
      exact happly (foldl_recordPeerRsp_only _ _)
        ((rep.nodes f.owner hl).recordPeerRsps _ (rep.log.nodes f.owner).snap hps)
  | alone _ _ _ _ eq =>
    rw [eq]
    unfold replicateAlone
    rw [if_neg (not_not.2 hl)]
    exact happly (OnlyPeers.refl _) (rep.nodes n hl)
  | config | snapshot => exact ha.elim
  | grants _ _ hreq | beaten _ _ hreq | adopts _ _ hreq | installs _ _ hreq => exact absurd hreq (hd _)
  | restart => exact ha.elim

/-! ## Runs -/

/-- the steps that a leader's counts rely on: AppendEntries keeps what both sides have, a heartbeat's answer reports a
part of the leader's log, and it is counted in its own term -/
def countsRight (s : Cluster N C L) (a : Action N C L) : Bool := s.keepsCommon a && s.ackSound a && s.countSound a

lemma ack_run (as : List (Action N C L)) (ha : ∀ a ∈ as, a.Steady) (hs : along countsRight s as) (rep : AckRep h s) :
    ∃ h', Path majorities True h h' ∧ AckRep h' (run s as) := by
  induction as generalizing h s with
  | nil => exact ⟨h, .refl, rep⟩
  | cons a _ ih =>
    simp only [along, countsRight, Bool.and_eq_true] at hs
    obtain ⟨h', p, rep', -⟩ := ack_step rep (ha a mem_cons_self) hs.1.1.1 hs.1.1.2 hs.1.2 (step_trans s a)
    obtain ⟨h'', p', rep''⟩ := ih (fun x hx => ha x (mem_cons_of_mem _ hx)) hs.2 rep'
    exact ⟨h'', p.trans p', rep''⟩

/-- **Leader commit soundness.** -/
theorem commit_sound (config : N → ClusterConfig N) (hc : ∀ n m, m ∈ (config n).voters.ids ↔ m ≠ n)
    (as : List (Action N C L)) (a : Action N C L) (ha : ∀ x ∈ as ++ [a], x.Steady)
    (hs : along countsRight (init config) (as ++ [a])) (n : N) (hl : ((run (init config) as).nodes n).role = .leader)
    (hd : ∀ req, (run (init config) as).delivered a ≠ some (n, req))
    (hadv : ((run (init config) as).nodes n).commitIndex < ((run (init config) (as ++ [a])).nodes n).commitIndex) :
    ∃ q : Finset N, Majority q ∧ n ∈ q ∧ ∃ e, ∀ m ∈ q,
      get ((run (init config) (as ++ [a])).nodes m).log ((run (init config) (as ++ [a])).nodes n).commitIndex =
      some e := by
  rw [along_append, Bool.and_eq_true] at hs
  obtain ⟨h, -, rep⟩ := ack_run as (fun x hx => ha x (mem_append_left _ hx)) hs.1 (ackRep_init (L := L) config hc)
  rw [run_append] at hadv ⊢
  change _ < (((run (init config) as).step a).nodes n).commitIndex at hadv
  have hsteady := ha a (mem_append_right _ (mem_singleton_self a))
  generalize run (init config) as = s at *
  have hcnt : s.countSound a := by
    have := hs.2
    simp only [along, countsRight, Bool.and_eq_true] at this
    exact this.1.2
  have ht := step_trans s a
  rcases count_step rep hsteady hcnt ht hl hd with he | ⟨hcounted, hothers⟩
  · omega
  cases hcounted with
  | same => omega
  | moved committed _ log =>
    set c := ((s.step a).nodes n).commitIndex
    obtain ⟨-, hlen, q, hq, hack⟩ := id committed
    obtain ⟨i, hi⟩ : ∃ i, c = i + 1 := ⟨c - 1, by omega⟩
    have hTi : (h.tlog (s.nodes n).term)[i]? = some ((h.tlog (s.nodes n).term)[i]) :=
      getElem?_eq_getElem (by omega)
    have hlead := (rep.log.nodes n).lead hl
    -- whoever has acknowledged the index has the leader's log up to it
    have hold : ∀ m, c ≤ h.acked m (s.nodes n).term →
        get ((s.step a).nodes m).log c = some ((h.tlog (s.nodes n).term)[i]) := by
      intro m hm
      have r := rep.log.nodes m
      have hpre := rep.safe.kept m _ c committed.choosable hm
      have hsame : Plain ((s.step a).nodes m).log ∧ entries ((s.step a).nodes m).log = h.log m := by
        by_cases hmn : m = n
        · subst hmn; exact ⟨log.plain r.plain, log.entries.trans r.log.symm⟩
        · rw [hothers m hmn]; exact ⟨r.plain, r.log.symm⟩
      obtain ⟨rest, hrest⟩ := hpre
      rw [hi, get_eq _ hsame.1.whole, hsame.2, ← hrest, getElem?_append_left (by rw [length_take]; omega),
        getElem?_take_of_lt (by omega)]
      exact hTi
    refine ⟨insert n q, ?_, Finset.mem_insert_self n q, _, fun m hm => hold m ?_⟩
    · have hle := Finset.card_le_card (Finset.subset_insert n q)
      have hq' : Majority q := hq
      unfold Majority at hq' ⊢
      omega
    · rcases Finset.mem_insert.1 hm with rfl | hm
      · rw [rep.safe.ack_lead _ _ hlead]; exact hlen
      · exact hack m hm

/-- the round of `replicateOne` is answered and counted -/
theorem commit_sound_replicateOne :
    let as := replicateOne ++ [.recv 1, .advance 1]
    let s' := run (init (othersConfig 3)) (as ++ [.advance 1])
    (s'.nodes 0).commitIndex = 1 ∧ ∃ q : Finset (Fin 3), Majority q ∧ 0 ∈ q ∧ ∃ e, ∀ m ∈ q,
      get (s'.nodes m).log (s'.nodes 0).commitIndex = some e :=
  ⟨by decide +kernel,
    commit_sound (othersConfig 3) (by decide) (replicateOne ++ [.recv 1, .advance 1]) (.advance 1)
      (by simp [replicateOne, electZero, Action.Steady, Command.isClient]) (by decide +kernel) 0 (by decide +kernel)
      (fun _ => by simp [delivered]) (by decide +kernel)⟩

/-! ## A length that is not a match -/

def junkAck : List (Action (Fin 3) ℕ (CommandLog (Fin 3) ℕ)) :=
  electZero ++ ([.call 0 (.submitEntry (.client 10)),
    .call 1 .startElection, .advance 2, .fail 2, .advance 2, .deliver 2, .recv 2, .advance 2,
    .call 1 (.submitEntry (.client 20)),
    .call 1 (.heartbeatTick false), .advance 4, .deliver 4, .recv 4, .advance 4, .fail 4] : Steps3)

/-- node 1 commits index 1, which it alone has -/
theorem junk_ack_commits :
    let s := run (init (othersConfig 3)) junkAck
    let s' := s.step (.advance 4)
    (s.nodes 1).role = .leader ∧ (s.nodes 1).commitIndex = 0 ∧ (s'.nodes 1).commitIndex = 1 ∧
    get (s'.nodes 1).log 1 = some ⟨2, 1, .client 20⟩ ∧ get (s'.nodes 0).log 1 = some ⟨1, 1, .client 10⟩ ∧
    get (s'.nodes 2).log 1 = none ∧
    ¬ ∃ q : Finset (Fin 3), Majority q ∧ ∀ m ∈ q, get (s'.nodes m).log 1 = get (s'.nodes 1).log 1 := by
  refine ⟨by decide +kernel, by decide +kernel, by decide +kernel, by decide +kernel, by decide +kernel,
    by decide +kernel, ?_⟩
  unfold Majority
  decide +kernel

end Cluster

end MaxRedis.Raft

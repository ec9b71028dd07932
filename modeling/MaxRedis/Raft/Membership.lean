/-
A cluster of fixed membership: every node is stable, its voters are the other nodes, and no log or request holds a
configuration change.
-/
import Mathlib.Data.Fintype.Card
import MaxRedis.Raft.Votes

namespace MaxRedis.Raft

open LogStorage LawfulLog RaftNode List Option

variable {N C L : Type} {f : Fiber N C}

def Command.isClient : Command N C → Bool
  | .configChange _ => false
  | _ => true

def Request.Client : Request N C → Prop
  | .appendEntries r => ∀ e ∈ r.entries, RaftNode.isClient e
  | _ => True

section
variable [LogStorage N C L] [LawfulLog N C L]

structure Clean (nd : RaftNode N C L) : Prop where
  state : nd.configState = .stable
  log : ∀ e ∈ entries nd.log, RaftNode.isClient e

def CleanMove (nd nd' : RaftNode N C L) : Prop :=
  Clean nd → Clean nd' ∧ nd'.clusterConfig = nd.clusterConfig ∧ nd'.idOrder = nd.idOrder

lemma CleanMove.trans {a b c : RaftNode N C L} (h : CleanMove a b) (k : CleanMove b c) : CleanMove a c :=
  fun ha => ⟨(k (h ha).1).1, (k (h ha).1).2.1.trans (h ha).2.1, (k (h ha).1).2.2.trans (h ha).2.2⟩

variable (nd : RaftNode N C L)

lemma CleanMove.refl : CleanMove nd nd := fun h => ⟨h, rfl, rfl⟩

lemma CleanMove.of_data {nd nd' : RaftNode N C L} (h : SameData nd nd') : CleanMove nd nd' :=
  fun hc => ⟨⟨h.state.trans hc.state, by rw [h.log]; exact hc.log⟩, h.config, h.order⟩

lemma CleanMove.of_log {nd nd' : RaftNode N C L} (hs : nd'.configState = nd.configState)
    (hg : nd'.clusterConfig = nd.clusterConfig) (ho : nd'.idOrder = nd.idOrder)
    (hl : ∀ x ∈ entries nd'.log, x ∈ entries nd.log ∨ RaftNode.isClient x) : CleanMove nd nd' :=
  fun hc => ⟨⟨hs.trans hc.state, fun x hx => (hl x hx).elim (hc.log x) id⟩, hg, ho⟩

lemma CleanMove.of_apply : CleanMove nd nd.applyCommittedLogsLocked := by
  intro hc
  obtain ⟨h1, h2, -⟩ := applyLoop_config (nd.commitIndex + 1) nd hc.log
  have happ := applyCommittedLogsLocked_applies nd
  exact ⟨⟨h2.trans hc.state, by rw [happ.log.entries]; exact hc.log⟩, h1, happ.order⟩

lemma mem_appendLoop (es : List (LogEntry N C)) (l : L) :
    ∀ x ∈ entries (appendLoop l es).1, x ∈ entries l ∨ ∃ e ∈ es, ∃ i, x = { e with index := i } := by
  induction es generalizing l with
  | nil => exact fun x hx => Or.inl hx
  | cons e es ih =>
    have hnext : ∀ l' : L, (∀ x ∈ entries l', x ∈ entries l ∨ ∃ i, x = { e with index := i }) →
        ∀ x ∈ entries (appendLoop l' es).1, x ∈ entries l ∨ ∃ e' ∈ e :: es, ∃ i, x = { e' with index := i } := by
      intro l' hl' x hx
      rcases ih l' x hx with hx | ⟨e', he', i, hi⟩
      · rcases hl' x hx with hx | ⟨i, hi⟩
        · exact Or.inl hx
        · exact Or.inr ⟨e, mem_cons_self, i, hi⟩
      · exact Or.inr ⟨e', mem_cons_of_mem _ he', i, hi⟩
    simp only [appendLoop]
    split_ifs
    · exact hnext l (fun x hx => Or.inl hx)
    · exact hnext _ (fun x hx => (mem_append _ _ _ x hx).imp_left (mem_truncate _ _ x))
    · exact hnext _ (mem_append _ _ _)
    · exact fun x hx => Or.inl hx

lemma mem_truncateTail (l : L) (es : List (LogEntry N C)) : ∀ x ∈ entries (truncateTail l es), x ∈ entries l := by
  unfold truncateTail
  split
  · exact fun x hx => hx
  · split_ifs
    · exact mem_truncate _ _
    · exact fun x hx => hx

lemma CleanMove.of_observe (t : ℕ) : CleanMove nd (nd.observe t) := .of_data (observe_data nd t)

lemma CleanMove.of_commitFromLeader (lc : ℕ) : CleanMove nd (nd.commitFromLeader lc) := by
  unfold commitFromLeader
  split_ifs
  · refine CleanMove.trans ?_ (.of_apply _)
    exact .of_log rfl rfl rfl (fun x hx => Or.inl hx)
  · exact .refl nd

lemma CleanMove.of_appendEntries (req : AppendEntriesRequest N C)
    (hr : ∀ e ∈ req.entries, RaftNode.isClient e) : CleanMove nd (nd.onAppendEntries req).1 := by
  have hloop : ∀ log b, appendLoop nd.log (req.entries.take maxAppendBatch) = (log, b) →
      ∀ x ∈ entries log, x ∈ entries nd.log ∨ RaftNode.isClient x := by
    intro log b h x hx
    have hm := mem_appendLoop (req.entries.take maxAppendBatch) nd.log x
    rw [h] at hm
    rcases hm hx with hm | ⟨e, he, i, rfl⟩
    · exact Or.inl hm
    · exact Or.inr (hr e (take_subset _ _ he))
  have hobs := observe_data nd req.term
  rcases onAppendEntries_spec nd req with ⟨-, h⟩ | ⟨-, ⟨hint, h⟩ | ⟨-, -, log, ⟨hl, h⟩ | ⟨hl, h⟩⟩⟩
  · rw [h]; exact .refl nd
  · rw [h]; exact .of_observe nd _
  · rw [h]; exact .of_log hobs.state hobs.config hobs.order (hloop log true hl)
  · rw [h]
    refine CleanMove.trans ?_ (.of_commitFromLeader _ _)
    exact .of_log hobs.state hobs.config hobs.order (fun x hx => hloop log false hl x (mem_truncateTail _ _ x hx))

lemma CleanMove.of_heartbeat (req : HeartbeatRequest N) : CleanMove nd (nd.onHeartbeat req).1 := by
  unfold onHeartbeat
  split_ifs
  · exact .refl nd
  · refine (CleanMove.of_data (becomeFollowerLocked_data nd req.term)).trans ?_
    dsimp only
    split_ifs
    · refine CleanMove.trans ?_ (.of_apply _)
      exact .of_log rfl rfl rfl (fun x hx => Or.inl hx)
    · exact .refl _
  · exact .refl nd

lemma CleanMove.of_installSnapshot (req : InstallSnapshotRequest N C) :
    CleanMove nd (nd.onInstallSnapshot req).1 := by
  have hobs := observe_data nd req.term
  unfold onInstallSnapshot
  by_cases h1 : req.term < nd.term
  · rw [if_pos h1]; exact .refl nd
  rw [if_neg h1]
  refine .of_log hobs.state hobs.config hobs.order fun x hx => Or.inl ?_
  rw [← hobs.log]
  exact mem_clear _ x (mem_anchor _ _ _ x hx)

lemma CleanMove.of_snapshot : CleanMove nd nd.createSnapshotIfNeeded := by
  have hs : CleanMove nd (nd.createSnapshot nd.lastApplied) :=
    .of_log rfl rfl rfl (fun x hx => Or.inl (mem_compact _ _ _ x hx))
  unfold createSnapshotIfNeeded
  split_ifs
  · exact .refl nd
  · dsimp only
    split_ifs
    · exact hs.trans (.of_log rfl rfl rfl (fun x hx => Or.inl hx))
    · exact hs

variable [DecidableEq N]

lemma CleanMove.of_advance : CleanMove nd nd.advanceCommitIndexLocked := by
  obtain ⟨c, h⟩ := advanceCommitIndexLocked_eq nd
  rw [h]; exact .of_log rfl rfl rfl (fun x hx => Or.inl hx)

lemma CleanMove.of_commitAndApply :
    CleanMove nd nd.advanceCommitIndexLocked.maybeAutoFinalizeJointLocked.applyCommittedLogsLocked := by
  refine (CleanMove.of_advance nd).trans (CleanMove.trans (fun hc => ?_) (.of_apply _))
  -- a stable node has nothing to finalize
  rcases maybeAutoFinalizeJointLocked_spec nd.advanceCommitIndexLocked with h | ⟨h, -⟩
  · rw [h]; exact ⟨hc, rfl, rfl⟩
  · rw [hc.state] at h; cases h

lemma CleanMove.of_replicateFinish (currentTerm : ℕ) (rsps : List (PeerReq N C × PeerRsp)) :
    CleanMove nd (nd.replicateFinish currentTerm rsps).1 := by
  rcases replicateFinish_spec nd currentTerm rsps with h | ⟨t, -, h⟩ | ⟨-, -, h⟩
  · rw [h]; exact .refl nd
  · rw [h]; exact .of_data (becomeFollowerLocked_data nd t)
  · rw [h]; exact (CleanMove.of_data (foldl_recordPeerRsp_only rsps nd).data).trans (.of_commitAndApply _)

lemma CleanMove.of_replicateAlone : CleanMove nd nd.replicateAlone := by
  unfold replicateAlone
  split_ifs
  · exact .refl nd
  · exact .of_commitAndApply nd

lemma CleanMove.of_heartbeatFinish (isLoop : Bool) (epoch ackCount : ℕ) (rspLastLog : List (N × ℕ)) (maxPeerTerm : ℕ) :
    CleanMove nd (nd.heartbeatFinish isLoop epoch ackCount rspLastLog maxPeerTerm).1 := by
  rcases heartbeatFinish_spec nd isLoop epoch ackCount rspLastLog maxPeerTerm with h | ⟨-, h⟩ | ⟨-, -, h⟩
  · rw [h]; exact .refl nd
  · rw [h]; exact .of_data (becomeFollowerLocked_data nd _)
  · exact (CleanMove.of_data (recordHeartbeatAcks_only nd rspLastLog).data).trans
      ((CleanMove.of_advance _).trans (.of_data h.data))

end

/-! ## The cluster -/

structure ClientOk (f : Fiber N C) : Prop where
  todo : ∀ r, f.pc = .replicate r → ∀ p ∈ r.todo, ∀ e ∈ p.entries, RaftNode.isClient e
  sent : ∀ env, f.rpc = some env → env.request.Client

lemma ClientOk.inert (h : f.Inert) : ClientOk f := by
  refine ⟨fun r hr => ?_, fun env he => ?_⟩
  · have := h.pc; rw [hr] at this; exact this.elim
  · have := h.rpc env he
    revert this
    cases env.request <;> simp [Request.inert, Request.Client]

lemma ClientOk.like {f g : Fiber N C} (hl : f.Like g) (h : ClientOk g) : ClientOk f :=
  ⟨fun r hr => h.todo r (by rw [← hl.pc]; exact hr), fun env he => h.sent env (by rw [← hl.rpc]; exact he)⟩

lemma ClientOk.idle (hp : ∀ r, f.pc ≠ .replicate r) (hr : f.rpc = none) : ClientOk f :=
  ⟨fun r h => absurd h (hp r), fun env h => by simp [hr] at h⟩

lemma ClientOk.answer (h : ClientOk f) (dst : N) (rsp : Response) :
    ClientOk { f with pc := f.pc.onRsp dst rsp, rpc := none } := by
  refine ⟨fun r hr => ?_, nofun⟩
  have hon : ∀ (r0 : ReplicateRound N C) g, f.pc = .replicate r0 →
      ∀ p ∈ (r0.onRsp g).todo, ∀ e ∈ p.entries, RaftNode.isClient e := by
    intro r0 g h0 p hp
    unfold ReplicateRound.onRsp at hp
    split at hp
    · exact h.todo r0 h0 p hp
    · rename_i x rest hx; exact h.todo r0 h0 p (by rw [hx]; exact mem_cons_of_mem _ hp)
  cases hf : f.pc with
  | replicate r0 =>
    simp only [hf] at hr
    cases rsp with
    | appendEntries | installSnapshot => simp only [Pc.onRsp, Pc.replicate.injEq] at hr; rw [← hr]; exact hon r0 _ hf
    | _ => simp only [Pc.onRsp, Pc.replicate.injEq] at hr; rw [← hr]; exact h.todo r0 hf
  | _ => simp only [hf] at hr; cases rsp <;> simp [Pc.onRsp] at hr

def Action.FixedMembership [LogStorage N C L] [LawfulLog N C L] : Action N C L → Prop
  | .call _ (.beginConfigChange _) => False
  | .call _ (.submitEntry command) => command.isClient
  | .restart n r => (∀ m, m ∈ r.clusterConfig.voters.ids ↔ m ≠ n) ∧ ∀ e ∈ entries r.log, RaftNode.isClient e
  | _ => True

namespace Cluster

variable [DecidableEq N] [LogStorage N C L] [LawfulLog N C L] {s s' : Cluster N C L} {a : Action N C L}

structure FixedNode (n : N) (nd : RaftNode N C L) : Prop where
  clean : Clean nd
  voters : ∀ m, m ∈ nd.clusterConfig.voters.ids ↔ m ≠ n

lemma FixedNode.move {n : N} {nd nd' : RaftNode N C L} (h : FixedNode n nd) (hm : CleanMove nd nd') :
    FixedNode n nd' :=
  ⟨(hm h.clean).1, by rw [(hm h.clean).2.1]; exact h.voters⟩

structure Fixed (s : Cluster N C L) : Prop where
  nodes : ∀ n, FixedNode n (s.nodes n)
  fibers : ∀ f ∈ s.fibers, ClientOk f
  net : ∀ x ∈ s.net, x.2.Client

lemma trans_clean (h : Fixed s) (ha : a.FixedMembership) (ht : Trans s a s') (m : N) :
    CleanMove (s.nodes m) (s'.nodes m) ∨ ∃ r, a = .restart m r ∧ s'.nodes m = restartNode (s.nodes m) r := by
  have hsent := fun f hf env he => (h.fibers f hf).sent env he
  cases ht.node m with
  | kept _ h => exact Or.inl (.of_data h.data)
  | applied _ _ _ _ _ eq => rw [eq]; exact Or.inl (.of_apply _)
  | persisted _ _ _ _ _ eq =>
    rw [eq]
    exact Or.inl (.of_log rfl rfl rfl (fun x hx => Or.inl (by rwa [persist_eq] at hx)))
  | campaign _ h => exact Or.inl (.of_data h.data)
  | boot _ _ _ _ hm hl =>
    refine Or.inl (CleanMove.trans ?_ (.of_data hl.data))
    rcases hm with ⟨-, rfl⟩ | hc
    · exact .refl _
    · exact .of_data hc.data
  | wins _ _ _ _ _ _ _ _ h => exact Or.inl (.of_data h.leads.data)
  | countBeats _ _ _ _ _ _ _ _ eq => rw [eq]; exact Or.inl (.of_heartbeatFinish _ _ _ _ _ _)
  | append _ _ eq =>
    rw [eq]
    refine Or.inl (.of_log rfl rfl rfl fun x hx => (mem_append _ _ _ x hx).imp_right ?_)
    rintro ⟨i, rfl⟩
    exact ha
  | refresh _ eq => rw [eq]; exact Or.inl (.of_data (refreshPeers_only _).data)
  | countAppends _ _ _ _ _ _ eq => rw [eq]; exact Or.inl (.of_replicateFinish _ _ _)
  | alone _ _ _ _ eq => rw [eq]; exact Or.inl (.of_replicateAlone _)
  | config => exact ha.elim
  | snapshot eq => rw [eq]; exact Or.inl (.of_snapshot _)
  | grants _ _ _ h => exact Or.inl (.of_data h.data)
  | beaten _ req _ eq => rw [eq]; exact Or.inl (.of_heartbeat _ req)
  | adopts _ req hd eq =>
    rw [eq]
    exact Or.inl (.of_appendEntries _ req (delivered_forall (P := fun _ r => r.Client) hsent h.net hd))
  | installs _ req _ eq => rw [eq]; exact Or.inl (.of_installSnapshot _ req)
  | restart r eq => exact Or.inr ⟨r, rfl, eq⟩

lemma fixed_nodes (hf : ∀ n, FileOk (s.nodes n)) (h : Fixed s) (ha : a.FixedMembership) (ht : Trans s a s') (m : N) :
    FixedNode m (s'.nodes m) := by
  rcases trans_clean h ha ht m with hm | ⟨r, rfl, he⟩
  · exact (h.nodes m).move hm
  · -- the configuration state is read back from `meta.json`
    rw [he]
    exact ⟨⟨(hf m).state.trans (h.nodes m).clean.state, ha.2⟩, ha.1⟩

lemma fixed_fibers (h : Fixed s) (ht : Trans s a s') : ∀ f ∈ s'.fibers, ClientOk f := by
  have hmem : ∀ {k : ℕ} {f : Fiber N C}, s.fibers[k]? = some f → ClientOk f :=
    fun hk => h.fibers _ (mem_of_getElem? hk)
  intro f hf
  replace hf := ht.fiber f hf
  cases hf with
  | like _ _ g hg hl => exact (h.fibers g hg).like hl
  | inert _ _ hi => exact .inert hi
  | elect => exact .idle (by simp [electionFiber]) rfl
  | sendVote _ _ _ _ he =>
    refine ⟨fun r hr => by simp [he] at hr, fun env henv => ?_⟩
    rw [← some.inj henv]; trivial
  | stopVotes _ _ _ hr => exact .idle (by simp) hr
  | beat => exact .idle (by simp) rfl
  | sendBeat _ _ _ _ he =>
    refine ⟨fun r hr => by simp [he] at hr, fun env henv => ?_⟩
    rw [← some.inj henv]; trivial
  | stopBeats _ _ _ hr => exact .idle (by simp) hr
  | round _ f _ hr =>
    refine ⟨fun r hr p hp e he => ?_, fun env henv => by simp [hr] at henv⟩
    simp only [Pc.replicate.injEq] at hr
    rw [← hr] at hp
    simp only [mem_filterMap, map_eq_some_iff] at hp
    obtain ⟨i, -, id, -, rfl⟩ := hp
    -- the entries of a request come out of the sender's log
    have hlog := (refreshPeers_only (s.nodes f.owner)).data.log
    unfold buildPeerReq at he
    dsimp only at he
    split_ifs at he
    · simp at he
    · exact (h.nodes f.owner).clean.log e (by rw [← hlog]; exact mem_range _ _ _ e he)
    · exact (h.nodes f.owner).clean.log e (by rw [← hlog]; exact mem_range _ _ _ e he)
  | sendAppend _ _ hk _ r he p _ htodo _ hreq =>
    have hp := (hmem hk).todo r he
    refine ⟨(hmem hk).todo, fun env henv => ?_⟩
    rw [← some.inj henv]
    unfold buildRequest at hreq
    split_ifs at hreq
    · obtain ⟨data, -, rfl⟩ := map_eq_some_iff.1 hreq; trivial
    · rw [← some.inj hreq]; exact hp p (by rw [htodo]; exact mem_cons_self)
  | skipPeers _ _ hk hr r he _ htodo =>
    refine ⟨fun r' hr' p hp => ?_, fun env henv => by simp [hr] at henv⟩
    simp only [Pc.replicate.injEq] at hr'
    rw [← hr'] at hp
    exact (hmem hk).todo r he p (htodo.subset hp)
  | noSnapshot _ _ hk hr r he _ _ htodo =>
    refine ⟨fun r' hr' q hq => ?_, fun env henv => by simp [hr] at henv⟩
    simp only [Pc.replicate.injEq] at hr'
    rw [← hr'] at hq
    exact (hmem hk).todo r he q (by rw [htodo]; exact mem_cons_of_mem _ hq)
  | answer _ f hf env _ rsp => exact (h.fibers f hf).answer env.dst rsp
  | deliver _ _ hk dst req hr =>
    refine ⟨(hmem hk).todo, fun env henv => ?_⟩
    rw [← some.inj henv]; exact (hmem hk).sent ⟨dst, req, none⟩ hr

lemma fixed_net (h : Fixed s) (ht : Trans s a s') : ∀ x ∈ s'.net, x.2.Client :=
  ht.net_forall (P := fun _ r => r.Client) h.net (fun f hf env he => (h.fibers f hf).sent env he)

theorem fixed_step (hf : ∀ n, FileOk (s.nodes n)) (h : Fixed s) (ha : a.FixedMembership) (ht : Trans s a s') :
    Fixed s' :=
  ⟨fixed_nodes hf h ha ht, fixed_fibers h ht, fixed_net h ht⟩

lemma fixed_init (config : N → ClusterConfig N) (hv : ∀ n m, m ∈ (config n).voters.ids ↔ m ≠ n) :
    Fixed (init config : Cluster N C L) :=
  ⟨fun n => ⟨⟨rfl, fun e he => by simp [init, entries_empty] at he⟩, hv n⟩, fun f hf => by simp [init] at hf,
    fun x hx => by simp [init] at hx⟩

end Cluster

/-! ## Majorities -/

section
variable [Fintype N]

def Majority (q : Finset N) : Prop := Fintype.card N < 2 * q.card

lemma Majority.meet [DecidableEq N] {p q : Finset N} (hp : Majority p) (hq : Majority q) : ∃ v ∈ p, v ∈ q := by
  by_contra hn
  push Not at hn
  have hd : Disjoint p q := Finset.disjoint_left.2 hn
  have hle := Finset.card_le_univ (p ∪ q)
  rw [Finset.card_union_of_disjoint hd] at hle
  unfold Majority at hp hq
  omega

variable [DecidableEq N] [LogStorage N C L] [LawfulLog N C L]

lemma Cluster.FixedNode.card {n : N} {nd : RaftNode N C L} (h : Cluster.FixedNode n nd) :
    nd.clusterConfig.voters.ids.length + 1 = Fintype.card N := by
  have hcard : nd.clusterConfig.voters.ids.toFinset = Finset.univ.erase n := by
    ext m
    simp [h.voters m]
  have hl := toFinset_card_of_nodup nd.clusterConfig.voters.nodup
  have hpos : 0 < Fintype.card N := Fintype.card_pos_iff.2 ⟨n⟩
  rw [hcard, Finset.card_erase_of_mem (Finset.mem_univ n), Finset.card_univ] at hl
  omega

lemma Majority.of_list {n : N} {l : List N} (hn : (n :: l).Nodup) {k : ℕ} (hk : k + 1 = Fintype.card N)
    (hl : (k + 1) / 2 + 1 ≤ l.length + 1) : Majority (n :: l).toFinset := by
  unfold Majority
  rw [toFinset_card_of_nodup hn, length_cons]
  omega

end

end MaxRedis.Raft

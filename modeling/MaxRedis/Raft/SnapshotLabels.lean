/-
The label of a snapshot that `ReplicateLog` sends.

Phase 1 of a round captures the index of the node's snapshot under the lock; the file is read when the request is sent,
without it.
-/
import MaxRedis.Raft.Snapshots

namespace MaxRedis.Raft

variable {N C : Type}

open LogStorage LawfulLog RaftNode List

def Pc.labels {N C : Type} : Pc N C → List ℕ
  | .replicate r => (r.todo.filter PeerReq.needSnapshot).map PeerReq.snapshotIndex
  | _ => []

lemma Pc.inert.labels {pc : Pc N C} (h : pc.inert) : pc.labels = [] := by
  cases pc with
  | replicate => exact h.elim
  | _ => rfl

lemma Pc.labels_sublist {r r' : ReplicateRound N C} (h : List.Sublist r'.todo r.todo) :
    (Pc.replicate r').labels ⊆ (Pc.replicate r : Pc N C).labels :=
  ((h.filter _).map _).subset

lemma Pc.labels_onRsp (pc : Pc N C) (peer : N) (rsp : Response) :
    (pc.onRsp peer rsp).labels ⊆ pc.labels := by
  have hround : ∀ (r : ReplicateRound N C) (g : PeerReq N C → PeerRsp),
      (Pc.replicate (r.onRsp g)).labels ⊆ (Pc.replicate r : Pc N C).labels := by
    intro r g
    unfold ReplicateRound.onRsp
    split
    · exact List.Subset.refl _
    · rename_i p rest hr
      exact Pc.labels_sublist (by rw [hr]; exact sublist_cons_self p rest)
  cases pc with
  | replicate r =>
    cases rsp with
    | appendEntries | installSnapshot => exact hround r _
    | _ => exact List.Subset.refl _
  | timeoutSend =>
    cases rsp with
    | _ => exact List.Subset.refl _
  | election => cases rsp with | _ => exact List.Subset.refl _
  | heartbeat => cases rsp with | _ => exact List.Subset.refl _
  | readIndex => cases rsp with | _ => exact List.Subset.refl _
  | _ => exact List.Subset.refl _

namespace Cluster

variable {N C L : Type} [DecidableEq N] [LogStorage N C L]
variable {s s' : Cluster N C L} {a : Action N C L} {f : Fiber N C} (nd : RaftNode N C L) {n : N}

/-- what a step does to a fiber, as far as snapshots go: a label it holds was held before or is captured now, a snapshot
request was there before or is made now from a label and the file -/
structure FiberStep (s : Cluster N C L) (a : Action N C L) (f : Fiber N C) : Prop where
  labels : ∀ i ∈ f.pc.labels, (∃ g ∈ s.fibers, g.owner = f.owner ∧ i ∈ g.pc.labels) ∨
    ((∃ k, a = .advance k) ∧ i = (s.nodes f.owner).lastSnapshotIndex ∧ 0 < i)
  sent : ∀ env req, f.rpc = some env → env.request = .installSnapshot req →
    (∃ g ∈ s.fibers, g.owner = f.owner ∧ ∃ env', g.rpc = some env' ∧ env'.request = .installSnapshot req) ∨
    (∃ g ∈ s.fibers, g.owner = f.owner ∧ req.lastIncludedIndex ∈ g.pc.labels ∧
      (s.nodes f.owner).snapshotBin = some req.data)

lemma FiberStep.of_old {f g : Fiber N C} (hg : g ∈ s.fibers) (ho : g.owner = f.owner) (hl : f.pc.labels ⊆ g.pc.labels)
    (hr : ∀ env req, f.rpc = some env → env.request = .installSnapshot req →
      ∃ env', g.rpc = some env' ∧ env'.request = .installSnapshot req) : FiberStep s a f :=
  ⟨fun _ hi => Or.inl ⟨g, hg, ho, hl hi⟩, fun env req he hq => Or.inl ⟨g, hg, ho, hr env req he hq⟩⟩

lemma FiberStep.fresh (hl : f.pc.labels = [])
    (hr : ∀ env req, f.rpc = some env → env.request ≠ .installSnapshot req) : FiberStep s a f :=
  ⟨fun _ hi => by rw [hl] at hi; simp at hi, fun env req he hq => absurd hq (hr env req he)⟩

lemma FiberStep.of_inert (h : f.Inert) : FiberStep s a f := by
  refine .fresh h.pc.labels (fun env req he hq => ?_)
  have hin := h.rpc env he
  rw [hq] at hin
  exact hin

lemma FiberStep.pc {k : ℕ} (hk : s.fibers[k]? = some f) (hr : f.rpc = none) {pc : Pc N C}
    (hl : pc.labels ⊆ f.pc.labels) : FiberStep s a { f with pc := pc } :=
  .of_old (mem_of_getElem? hk) rfl hl (fun env req he _ => by simp [hr] at he)

lemma buildPeerReq_label (id : N) (i : ℕ) (h : (nd.buildPeerReq id i).needSnapshot = true) :
    (nd.buildPeerReq id i).snapshotIndex = nd.lastSnapshotIndex ∧ 0 < nd.lastSnapshotIndex := by
  unfold buildPeerReq at h ⊢
  dsimp only at h ⊢
  split_ifs at h ⊢ with hs
  simp only [shouldInstallSnapshot, decide_eq_true_eq] at hs
  exact ⟨rfl, hs.1⟩

lemma buildRequest_snapshot {nd : RaftNode N C L} {t : ℕ} {p : PeerReq N C} {req : InstallSnapshotRequest N C}
    (h : buildRequest nd t p = some (.installSnapshot req)) :
    p.needSnapshot = true ∧ req.lastIncludedIndex = p.snapshotIndex ∧ nd.snapshotBin = some req.data := by
  unfold buildRequest at h
  split_ifs at h with hp
  · obtain ⟨data, hd, he⟩ := Option.map_eq_some_iff.1 h
    cases he
    exact ⟨hp, rfl, hd⟩
  · cases h

lemma trans_fiberStep [LawfulLog N C L] (ht : Trans s a s') : ∀ f ∈ s'.fibers, FiberStep s a f := by
  intro f hf
  replace hf := ht.fiber f hf
  cases hf with
  | like _ _ _ hg hl =>
    exact .of_old hg hl.owner.symm (by rw [hl.pc]; exact List.Subset.refl _)
      (fun env req he hq => ⟨env, by rw [← hl.rpc]; exact he, hq⟩)
  | inert _ _ hi => exact .of_inert hi
  | elect => exact .fresh rfl (fun env req he => by simp [electionFiber] at he)
  | sendVote _ _ _ _ he =>
    refine .fresh (by rw [he]; rfl) (fun env req henv => ?_)
    cases henv
    simp
  | stopVotes _ _ hk hr => exact .pc hk hr (by simp [Pc.labels])
  | beat => exact .fresh rfl (fun _ _ h => by simp at h)
  | sendBeat _ _ _ _ he =>
    refine .fresh (by rw [he]; rfl) (fun env req henv => ?_)
    cases henv
    simp
  | stopBeats _ _ hk hr => exact .pc hk hr (by simp [Pc.labels])
  | round k f _ hr =>
    refine ⟨fun i hi => ?_, fun env req he => by simp [hr] at he⟩
    -- every label is the node's snapshot index now
    obtain ⟨p, hp, rfl⟩ := mem_map.1 hi
    obtain ⟨hp, hneed⟩ := mem_filter.1 hp
    obtain ⟨j, -, hj⟩ := mem_filterMap.1 hp
    obtain ⟨id, -, rfl⟩ := Option.map_eq_some_iff.1 hj
    obtain ⟨h1, h2⟩ := buildPeerReq_label _ id j hneed
    have hsnap := (refreshPeers_only (s.nodes f.owner)).data.snap
    exact Or.inr ⟨⟨k, rfl⟩, h1.trans hsnap, by rw [h1]; exact h2⟩
  | sendAppend _ f hk _ _ he _ _ htodo req hreq =>
    refine ⟨fun i hi => Or.inl ⟨f, mem_of_getElem? hk, rfl, hi⟩, fun env q henv hq => ?_⟩
    cases henv
    obtain rfl : req = .installSnapshot q := hq
    obtain ⟨hneed, hidx, hbin⟩ := buildRequest_snapshot hreq
    refine Or.inr ⟨f, mem_of_getElem? hk, rfl, ?_, hbin⟩
    rw [he, hidx]
    simp [Pc.labels, htodo, hneed]
  | skipPeers _ _ hk hr _ he _ htodo =>
    refine .pc hk hr ?_
    rw [he]
    exact Pc.labels_sublist htodo.sublist
  | noSnapshot _ _ hk hr _ he p rest htodo =>
    refine .pc hk hr ?_
    rw [he]
    exact Pc.labels_sublist (by rw [htodo]; exact sublist_cons_self p rest)
  | answer _ f hf env _ rsp =>
    exact .of_old hf rfl (f.pc.labels_onRsp env.dst rsp) (fun _ _ h => by simp at h)
  | deliver _ _ hk _ _ hr =>
    refine .of_old (mem_of_getElem? hk) rfl (List.Subset.refl _) (fun env q he hq => ?_)
    cases he
    exact ⟨_, hr, hq⟩

/-! ## The run -/

def heldLabels (s : Cluster N C L) (n : N) : List ℕ :=
  s.fibers.flatMap (fun f => if f.owner = n then f.pc.labels else [])

lemma mem_heldLabels (hf : f ∈ s.fibers) (ho : f.owner = n) {i : ℕ} (hi : i ∈ f.pc.labels) :
    i ∈ s.heldLabels n :=
  mem_flatMap.2 ⟨f, hf, by rw [if_pos ho]; exact hi⟩

/-- the file `snapshot.bin` of node `n` is replaced only while no round of the node holds the label of another snapshot.
A snapshot of its own is taken of applied entries that are still in the log; the node is not restarted. -/
def labelsKept (n : N) (s : Cluster N C L) (a : Action N C L) : Bool :=
  let nd := s.nodes n
  match s.delivered a with
  | some (dst, .installSnapshot req) =>
    dst ≠ n || req.term < nd.term || (s.heldLabels n).all (· = req.lastIncludedIndex)
  | _ =>
    match a with
    | .call m .createSnapshotIfNeeded =>
      m ≠ n || lastIndex nd.log < nd.snapshotMeta.index + nd.logGap ||
        (0 < nd.lastApplied && nd.lastApplied ≤ lastIndex nd.log && nd.lastSnapshotIndex ≤ nd.lastApplied &&
          (s.heldLabels n).all (· = nd.lastApplied))
    | .restart m _ => m ≠ n
    | _ => true

/-- `seen i d`: at some moment the node's apply index was `i` and its state machine was `d` -/
structure Labelled (seen : ℕ → List (LogEntry N C) → Prop) (n : N) (s : Cluster N C L) : Prop where
  bin : 0 < (s.nodes n).lastSnapshotIndex →
    ∃ d, (s.nodes n).snapshotBin = some d ∧ seen (s.nodes n).lastSnapshotIndex d
  held : ∀ f ∈ s.fibers, f.owner = n → ∀ i ∈ f.pc.labels, i = (s.nodes n).lastSnapshotIndex ∧ 0 < i
  sent : ∀ f ∈ s.fibers, f.owner = n → ∀ env req, f.rpc = some env → env.request = .installSnapshot req →
    seen req.lastIncludedIndex req.data

lemma Labelled.mono {seen seen' : ℕ → List (LogEntry N C) → Prop} (h : Labelled seen n s)
    (hs : ∀ i d, seen i d → seen' i d) : Labelled seen' n s := by
  refine ⟨fun h0 => ?_, h.held, fun f hf ho env req he hq => hs _ _ (h.sent f hf ho env req he hq)⟩
  obtain ⟨d, hd, hseen⟩ := h.bin h0
  exact ⟨d, hd, hs _ _ hseen⟩

lemma moves_snapshot [LawfulLog N C L] {nd nd' : RaftNode N C L} (h : Moves nd nd') :
    nd'.lastSnapshotIndex = nd.lastSnapshotIndex ∧ nd'.snapshotBin = nd.snapshotBin := by
  refine Moves.invariant (P := fun x => x.lastSnapshotIndex = nd.lastSnapshotIndex ∧ x.snapshotBin = nd.snapshotBin)
    (fun a b hm hp => ?_) h ⟨rfl, rfl⟩
  cases hm with
  | append => exact hp
  | settle hm =>
    cases hm with
    | keep hs => exact ⟨hs.snap.trans hp.1, hs.bin.trans hp.2⟩
    | commit | persist => exact hp
    | apply =>
      have happ := applyCommittedLogsLocked_applies a
      exact ⟨happ.snap.trans hp.1, happ.bin.trans hp.2⟩

lemma onAppendEntries_snapshot [LawfulLog N C L] (req : AppendEntriesRequest N C) :
    (nd.onAppendEntries req).1.lastSnapshotIndex = nd.lastSnapshotIndex ∧
    (nd.onAppendEntries req).1.snapshotBin = nd.snapshotBin := by
  have hd := observe_data nd req.term
  rcases onAppendEntries_spec nd req with ⟨-, h⟩ | ⟨-, ⟨hint, h⟩ | ⟨-, -, log, ⟨-, h⟩ | ⟨-, h⟩⟩⟩
  · rw [h]; exact ⟨rfl, rfl⟩
  · rw [h]; exact ⟨hd.snap, hd.bin⟩
  · rw [h]; exact ⟨hd.snap, hd.bin⟩
  · rw [h]
    unfold commitFromLeader
    split_ifs
    · have happ := applyCommittedLogsLocked_applies
        { { nd.observe req.term with log := truncateTail log req.entries } with
          commitIndex := min req.leaderCommit (lastIndex (truncateTail log req.entries)) }
      exact ⟨happ.snap.trans hd.snap, happ.bin.trans hd.bin⟩
    · exact ⟨hd.snap, hd.bin⟩

lemma createSnapshotIfNeeded_eq (hdue : ¬ lastIndex nd.log < nd.snapshotMeta.index + nd.logGap)
    (hpos : 0 < nd.lastApplied) (hin : nd.lastApplied ≤ lastIndex nd.log)
    (hsnap : nd.lastSnapshotIndex ≤ nd.lastApplied) : nd.createSnapshotIfNeeded.lastSnapshotIndex = nd.lastApplied ∧
    nd.createSnapshotIfNeeded.snapshotBin = some nd.stateMachine := by
  have hbound : (if 0 < nd.lastApplied then min nd.lastApplied (lastIndex nd.log) else lastIndex nd.log) =
    nd.lastApplied := by
    rw [if_pos hpos, min_eq_left hin]
  have hmeta : (nd.createSnapshot nd.lastApplied).snapshotMeta.index = nd.lastApplied := hbound
  have hbin : (nd.createSnapshot nd.lastApplied).snapshotBin = some nd.stateMachine := rfl
  have hold : (nd.createSnapshot nd.lastApplied).lastSnapshotIndex = nd.lastSnapshotIndex := rfl
  unfold createSnapshotIfNeeded
  rw [if_neg hdue]
  by_cases h : (nd.createSnapshot nd.lastApplied).lastSnapshotIndex <
    (nd.createSnapshot nd.lastApplied).snapshotMeta.index
  · rw [if_pos h]; exact ⟨hmeta, hbin⟩
  · rw [if_neg h]
    rw [hmeta] at h
    exact ⟨hold.trans (le_antisymm hsnap (Nat.not_lt.1 h)), hbin⟩

lemma step_snapshot [LawfulLog N C L] (hok : labelsKept n s a = true) :
    (((s.step a).nodes n).lastSnapshotIndex = (s.nodes n).lastSnapshotIndex ∧
      ((s.step a).nodes n).snapshotBin = (s.nodes n).snapshotBin) ∨
    ((∀ k, a ≠ .advance k) ∧ (∀ i ∈ s.heldLabels n, i = ((s.step a).nodes n).lastSnapshotIndex) ∧
      ∃ d, ((s.step a).nodes n).snapshotBin = some d ∧
        ((((s.step a).nodes n).lastSnapshotIndex = (s.nodes n).lastApplied ∧ d = (s.nodes n).stateMachine) ∨
          (((s.step a).nodes n).lastSnapshotIndex = ((s.step a).nodes n).lastApplied ∧
            d = ((s.step a).nodes n).stateMachine))) := by
  generalize hnd : (s.step a).nodes n = nd'
  have hstep := step_nodeStep s a n
  rw [hnd] at hstep
  cases hstep with
  | turn ht => exact Or.inl (moves_snapshot ht.moves)
  | adopt req _ heq => rw [heq]; exact Or.inl (onAppendEntries_snapshot _ req)
  | install req hd heq =>
    rcases Nat.lt_or_ge req.term (s.nodes n).term with hlt | hge
    · have hsame : nd' = s.nodes n := by rw [heq]; unfold onInstallSnapshot; rw [if_pos hlt]
      rw [hsame]; exact Or.inl ⟨rfl, rfl⟩
    · refine Or.inr ⟨fun k ha => ?_, ?_⟩
      · rw [ha] at hd; simp [delivered] at hd
      simp only [labelsKept, hd, Bool.or_eq_true, decide_eq_true_eq, all_eq_true] at hok
      have hheld : ∀ i ∈ s.heldLabels n, i = req.lastIncludedIndex := by
        rcases hok with (hne | hlt) | hall
        · exact absurd rfl hne
        · omega
        · exact hall
      rw [heq, onInstallSnapshot_eq _ req hge]
      exact ⟨hheld, req.data, rfl, Or.inr ⟨rfl, rfl⟩⟩
  | snapshot ha heq =>
    subst ha
    simp only [labelsKept, delivered, Bool.or_eq_true, Bool.and_eq_true, decide_eq_true_eq, all_eq_true] at hok
    by_cases hdue : lastIndex (s.nodes n).log < (s.nodes n).snapshotMeta.index + (s.nodes n).logGap
    · have hsame : nd' = s.nodes n := by rw [heq]; unfold createSnapshotIfNeeded; rw [if_pos hdue]
      rw [hsame]; exact Or.inl ⟨rfl, rfl⟩
    · rcases hok with (hne | hlt) | ⟨⟨⟨hpos, hin⟩, hsnap⟩, hall⟩
      · exact absurd rfl hne
      · exact absurd hlt hdue
      · obtain ⟨h1, h2⟩ := createSnapshotIfNeeded_eq (s.nodes n) hdue hpos hin hsnap
        rw [heq]
        refine Or.inr ⟨fun _ h => (by cases h), fun i hi => ?_, _, h2, Or.inl ⟨h1, rfl⟩⟩
        rw [h1]; exact hall i hi
  | restart _ ha => subst ha; simp [labelsKept, delivered] at hok

lemma step_labelled [LawfulLog N C L] {seen : ℕ → List (LogEntry N C) → Prop} (hok : labelsKept n s a = true)
    (h : Labelled seen n s) (hnow : seen (s.nodes n).lastApplied (s.nodes n).stateMachine)
    (hnext : seen ((s.step a).nodes n).lastApplied ((s.step a).nodes n).stateMachine) : Labelled seen n (s.step a) := by
  have hfib := trans_fiberStep (step_trans s a)
  have hsent : ∀ f ∈ (s.step a).fibers, f.owner = n → ∀ env req, f.rpc = some env → env.request = .installSnapshot req →
      seen req.lastIncludedIndex req.data := by
    intro f hf ho env req he hq
    rcases (hfib f hf).sent env req he hq with ⟨g, hg, hgo, env', he', hq'⟩ | ⟨g, hg, hgo, hlabel, hbin⟩
    · exact h.sent g hg (hgo.trans ho) env' req he' hq'
    · -- sent now: the label is the index of the snapshot in the file
      obtain ⟨hidx, hpos⟩ := h.held g hg (hgo.trans ho) _ hlabel
      obtain ⟨d, hd, hseen⟩ := h.bin (by rw [← hidx]; exact hpos)
      rw [ho, hd] at hbin
      rw [hidx, ← Option.some.inj hbin]
      exact hseen
  rcases step_snapshot hok with ⟨hsnap, hbin⟩ | ⟨hna, hheld, d, hbin, hd⟩
  · refine ⟨fun h0 => ?_, fun f hf ho i hi => ?_, hsent⟩
    · rw [hsnap] at h0 ⊢
      rw [hbin]
      exact h.bin h0
    · rw [hsnap]
      rcases (hfib f hf).labels i hi with ⟨g, hg, hgo, hgi⟩ | ⟨-, hidx, hpos⟩
      · exact h.held g hg (hgo.trans ho) i hgi
      · exact ⟨by rw [hidx, ho], hpos⟩
  · refine ⟨fun _ => ⟨d, hbin, ?_⟩, fun f hf ho i hi => ?_, hsent⟩
    · rcases hd with ⟨h1, h2⟩ | ⟨h1, h2⟩
      · rw [h1, h2]; exact hnow
      · rw [h1, h2]; exact hnext
    · rcases (hfib f hf).labels i hi with ⟨g, hg, hgo, hgi⟩ | ⟨⟨k, hk⟩, -⟩
      · exact ⟨hheld i (mem_heldLabels hg (hgo.trans ho) hgi), (h.held g hg (hgo.trans ho) i hgi).2⟩
      · exact absurd hk (hna k)

/-- **A snapshot is labelled with what it contains.** -/
theorem snapshot_labelled [LawfulLog N C L] (config : N → ClusterConfig N) (gap : N → ℕ) (n : N)
    (as : List (Action N C L)) (hok : along (labelsKept n) (initGap config gap) as = true) (f : Fiber N C)
    (hf : f ∈ (run (initGap config gap) as).fibers) (ho : f.owner = n) (env : Envelope N C) (he : f.rpc = some env)
    (req : InstallSnapshotRequest N C) (hq : env.request = .installSnapshot req) :
    ∃ pre, pre <+: as ∧ ((run (initGap config gap : Cluster N C L) pre).nodes n).lastApplied = req.lastIncludedIndex ∧
      ((run (initGap config gap : Cluster N C L) pre).nodes n).stateMachine = req.data := by
  -- the invariant, for the moments of the run so far
  have hrun : ∀ as : List (Action N C L), along (labelsKept n) (initGap config gap) as = true →
      Labelled (fun i d => ∃ pre,
      pre <+: as ∧ ((run (initGap config gap : Cluster N C L) pre).nodes n).lastApplied = i ∧
        ((run (initGap config gap : Cluster N C L) pre).nodes n).stateMachine = d) n (run (initGap config gap) as) := by
    intro as
    induction as using reverseRecOn with
    | nil =>
      intro _
      exact ⟨fun h0 => absurd h0 (lt_irrefl 0), by simp [run, initGap], by simp [run, initGap]⟩
    | append_singleton as a ih =>
      intro hok
      rw [along_append, Bool.and_eq_true] at hok
      have hstep : run (initGap config gap) (as ++ [a]) = (run (initGap config gap : Cluster N C L) as).step a := by
        rw [run_append]; rfl
      have hlast : labelsKept n (run (initGap config gap) as) a = true := by
        have := hok.2
        simp only [along, Bool.and_true] at this
        exact this
      rw [hstep]
      refine step_labelled hlast ((ih hok.1).mono (fun i d hseen => ?_)) ?_ ?_
      · obtain ⟨pre, hpre, h1, h2⟩ := hseen
        exact ⟨pre, hpre.trans (prefix_append _ _), h1, h2⟩
      · exact ⟨as, prefix_append _ _, rfl, rfl⟩
      · exact ⟨as ++ [a], prefix_refl _, by rw [hstep], by rw [hstep]⟩
  exact (hrun as hok).sent f hf ho env req he hq

/-- the round sends the snapshot that it has captured -/
theorem snapshot_labelled_round : ∃ pre, pre <+: snapshotRound ++ [.advance 4] ∧
      ((run (initGap (othersConfig 3) (fun _ => 1)) pre).nodes 0).lastApplied = 1 ∧
      ((run (initGap (othersConfig 3) (fun _ => 1)) pre).nodes 0).stateMachine = [⟨1, 1, .client 10⟩] :=
  snapshot_labelled (othersConfig 3) (fun _ => 1) 0 (snapshotRound ++ [.advance 4]) (by decide +kernel)
    (((run (initGap (othersConfig 3) (fun _ => 1)) (snapshotRound ++ [.advance 4])).fibers[4]?).getD ⟨0, .submitWait,
    none, none⟩)
    (by decide +kernel) (by decide +kernel) ⟨2, .installSnapshot ⟨1, 0, 1, 1, [⟨1, 1, .client 10⟩]⟩,
      none⟩ (by decide +kernel)
    ⟨1, 0, 1, 1, [⟨1, 1, .client 10⟩]⟩ rfl

/-- **A newer file is sent under the old label.** -/
theorem stale_label_sent :
    let s := run (initGap (othersConfig 3) (fun _ => 1))
      (snapshotRound ++ [.call 0 .createSnapshotIfNeeded, .advance 4])
    ((s.fibers[4]?).bind Fiber.rpc).map Envelope.request =
      some (.installSnapshot ⟨1, 0, 1, 1, [⟨1, 1, .client 10⟩, ⟨1, 2, .client 20⟩]⟩) := by
  decide +kernel

end Cluster

end MaxRedis.Raft

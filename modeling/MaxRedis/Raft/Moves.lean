/-
What each section of `RaftNode` may do, said once per function.
-/
import MaxRedis.Raft.Cluster

namespace MaxRedis.Raft

structure PeerArrays (N : Type) where
  ids : List N := []
  next : List ℕ := []
  lastLog : List ℕ := []
  deriving DecidableEq

namespace RaftNode

open LogStorage

variable {N C L : Type}

def arrays (nd : RaftNode N C L) : PeerArrays N := ⟨nd.lastPeerIds, nd.peerNextIndex, nd.peerLastLogIndex⟩

/-- `meta.json` holds the term, the vote and the configuration state that the node works with -/
structure FileOk (nd : RaftNode N C L) : Prop where
  term : nd.storage.file.currentTerm = nd.term
  vote : nd.storage.file.votedFor = nd.votedFor
  state : nd.storage.file.configState = nd.configState
  memory : nd.storage.configState = nd.configState

structure Quiet (nd nd' : RaftNode N C L) : Prop where
  id : nd'.nodeId = nd.nodeId
  file : FileOk nd → FileOk nd'
  term : nd.term ≤ nd'.term
  vote : nd'.term = nd.term → nd'.votedFor = nd.votedFor
  raised : nd.term < nd'.term → nd'.votedFor = none
  role : nd'.role ≠ .follower → nd'.role = nd.role ∧ nd'.term = nd.term

structure SameVote (nd nd' : RaftNode N C L) : Prop where
  id : nd'.nodeId = nd.nodeId
  file : FileOk nd → FileOk nd'
  term : nd'.term = nd.term
  vote : nd'.votedFor = nd.votedFor
  role : nd'.role = nd.role

structure SameData (nd nd' : RaftNode N C L) : Prop where
  id : nd'.nodeId = nd.nodeId
  log : nd'.log = nd.log
  sm : nd'.stateMachine = nd.stateMachine
  commit : nd'.commitIndex = nd.commitIndex
  applied : nd'.lastApplied = nd.lastApplied
  config : nd'.clusterConfig = nd.clusterConfig
  state : nd'.configState = nd.configState
  joint : nd'.jointConfig = nd.jointConfig
  order : nd'.idOrder = nd.idOrder
  snap : nd'.lastSnapshotIndex = nd.lastSnapshotIndex
  snapMeta : nd'.snapshotMeta = nd.snapshotMeta
  bin : nd'.snapshotBin = nd.snapshotBin
  progress : nd'.applyProgress = nd.applyProgress

variable (nd : RaftNode N C L) {a b c nd' : RaftNode N C L} (r : RaftRole) (t : ℕ)

lemma Quiet.refl : Quiet nd nd :=
  ⟨rfl, fun h => h, le_rfl, fun _ => rfl, fun h => absurd h (lt_irrefl _), fun _ => ⟨rfl, rfl⟩⟩

lemma Quiet.trans (h : Quiet a b) (k : Quiet b c) : Quiet a c := by
  have h1 := h.term
  have k1 := k.term
  refine ⟨k.id.trans h.id, k.file ∘ h.file, h1.trans k1, fun e => ?_, fun e => ?_, fun e => ?_⟩
  · rw [k.vote (by omega), h.vote (by omega)]
  · rcases Nat.lt_or_ge b.term c.term with hb | hb
    · exact k.raised hb
    · rw [k.vote (by omega)]; exact h.raised (by omega)
  · obtain ⟨hr, ht⟩ := k.role e
    obtain ⟨hr', ht'⟩ := h.role (by rwa [← hr])
    exact ⟨hr.trans hr', ht.trans ht'⟩

lemma SameVote.trans (h : SameVote a b) (k : SameVote b c) : SameVote a c :=
  ⟨k.id.trans h.id, k.file ∘ h.file, k.term.trans h.term, k.vote.trans h.vote, k.role.trans h.role⟩

/-- the fields that `SameVote` speaks of: the term and the vote are those of the storage -/
def voteView (nd : RaftNode N C L) : N × RaftRole × RaftStorage N × ConfigState :=
  (nd.nodeId, nd.role, nd.storage, nd.configState)

lemma SameVote.of_view {nd nd' : RaftNode N C L} (h : nd'.voteView = nd.voteView) : SameVote nd nd' := by
  simp only [voteView, Prod.mk.injEq] at h
  obtain ⟨hid, hrole, hstorage, hstate⟩ := h
  have hterm : nd'.term = nd.term := congrArg RaftStorage.currentTerm hstorage
  have hvote : nd'.votedFor = nd.votedFor := congrArg RaftStorage.votedFor hstorage
  refine ⟨hid, fun hf => ⟨?_, ?_, ?_, ?_⟩, hterm, hvote, hrole⟩
  · rw [hstorage, hterm]; exact hf.term
  · rw [hstorage, hvote]; exact hf.vote
  · rw [hstorage, hstate]; exact hf.state
  · rw [hstorage, hstate]; exact hf.memory

lemma SameVote.refl : SameVote nd nd := .of_view rfl

lemma SameVote.quiet (h : SameVote a b) : Quiet a b :=
  ⟨h.id, h.file, h.term.ge, fun _ => h.vote,
   fun e => absurd e (by rw [h.term]; exact lt_irrefl _), fun _ => ⟨h.role, h.term⟩⟩

lemma SameData.trans (h : SameData a b) (k : SameData b c) : SameData a c :=
  ⟨k.id.trans h.id, k.log.trans h.log, k.sm.trans h.sm, k.commit.trans h.commit, k.applied.trans h.applied,
    k.config.trans h.config, k.state.trans h.state, k.joint.trans h.joint, k.order.trans h.order,
    k.snap.trans h.snap, k.snapMeta.trans h.snapMeta, k.bin.trans h.bin, k.progress.trans h.progress⟩

def dataView (nd : RaftNode N C L) :=
  (nd.nodeId, nd.log, nd.stateMachine, nd.commitIndex, nd.lastApplied, nd.clusterConfig, nd.configState, nd.jointConfig,
    nd.idOrder, nd.lastSnapshotIndex, nd.snapshotMeta, nd.snapshotBin, nd.applyProgress)

lemma SameData.of_view {nd nd' : RaftNode N C L} (h : nd'.dataView = nd.dataView) : SameData nd nd' := by
  simp only [dataView, Prod.mk.injEq] at h
  obtain ⟨hid, hlog, hsm, hcommit, happlied, hconfig, hstate, hjoint, horder, hsnap, hmeta, hbin, hprogress⟩ := h
  exact ⟨hid, hlog, hsm, hcommit, happlied, hconfig, hstate, hjoint, horder, hsnap, hmeta, hbin, hprogress⟩

lemma SameData.refl : SameData nd nd := .of_view rfl

structure Kept (nd nd' : RaftNode N C L) : Prop where
  quiet : Quiet nd nd'
  data : SameData nd nd'
  arrays : nd'.arrays = nd.arrays

lemma Kept.of_view {nd nd' : RaftNode N C L} (hv : nd'.voteView = nd.voteView) (hd : nd'.dataView = nd.dataView)
    (ha : nd'.arrays = nd.arrays) : Kept nd nd' :=
  ⟨SameVote.quiet (.of_view hv), .of_view hd, ha⟩

lemma Kept.refl : Kept nd nd := .of_view rfl rfl rfl

lemma Kept.trans (h : Kept a b) (k : Kept b c) : Kept a c :=
  ⟨h.quiet.trans k.quiet, h.data.trans k.data, k.arrays.trans h.arrays⟩

/-! ## Roles -/

lemma cancelTransferLocked_eq :
    nd.cancelTransferLocked = { nd with transferCtx := if nd.transferCtx.isActive then {} else nd.transferCtx } := by
  unfold cancelTransferLocked
  split_ifs
  · rfl
  · rfl

lemma setRoleLocked_eq : ∃ leaderTerm voteCount transferCtx stop epoch,
    nd.setRoleLocked r = { nd with
      role := r, leaderTerm := leaderTerm, voteCount := voteCount, transferCtx := transferCtx, heartbeatStop := stop,
      heartbeatEpoch := epoch } := by
  cases r with
  | follower | candidate =>
    simp only [setRoleLocked, cancelTransferLocked_eq]
    exact ⟨_, _, _, _, _, rfl⟩
  | leader =>
    simp only [setRoleLocked, cancelTransferLocked_eq, stopHeartbeat]
    by_cases hs : nd.shutdown = true
    · rw [if_pos hs]; exact ⟨_, _, _, _, _, rfl⟩
    · rw [if_neg hs]; exact ⟨_, _, _, _, _, rfl⟩

lemma setRoleLocked_data : SameData nd (nd.setRoleLocked r) := by
  obtain ⟨_, _, _, _, _, h⟩ := setRoleLocked_eq nd r
  rw [h]; exact .of_view rfl

lemma setRoleLocked_arrays : (nd.setRoleLocked r).arrays = nd.arrays := by
  obtain ⟨_, _, _, _, _, h⟩ := setRoleLocked_eq nd r
  rw [h]; rfl

lemma setRoleLocked_role : (nd.setRoleLocked r).role = r := by
  obtain ⟨_, _, _, _, _, h⟩ := setRoleLocked_eq nd r
  rw [h]

lemma setRoleLocked_storage : (nd.setRoleLocked r).storage = nd.storage := by
  obtain ⟨_, _, _, _, _, h⟩ := setRoleLocked_eq nd r
  rw [h]

lemma becomeFollowerLocked_data : SameData nd (nd.becomeFollowerLocked t) := by
  unfold becomeFollowerLocked
  refine SameData.trans ?_ (setRoleLocked_data _ _)
  split_ifs
  · exact .of_view rfl
  · exact SameData.refl nd

lemma becomeFollowerLocked_role : (nd.becomeFollowerLocked t).role = .follower :=
  setRoleLocked_role _ _

lemma becomeFollowerLocked_storage :
    (nd.becomeFollowerLocked t).storage = if nd.term < t then nd.storage.setState t none else nd.storage := by
  unfold becomeFollowerLocked
  rw [setRoleLocked_storage]
  split_ifs
  · rfl
  · rfl

lemma becomeFollowerLocked_term : (nd.becomeFollowerLocked t).term = max nd.term t := by
  unfold term
  rw [becomeFollowerLocked_storage]
  split_ifs with h
  · exact (max_eq_right h.le).symm
  · exact (max_eq_left (not_lt.1 h)).symm

lemma becomeFollowerLocked_quiet : Quiet nd (nd.becomeFollowerLocked t) := by
  have hs := becomeFollowerLocked_storage nd t
  have hr := becomeFollowerLocked_role nd t
  refine ⟨(becomeFollowerLocked_data nd t).id, fun hf => ?_, ?_, fun ht => ?_, fun ht => ?_, fun h => absurd hr h⟩
  · have hst := (becomeFollowerLocked_data nd t).state
    by_cases hlt : nd.term < t
    · rw [if_pos hlt] at hs
      refine ⟨?_, ?_, ?_, ?_⟩
      · unfold RaftNode.term; rw [hs]; rfl
      · unfold votedFor; rw [hs]; rfl
      · rw [hs, hst]; exact hf.memory
      · rw [hs, hst]; exact hf.memory
    · rw [if_neg hlt] at hs
      refine ⟨?_, ?_, ?_, ?_⟩
      · unfold RaftNode.term; rw [hs]; exact hf.term
      · unfold votedFor; rw [hs]; exact hf.vote
      · rw [hs, hst]; exact hf.state
      · rw [hs, hst]; exact hf.memory
  · rw [becomeFollowerLocked_term]; exact le_max_left _ _
  · rw [becomeFollowerLocked_term] at ht
    unfold votedFor
    rw [hs, if_neg (by omega)]
  · rw [becomeFollowerLocked_term] at ht
    unfold votedFor
    rw [hs, if_pos (by omega)]; rfl

lemma becomeFollowerLocked_kept : Kept nd (nd.becomeFollowerLocked t) := by
  refine ⟨becomeFollowerLocked_quiet nd t, becomeFollowerLocked_data nd t, ?_⟩
  unfold becomeFollowerLocked
  rw [setRoleLocked_arrays]
  split_ifs <;> rfl

def observe (nd : RaftNode N C L) (t : ℕ) : RaftNode N C L := if nd.term < t then nd.becomeFollowerLocked t else nd

lemma observe_kept : Kept nd (nd.observe t) := by
  unfold observe
  split_ifs
  · exact becomeFollowerLocked_kept nd t
  · exact Kept.refl nd

lemma observe_data : SameData nd (nd.observe t) := (observe_kept nd t).data

lemma observe_term : (nd.observe t).term = max nd.term t := by
  unfold observe
  split_ifs with h
  · exact becomeFollowerLocked_term nd t
  · omega

structure Campaigns (nd nd' : RaftNode N C L) : Prop where
  data : SameData nd nd'
  arrays : nd'.arrays = nd.arrays
  file : FileOk nd → FileOk nd'
  term : nd.term < nd'.term
  vote : nd'.votedFor = some nd.nodeId
  role : nd'.role = .candidate

lemma becomeCandidateNewTermLocked_campaigns : Campaigns nd nd.becomeCandidateNewTermLocked := by
  have hs : nd.becomeCandidateNewTermLocked.storage = nd.storage.setState (nd.term + 1) (some nd.nodeId) :=
    setRoleLocked_storage _ _
  have hd : SameData nd nd.becomeCandidateNewTermLocked := by
    refine SameData.trans ?_ (setRoleLocked_data _ _)
    exact .of_view rfl
  refine ⟨hd, setRoleLocked_arrays _ _, fun hf => ⟨?_, ?_, ?_, ?_⟩, ?_, ?_, setRoleLocked_role _ _⟩
  · unfold term; rw [hs]; rfl
  · unfold votedFor; rw [hs]; rfl
  · rw [hs, hd.state]; exact hf.memory
  · rw [hs, hd.state]; exact hf.memory
  · unfold term; rw [hs]; exact Nat.lt_succ_self _
  · unfold votedFor; rw [hs]; rfl

lemma becomeCandidateLocked_campaigns (h : nd.role ≠ .candidate) : Campaigns nd nd.becomeCandidateLocked := by
  unfold becomeCandidateLocked
  rw [if_neg h]; exact becomeCandidateNewTermLocked_campaigns nd

lemma onElectionTimeout_spec : nd.onElectionTimeout = nd ∨ Campaigns nd nd.onElectionTimeout := by
  unfold onElectionTimeout
  split_ifs with h1 h2
  · exact Or.inl rfl
  · exact Or.inl rfl
  · exact Or.inr (becomeCandidateLocked_campaigns nd (by rw [not_not.1 h2]; simp))

variable [DecidableEq N] (result : ElectionResult)

lemma getPeerIdsLocked_eq {nd nd' : RaftNode N C L} (h : SameData nd nd') :
    nd'.getPeerIdsLocked = nd.getPeerIdsLocked := by
  unfold getPeerIdsLocked peerSet
  rw [h.order, h.state, h.joint, h.config, h.id]

lemma countVotes_same (granters : List N) :
    SameVote nd (nd.countVotes result granters) := by
  unfold countVotes
  dsimp only
  split
  · exact .of_view rfl
  · exact .of_view rfl

lemma countVotes_data (granters : List N) :
    SameData nd (nd.countVotes result granters) := by
  unfold countVotes
  dsimp only
  split
  · exact .of_view rfl
  · exact .of_view rfl

lemma countVotes_arrays (granters : List N) :
    (nd.countVotes result granters).arrays = nd.arrays := by
  unfold countVotes
  dsimp only
  split <;> rfl

variable [LogStorage N C L] (req : VoteRequest N)

structure Leads (nd nd' : RaftNode N C L) : Prop where
  data : SameData nd nd'
  storage : nd'.storage = nd.storage
  role : nd'.role = .leader
  arrays : nd'.arrays = ⟨nd.getPeerIdsLocked, List.replicate nd.getPeerIdsLocked.length (lastIndex nd.log + 1),
    List.replicate nd.getPeerIdsLocked.length 0⟩

lemma Leads.peers {nd nd' : RaftNode N C L} (h : Leads nd nd') : nd'.lastPeerIds = nd.getPeerIdsLocked :=
  congrArg PeerArrays.ids h.arrays

lemma Leads.lastLog {nd nd' : RaftNode N C L} (h : Leads nd nd') :
    nd'.peerLastLogIndex = List.replicate nd.getPeerIdsLocked.length 0 :=
  congrArg PeerArrays.lastLog h.arrays

lemma Leads.term_eq {nd nd' : RaftNode N C L} (h : Leads nd nd') : nd'.term = nd.term := by
  unfold RaftNode.term; rw [h.storage]

lemma Leads.vote_eq {nd nd' : RaftNode N C L} (h : Leads nd nd') : nd'.votedFor = nd.votedFor := by
  unfold RaftNode.votedFor; rw [h.storage]

lemma becomeLeaderLocked_leads : Leads nd nd.becomeLeaderLocked := by
  obtain ⟨_, _, _, _, _, h⟩ := setRoleLocked_eq nd .leader
  unfold becomeLeaderLocked becomeLeaderInitPeersLocked
  rw [h]
  exact ⟨.of_view rfl, rfl, rfl, rfl⟩

lemma bootstrapSingleNode_spec : nd.bootstrapSingleNode = nd ∨
    (nd.getPeerIdsLocked = [] ∧ nd.role ≠ .leader ∧
      nd.bootstrapSingleNode.term = (if nd.role = .candidate then nd.term else nd.term + 1) ∧
      ∃ mid, ((nd.role = .candidate ∧ mid = nd) ∨ Campaigns nd mid) ∧ Leads mid nd.bootstrapSingleNode) := by
  have hl := becomeLeaderLocked_leads nd.becomeCandidateLocked
  have hterm : nd.becomeCandidateLocked.becomeLeaderLocked.term =
      if nd.role = .candidate then nd.term else nd.term + 1 := by
    unfold term
    rw [hl.storage]
    unfold becomeCandidateLocked becomeCandidateNewTermLocked
    split_ifs
    · rfl
    · rw [setRoleLocked_storage]; rfl
  unfold bootstrapSingleNode
  by_cases h1 : nd.role = .leader
  · rw [if_pos h1]; exact Or.inl rfl
  by_cases h2 : nd.getPeerIdsLocked ≠ []
  · rw [if_neg h1, if_pos h2]; exact Or.inl rfl
  rw [if_neg h1, if_neg h2]
  refine Or.inr ⟨not_not.1 h2, h1, hterm, nd.becomeCandidateLocked, ?_, hl⟩
  by_cases hc : nd.role = .candidate
  · left; unfold becomeCandidateLocked; rw [if_pos hc]; exact ⟨hc, rfl⟩
  · exact Or.inr (becomeCandidateLocked_campaigns nd hc)

/-! ## Votes -/

structure Grants (nd nd' : RaftNode N C L) (req : VoteRequest N) : Prop where
  data : SameData nd nd'
  arrays : nd'.arrays = nd.arrays
  file : FileOk nd → FileOk nd'
  le : nd.term ≤ req.term
  term : nd'.term = req.term
  free : nd.term = req.term → nd.votedFor = none ∨ nd.votedFor = some req.candidateId
  vote : nd'.votedFor = some req.candidateId
  role : nd'.role ≠ .follower → nd'.role = nd.role ∧ nd'.term = nd.term
  recent : lastTerm nd.log < req.lastLogTerm ∨ (lastTerm nd.log = req.lastLogTerm ∧ lastIndex nd.log ≤ req.lastLogIndex)

lemma onRequestVote_spec :
    (Kept nd (nd.onRequestVote req).1 ∧ (nd.onRequestVote req).2.voteGranted = false) ∨
    (Grants nd (nd.onRequestVote req).1 req ∧ (nd.onRequestVote req).2.term = req.term) := by
  unfold onRequestVote
  by_cases h1 : req.term < nd.term
  · rw [if_pos h1]; exact Or.inl ⟨Kept.refl nd, rfl⟩
  rw [if_neg h1]
  simp only [← observe.eq_def nd req.term]
  have hk := observe_kept nd req.term
  have ht : (nd.observe req.term).term = req.term := by rw [observe_term]; omega
  generalize nd.observe req.term = mid at hk ht ⊢
  by_cases h2 : mid.votedFor ≠ none ∧ mid.votedFor ≠ some req.candidateId
  · simp only [if_pos h2]; exact Or.inl ⟨hk, trivial⟩
  by_cases h3 : req.lastLogTerm < lastTerm mid.log
  · simp only [if_neg h2, if_pos h3]; exact Or.inl ⟨hk, trivial⟩
  by_cases h4 : req.lastLogTerm = lastTerm mid.log ∧ req.lastLogIndex < lastIndex mid.log
  · simp only [if_neg h2, if_neg h3, if_pos h4]; exact Or.inl ⟨hk, trivial⟩
  simp only [if_neg h2, if_neg h3, if_neg h4]
  refine Or.inr ⟨⟨hk.data.trans (.of_view rfl), hk.arrays, fun hf => ?_, by omega, ht, fun he => ?_, rfl, hk.quiet.role,
    ?_⟩, ht⟩
  · exact ⟨rfl, rfl, (hk.quiet.file hf).memory, (hk.quiet.file hf).memory⟩
  · rw [← hk.quiet.vote (by omega)]
    by_cases hv : mid.votedFor = none
    · exact Or.inl hv
    · exact Or.inr (by_contra fun hc => h2 ⟨hv, hc⟩)
  · rw [hk.data.log] at h3 h4
    rcases Nat.lt_or_ge (lastTerm nd.log) req.lastLogTerm with hlt | hge
    · exact Or.inl hlt
    · refine Or.inr ⟨by omega, ?_⟩
      by_contra hc
      exact h4 ⟨by omega, by omega⟩

lemma startElection_spec : nd.startElection = (nd, none) ∨
    (Campaigns nd nd.startElection.1 ∧ nd.startElection.2 =
      some (⟨nd.startElection.1.term, nd.nodeId, lastIndex nd.log, lastTerm nd.log⟩, nd.getPeerIdsLocked)) := by
  have hcamp : ∀ nd' : RaftNode N C L, Campaigns nd nd' →
      (if nd'.role ≠ .candidate then (nd', none)
        else (nd', some ((⟨nd'.term, nd'.nodeId, lastIndex nd'.log, lastTerm nd'.log⟩ : VoteRequest N),
          nd'.getPeerIdsLocked))) =
      (nd', some (⟨nd'.term, nd.nodeId, lastIndex nd.log, lastTerm nd.log⟩, nd.getPeerIdsLocked)) := by
    intro nd' hc
    rw [if_neg (by rw [hc.role]; simp), hc.data.id, hc.data.log, getPeerIdsLocked_eq hc.data]
  unfold startElection
  by_cases hs : nd.shutdown = true
  · rw [if_pos hs]; exact Or.inl rfl
  rw [if_neg hs]
  cases hr : nd.role with
  | follower =>
    have hc := becomeCandidateLocked_campaigns nd (by rw [hr]; simp)
    simp only [hcamp _ hc]
    exact Or.inr ⟨hc, trivial⟩
  | candidate =>
    have hc := becomeCandidateNewTermLocked_campaigns nd
    simp only [hcamp _ hc]
    exact Or.inr ⟨hc, trivial⟩
  | leader => left; simp [hr]

def Won (nd : RaftNode N C L) (result : ElectionResult) (granters : List N) : Prop :=
  match nd.configState with
  | .joint =>
    (nd.jointConfig.oldConfig.voters.ids.length + 1) / 2 + 1 ≤ nd.configVotes nd.jointConfig.oldConfig granters ∧
    (nd.jointConfig.newConfig.voters.ids.length + 1) / 2 + 1 ≤ nd.configVotes nd.jointConfig.newConfig granters
  | .stable => (nd.clusterConfig.voters.ids.length + 1) / 2 + 1 ≤ result.votesReceived

structure Wins (nd nd' : RaftNode N C L) (req : VoteRequest N) (result : ElectionResult) (granters : List N) :
    Prop where
  leads : Leads nd nd'
  old : nd.role = .candidate
  term : nd.term = req.term
  won : Won nd result granters

lemma Wins.term_eq {nd nd' : RaftNode N C L} {req : VoteRequest N} {result : ElectionResult} {granters : List N}
    (h : Wins nd nd' req result granters) : nd'.term = req.term := h.leads.term_eq.trans h.term

lemma tryBecomeLeaderLocked_spec (granters : List N) :
    (nd.countVotes result granters).tryBecomeLeaderLocked = nd.countVotes result granters ∨
    (Won nd result granters ∧
      (nd.countVotes result granters).tryBecomeLeaderLocked = (nd.countVotes result granters).becomeLeaderLocked) := by
  have hd := countVotes_data nd result granters
  unfold tryBecomeLeaderLocked Won
  rw [hd.state, hd.joint, hd.config]
  cases hst : nd.configState with
  | joint =>
    have ho : (nd.countVotes result granters).oldConfigVotes = nd.configVotes nd.jointConfig.oldConfig granters := by
      simp only [countVotes, hst]; rfl
    have hn : (nd.countVotes result granters).newConfigVotes = nd.configVotes nd.jointConfig.newConfig granters := by
      simp only [countVotes, hst]; rfl
    simp only [ho, hn]
    split_ifs with hw
    · exact Or.inr ⟨hw, rfl⟩
    · exact Or.inl rfl
  | stable =>
    have hv : (nd.countVotes result granters).voteCount = result.votesReceived := by simp only [countVotes, hst]
    simp only [hv]
    split_ifs with hw
    · exact Or.inr ⟨hw, rfl⟩
    · exact Or.inl rfl

lemma finishElection_spec (result : ElectionResult) (granters : List N) (maxPeerTerm : ℕ) :
    Kept nd (nd.finishElection req result granters maxPeerTerm) ∨
    Wins nd (nd.finishElection req result granters maxPeerTerm) req result granters := by
  unfold finishElection
  by_cases h1 : nd.term < maxPeerTerm
  · rw [if_pos h1]; exact Or.inl (becomeFollowerLocked_kept nd _)
  by_cases h2 : nd.role ≠ .candidate ∨ nd.term ≠ req.term
  · rw [if_neg h1, if_pos h2]; exact Or.inl (Kept.refl nd)
  rw [if_neg h1, if_neg h2]
  have hd := countVotes_data nd result granters
  have hk : Kept nd (nd.countVotes result granters) :=
    ⟨(countVotes_same nd result granters).quiet, hd, countVotes_arrays nd result granters⟩
  rcases tryBecomeLeaderLocked_spec nd result granters with he | ⟨hw, he⟩
  · -- the round is lost: the candidate steps back, unless the node is shutting down
    rw [he]
    left
    dsimp only
    split_ifs
    · refine hk.trans ⟨?_, setRoleLocked_data _ _, setRoleLocked_arrays _ _⟩
      obtain ⟨_, _, _, _, _, hr⟩ := setRoleLocked_eq (nd.countVotes result granters) .follower
      rw [hr]
      exact ⟨rfl, fun hf => ⟨hf.term, hf.vote, hf.state, hf.memory⟩, le_rfl, fun _ => rfl,
        fun hl => absurd hl (lt_irrefl _), fun hl => absurd rfl hl⟩
    · exact hk
  · have hl := becomeLeaderLocked_leads (nd.countVotes result granters)
    rw [he]
    rw [if_neg (by rw [hl.role]; simp)]
    have hst : (nd.countVotes result granters).storage = nd.storage := by
      unfold countVotes; dsimp only; split <;> rfl
    push Not at h2
    refine Or.inr ⟨⟨hd.trans hl.data, hl.storage.trans hst, hl.role, ?_⟩, h2.1, h2.2, hw⟩
    rw [hl.arrays, getPeerIdsLocked_eq hd, hd.log]

end RaftNode

end MaxRedis.Raft

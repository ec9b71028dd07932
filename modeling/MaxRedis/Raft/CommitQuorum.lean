/-
The index a leader commits, against the members it has counted.
-/
import MaxRedis.Raft.CommitSoundness
import MaxRedis.Raft.Lease
import MaxRedis.Storage.Refinement

namespace MaxRedis.Raft.RaftNode

open LogStorage List

variable {N C L : Type} [DecidableEq N] [LogStorage N C L]

def progress (nd : RaftNode N C L) (p : N) : ℕ :=
  if p = nd.nodeId then lastIndex nd.log else nd.peerLastLogIndex.getD (nd.lastPeerIds.idxOf p) 0

def Supported (nd : RaftNode N C L) (x : ℕ) : Prop :=
  ∀ config ∈ nd.configs, (nd.members config).card < 2 * ((nd.members config).filter (x ≤ nd.progress ·)).card

structure Aligned (nd : RaftNode N C L) : Prop where
  peers : nd.lastPeerIds.Perm nd.getPeerIdsLocked
  len : nd.peerLastLogIndex.length = nd.lastPeerIds.length

def counted (nd : RaftNode N C L) (config : ClusterConfig N) : List N :=
  nd.nodeId :: nd.lastPeerIds.filter config.voters.count

section Counting
variable {nd : RaftNode N C L}

lemma Aligned.zip (ha : nd.Aligned) :
    nd.lastPeerIds.zip nd.peerLastLogIndex = nd.lastPeerIds.map (fun p => (p, nd.progress p)) := by
  have hnodup : nd.lastPeerIds.Nodup := ha.peers.nodup_iff.2 (nodup_getPeerIdsLocked nd)
  refine ext_getElem (by simp [ha.len]) (fun i h1 h2 => ?_)
  have hi : i < nd.lastPeerIds.length := by simpa using h2
  have hself : nd.lastPeerIds[i] ≠ nd.nodeId := by
    intro he
    have hmem : nd.nodeId ∈ nd.lastPeerIds := he ▸ getElem_mem hi
    rw [ha.peers.mem_iff] at hmem
    exact self_notMem_getPeerIdsLocked nd hmem
  have hj : i < nd.peerLastLogIndex.length := by rw [ha.len]; exact hi
  have hget : nd.peerLastLogIndex.getD i 0 = nd.peerLastLogIndex[i] := by
    rw [getD_eq_getElem?_getD, getElem?_eq_getElem hj, Option.getD_some]
  rw [getElem_zip, getElem_map, progress, if_neg hself, hnodup.idxOf_getElem, hget]

lemma nodup_counted (ha : nd.Aligned) (config : ClusterConfig N) : (nd.counted config).Nodup := by
  refine nodup_cons.2 ⟨fun hm => ?_, List.Nodup.filter _ (ha.peers.nodup_iff.2 (nodup_getPeerIdsLocked nd))⟩
  have hm := mem_of_mem_filter hm
  rw [ha.peers.mem_iff] at hm
  exact self_notMem_getPeerIdsLocked nd hm

variable {config : ClusterConfig N}

lemma voter_peer (hc : config ∈ nd.configs) {p : N} (hp : p ∈ config.voters.ids)
    (hself : p ≠ nd.nodeId) : p ∈ nd.getPeerIdsLocked := by
  rw [nd.getPeerIdsLocked_perm.mem_iff]
  unfold peerSet
  unfold configs at hc
  cases hs : nd.configState with
  | stable =>
    simp only [hs, mem_singleton] at hc ⊢
    subst hc
    simp [mem_filter, hp, hself]
  | joint =>
    simp only [hs, mem_cons, not_mem_nil, or_false] at hc ⊢
    rcases hc with rfl | rfl
    · simp [mem_filter, hp, hself]
    · by_cases ho : p ∈ nd.jointConfig.oldConfig.voters.ids <;> simp [mem_filter, IdSet.count, hp, hself, ho]

section
variable (ha : nd.Aligned)
include ha

section
variable (hc : config ∈ nd.configs)
include hc

lemma counted_toFinset : (nd.counted config).toFinset = nd.members config := by
  ext p
  rw [counted, toFinset_cons, members, Finset.mem_insert, Finset.mem_insert, mem_toFinset, mem_toFinset,
    mem_filter, IdSet.count, decide_eq_true_eq]
  by_cases hp : p = nd.nodeId
  · simp [hp]
  · have hpeer : p ∈ config.voters.ids → p ∈ nd.lastPeerIds := by
      intro hv
      rw [ha.peers.mem_iff]; exact voter_peer hc hv hp
    constructor
    · rintro (h | ⟨-, h⟩)
      · exact Or.inl h
      · exact Or.inr h
    · rintro (h | h)
      · exact Or.inl h
      · exact Or.inr ⟨hpeer h, h⟩

lemma filter_counted (x : ℕ) : (((nd.counted config).map nd.progress).filter (x ≤ ·)).length =
      ((nd.members config).filter (x ≤ nd.progress ·)).card := by
  have hfilter : (nd.members config).filter (x ≤ nd.progress ·) =
      ((nd.counted config).filter (fun p => x ≤ nd.progress p)).toFinset := by
    ext p
    simp [← counted_toFinset ha hc]
  rw [filter_map, length_map, hfilter, toFinset_card_of_nodup ((nodup_counted ha config).filter _)]
  rfl

lemma majority_of_kthLargest {x c : ℕ}
    (hk : kthLargest ((config.voters.ids.length + 1) / 2) ((nd.counted config).map nd.progress) = some c) (hx : x ≤ c) :
    (nd.members config).card < 2 * ((nd.members config).filter (x ≤ nd.progress ·)).card := by
  have hcount := kthLargest_count hk
  rw [filter_counted ha hc] at hcount
  have hmono : ((nd.members config).filter (c ≤ nd.progress ·)).card ≤
      ((nd.members config).filter (x ≤ nd.progress ·)).card :=
    Finset.card_le_card (Finset.monotone_filter_right _ (fun p _ hp => hx.trans hp))
  have hle := card_members_le nd config
  omega

lemma kthLargest_of_majority (hself : nd.nodeId ∉ config.voters.ids) {x : ℕ}
    (hx : (nd.members config).card < 2 * ((nd.members config).filter (x ≤ nd.progress ·)).card) :
    ∃ c, kthLargest ((config.voters.ids.length + 1) / 2) ((nd.counted config).map nd.progress) = some c ∧ x ≤ c := by
  have hcard : (nd.members config).card = config.voters.ids.length + 1 := by
    rw [members, Finset.card_insert_of_notMem (by simpa using hself), toFinset_card_of_nodup config.voters.nodup]
  refine le_kthLargest ?_
  rw [filter_counted ha hc]
  omega

end

lemma calcConfigCommit_counted (config : ClusterConfig N) : nd.calcConfigCommit config =
    (kthLargest ((config.voters.ids.length + 1) / 2) ((nd.counted config).map nd.progress)).getD 0 := by
  have hself : nd.progress nd.nodeId = lastIndex nd.log := by simp [progress]
  unfold calcConfigCommit
  rw [ha.zip, filter_map, map_map, counted, map_cons, hself]
  rfl

lemma stable_counted (hs : nd.configState = .stable) :
    lastIndex nd.log :: nd.peerLastLogIndex = (nd.counted nd.clusterConfig).map nd.progress := by
  have hself : nd.progress nd.nodeId = lastIndex nd.log := by simp [progress]
  have hsnd : (nd.lastPeerIds.zip nd.peerLastLogIndex).map Prod.snd = nd.peerLastLogIndex := map_snd_zip ha.len.le
  have hall : nd.lastPeerIds.filter nd.clusterConfig.voters.count = nd.lastPeerIds := by
    refine filter_eq_self.2 (fun p hp => ?_)
    rw [ha.peers.mem_iff, nd.getPeerIdsLocked_perm.mem_iff, peerSet, hs] at hp
    exact decide_eq_true (mem_of_mem_filter hp)
  rw [counted, hall, map_cons, hself, ← hsnd, ha.zip, map_map]
  rfl

end

end Counting

variable {nd : RaftNode N C L}

lemma advanceCommitIndexLocked_counts (ha : nd.Aligned) (h : nd.advanceCommitIndexLocked.commitIndex ≠ nd.commitIndex) :
    (∀ config ∈ nd.configs, ∃ c, nd.advanceCommitIndexLocked.commitIndex ≤ c ∧
      kthLargest ((config.voters.ids.length + 1) / 2) ((nd.counted config).map nd.progress) = some c) ∧
    (∃ config ∈ nd.configs, kthLargest ((config.voters.ids.length + 1) / 2) ((nd.counted config).map nd.progress) =
        some nd.advanceCommitIndexLocked.commitIndex) := by
  cases hs : nd.configState with
  | stable =>
    have hconfigs : nd.configs = [nd.clusterConfig] := by simp only [configs, hs]
    rcases advanceCommitIndexLocked_stable nd hs with he | ⟨c, hk, he, -⟩
    · exact absurd (by rw [he]) h
    · have hcommit : nd.advanceCommitIndexLocked.commitIndex = c := by rw [he]
      rw [stable_counted ha hs] at hk
      rw [hconfigs, hcommit]
      refine ⟨fun config hc => ?_, nd.clusterConfig, mem_singleton_self _, hk⟩
      rw [mem_singleton.1 hc]
      exact ⟨c, le_rfl, hk⟩
  | joint =>
    have hconfigs : nd.configs = [nd.jointConfig.oldConfig, nd.jointConfig.newConfig] := by simp only [configs, hs]
    set old := nd.calcConfigCommit nd.jointConfig.oldConfig with hold
    set new := nd.calcConfigCommit nd.jointConfig.newConfig with hnew
    have he : nd.advanceCommitIndexLocked = nd.commitTo (min old new) := by
      simp only [advanceCommitIndexLocked, hs]; rfl
    rcases commitTo_spec nd (min old new) with hto | ⟨hto, hlt, -⟩
    · exact absurd (by rw [he, hto]) h
    · have hcommit : nd.advanceCommitIndexLocked.commitIndex = min old new := by rw [he, hto]
      -- a configuration without enough counters gives 0, and nothing is below the commit index then
      have hsome : ∀ config, 0 < nd.calcConfigCommit config →
          kthLargest ((config.voters.ids.length + 1) / 2) ((nd.counted config).map nd.progress) =
            some (nd.calcConfigCommit config) := by
        intro config hpos
        rw [calcConfigCommit_counted ha] at hpos ⊢
        cases hk : kthLargest ((config.voters.ids.length + 1) / 2) ((nd.counted config).map nd.progress) with
        | none => rw [hk] at hpos; exact absurd hpos (by simp)
        | some => rfl
      have hkold := hsome _ (show 0 < old by omega)
      have hknew := hsome _ (show 0 < new by omega)
      rw [hconfigs, hcommit]
      constructor
      · intro config hc
        simp only [mem_cons, not_mem_nil, or_false] at hc
        rcases hc with rfl | rfl
        · exact ⟨old, min_le_left _ _, hkold⟩
        · exact ⟨new, min_le_right _ _, hknew⟩
      · rcases Nat.le_total old new with hle | hle
        · exact ⟨nd.jointConfig.oldConfig, by simp, by rw [min_eq_left hle]; exact hkold⟩
        · exact ⟨nd.jointConfig.newConfig, by simp, by rw [min_eq_right hle]; exact hknew⟩

/-- **What a leader commits by counting has a quorum.** -/
theorem commit_quorum (nd : RaftNode N C L) (ha : nd.Aligned)
    (h : nd.advanceCommitIndexLocked.commitIndex ≠ nd.commitIndex) :
    nd.Supported nd.advanceCommitIndexLocked.commitIndex ∧
    ((∀ config ∈ nd.configs, nd.nodeId ∉ config.voters.ids) →
      ∀ x, nd.Supported x → x ≤ nd.advanceCommitIndexLocked.commitIndex) := by
  obtain ⟨hall, config, hc, hk⟩ := advanceCommitIndexLocked_counts ha h
  refine ⟨fun config hc => ?_, fun hself x hx => ?_⟩
  · obtain ⟨c, hle, hk⟩ := hall config hc
    exact majority_of_kthLargest ha hc hk hle
  · obtain ⟨c, hk', hle⟩ := kthLargest_of_majority ha hc (hself config hc) (hx config hc)
    rw [hk, Option.some_inj] at hk'
    exact hle.trans hk'.ge

def movingLeader : RaftNode (Fin 5) ℕ (CommandLog (Fin 5) ℕ) where
  nodeId := 0
  log := [1, 1, 1].foldl (fun l t => append l ⟨t, 0, .client 7⟩ true) {}
  configState := .joint
  jointConfig := ⟨{ voters := ⟨[1, 2], nodup_one_two⟩ }, { voters := ⟨[2, 3, 4], nodup_two_three_four⟩ }⟩
  lastPeerIds := [1, 2, 3, 4]
  peerLastLogIndex := [3, 2, 0, 2]

theorem commit_quorum_movingLeader : movingLeader.advanceCommitIndexLocked.commitIndex = 2 ∧ movingLeader.Supported 2 ∧
    ∀ x, movingLeader.Supported x → x ≤ 2 := by
  have hcommit : movingLeader.advanceCommitIndexLocked.commitIndex = 2 := by decide +kernel
  have haligned : movingLeader.Aligned := ⟨by decide +kernel, rfl⟩
  obtain ⟨h1, h2⟩ := commit_quorum movingLeader haligned (by rw [hcommit]; decide)
  exact ⟨hcommit, h1, h2 (by decide +kernel)⟩

/-! ## The leader's own log -/

/-- what the guard of `commitTo` reads: the entries above the commit index can be read and have terms up to the node's,
and past the log `GetTerm` gives 0 -/
structure OwnLog (nd : RaftNode N C L) : Prop where
  entry : ∀ i, nd.commitIndex < i → i ≤ lastIndex nd.log →
    ∃ e, get nd.log i = some e ∧ getTerm nd.log i = e.term ∧ 1 ≤ e.term ∧ e.term ≤ nd.term
  past : ∀ i, lastIndex nd.log < i → getTerm nd.log i = 0

def counters (nd : RaftNode N C L) (config : ClusterConfig N) : List ℕ :=
  ((nd.lastPeerIds.zip nd.peerLastLogIndex).filter (fun p => config.voters.count p.1)).map Prod.snd

/-- fewer than a majority of the lengths are past both the log and the commit index -/
def MostWithin (nd : RaftNode N C L) (config : ClusterConfig N) (lengths : List ℕ) : Prop :=
  (lengths.filter (max (lastIndex nd.log) nd.commitIndex < ·)).length < (config.voters.ids.length + 1) / 2 + 1

def Contained (nd : RaftNode N C L) : Prop :=
  match nd.configState with
  | .stable => nd.MostWithin nd.clusterConfig nd.peerLastLogIndex
  | .joint => nd.MostWithin nd.jointConfig.oldConfig (nd.counters nd.jointConfig.oldConfig) ∨
      nd.MostWithin nd.jointConfig.newConfig (nd.counters nd.jointConfig.newConfig)

lemma mostWithin_iff {config : ClusterConfig N} {lengths : List ℕ} : nd.MostWithin config lengths ↔
    (kthLargest ((config.voters.ids.length + 1) / 2) (lastIndex nd.log :: lengths)).getD 0 ≤
      max (lastIndex nd.log) nd.commitIndex := by
  unfold MostWithin
  constructor
  · intro h
    cases hk : kthLargest ((config.voters.ids.length + 1) / 2) (lastIndex nd.log :: lengths) with
    | none => exact Nat.zero_le _
    | some c =>
      rw [Option.getD_some]
      by_contra hgt
      have hcount := kthLargest_count hk
      rw [filter_cons_of_neg (by rw [decide_eq_true_eq]; omega)] at hcount
      have hsub : (lengths.filter (c ≤ ·)).length ≤
          (lengths.filter (max (lastIndex nd.log) nd.commitIndex < ·)).length := by
        refine (monotone_filter_right lengths (fun x hx => ?_)).length_le
        have hx' : c ≤ x := of_decide_eq_true hx
        exact decide_eq_true (by omega)
      omega
  · intro h
    by_contra hmost
    obtain ⟨c, hk, hc⟩ := le_kthLargest (l := lastIndex nd.log :: lengths)
      (x := max (lastIndex nd.log) nd.commitIndex + 1) (k := (config.voters.ids.length + 1) / 2) (by
        rw [filter_cons_of_neg (by rw [decide_eq_true_eq]; omega)]
        simp only [Nat.succ_le_iff]
        omega)
    rw [hk, Option.getD_some] at h
    omega

/-- the index that `AdvanceCommitIndexLocked` tries -/
def candidate (nd : RaftNode N C L) : ℕ :=
  match nd.configState with
  | .joint => min (nd.calcConfigCommit nd.jointConfig.oldConfig) (nd.calcConfigCommit nd.jointConfig.newConfig)
  | .stable =>
    (kthLargest ((nd.clusterConfig.voters.ids.length + 1) / 2) (lastIndex nd.log :: nd.peerLastLogIndex)).getD 0

lemma advanceCommitIndexLocked_candidate : nd.advanceCommitIndexLocked = nd.commitTo nd.candidate := by
  unfold advanceCommitIndexLocked candidate
  cases hs : nd.configState with
  | joint => rfl
  | stable =>
    dsimp only
    cases kthLargest ((nd.clusterConfig.voters.ids.length + 1) / 2) (lastIndex nd.log :: nd.peerLastLogIndex) with
    | none => exact (if_neg (Nat.not_lt_zero _)).symm
    | some => rfl

lemma contained_iff : nd.Contained ↔ nd.candidate ≤ max (lastIndex nd.log) nd.commitIndex := by
  unfold Contained candidate
  cases hs : nd.configState with
  | joint =>
    dsimp only
    rw [mostWithin_iff, mostWithin_iff, min_le_iff]
    rfl
  | stable => exact mostWithin_iff

end MaxRedis.Raft.RaftNode

namespace MaxRedis.Raft.Cluster

open LogStorage RaftNode

def shortLeader : List (Action (Fin 3) ℕ (CommandLog (Fin 3) ℕ)) :=
  ([.call 1 .startElection, .advance 0, .deliver 0, .recv 0, .advance 0, .deliver 0, .recv 0, .advance 0,
    .call 1 (.submitEntry (.client 10)), .call 1 (.submitEntry (.client 11)),
    .call 0 .startElection, .advance 3, .fail 3, .advance 3, .deliver 3, .recv 3, .advance 3,
    .call 0 (.submitEntry (.client 20)), .advance 4, .advance 4, .advance 4, .advance 4, .fail 4,
      .advance 4, .deliver 4,
    .call 0 (.submitEntry (.client 21)),
    .call 2 .startElection, .advance 6, .fail 6, .advance 6, .deliver 6, .recv 6, .advance 6,
    .call 2 (.heartbeatTick false), .advance 7, .deliver 7, .recv 7, .advance 7, .deliver 7, .recv 7] : Steps3)

end MaxRedis.Raft.Cluster

/-
The votes of a node whose writes of `meta.json` may fail.

`RaftStorage::Flush` says whether it has written the file; `set_voted_for` and `SetState` do not look at it. Terms stay
below 2^64 and the id of a candidate is not empty, which `voted_for_` would read as no vote.
-/
import MaxRedis.Raft.Restart

namespace MaxRedis.Raft

open LogStorage

/-! ## Writes that may fail -/

namespace RaftStorage
variable {N : Type}

def flushIf (ok : Bool) (s : RaftStorage N) : RaftStorage N := if ok then s.flush else s

def setVotedForIf (ok : Bool) (s : RaftStorage N) (v : Option N) : RaftStorage N := flushIf ok { s with votedFor := v }

def setStateIf (ok : Bool) (s : RaftStorage N) (term : ℕ) (v : Option N) : RaftStorage N :=
  flushIf ok { s with currentTerm := term, votedFor := v }

def setJointConfigStateIf (ok : Bool) (s : RaftStorage N) (state : ConfigState) (joint : JointConfig N) :
    RaftStorage N :=
  flushIf ok { s with configState := state, jointConfig := joint }

def ballot (s : RaftStorage N) : ℕ × Option N := (s.currentTerm, s.votedFor)

lemma flushIf_ballot (ok : Bool) (s : RaftStorage N) : (flushIf ok s).ballot = s.ballot := by
  cases ok <;> rfl

end RaftStorage

def MetaFile.ballot {N : Type} (f : MetaFile N) : ℕ × Option N := (f.currentTerm, f.votedFor)

namespace RaftNode

variable {N C L : Type} [DecidableEq N]

def becomeFollowerIf (ok : Bool) (nd : RaftNode N C L) (t : ℕ) : RaftNode N C L :=
  let nd := if nd.term < t then { nd with storage := nd.storage.setStateIf ok t none } else nd
  nd.setRoleLocked .follower

def becomeCandidateNewTermIf (ok : Bool) (nd : RaftNode N C L) : RaftNode N C L :=
  ({ nd with storage := nd.storage.setStateIf ok (nd.term + 1) (some nd.nodeId) }).setRoleLocked .candidate

def becomeCandidateIf (ok : Bool) (nd : RaftNode N C L) : RaftNode N C L :=
  if nd.role = .candidate then nd else nd.becomeCandidateNewTermIf ok

variable [LogStorage N C L]

/-- `OnRequestVote`: `stateOk` for the write of a new term, `voteOk` for the write of the vote -/
def onRequestVoteIf (stateOk voteOk : Bool) (nd : RaftNode N C L) (request : VoteRequest N) :
    RaftNode N C L × VoteResponse :=
  if request.term < nd.term then (nd, ⟨nd.term, false⟩)
  else
    let nd := if nd.term < request.term then nd.becomeFollowerIf stateOk request.term else nd
    if nd.votedFor ≠ none ∧ nd.votedFor ≠ some request.candidateId then (nd, ⟨nd.term, false⟩)
    else if request.lastLogTerm < lastTerm nd.log then (nd, ⟨nd.term, false⟩)
    else if request.lastLogTerm = lastTerm nd.log ∧ request.lastLogIndex < lastIndex nd.log then (nd, ⟨nd.term, false⟩)
    else
      let nd := { nd with storage := nd.storage.setVotedForIf voteOk (some request.candidateId) }
      (nd, ⟨nd.term, true⟩)

def startElectionIf (ok : Bool) (nd : RaftNode N C L) : RaftNode N C L × Option (VoteRequest N × List N) :=
  if nd.shutdown then (nd, none)
  else
    let nd :=
      match nd.role with
      | .follower => nd.becomeCandidateIf ok
      | .candidate => nd.becomeCandidateNewTermIf ok
      | .leader => nd
    if nd.role ≠ .candidate then (nd, none)
    else (nd, some (⟨nd.term, nd.nodeId, lastIndex nd.log, lastTerm nd.log⟩, nd.getPeerIdsLocked))

def finishElectionIf (ok : Bool) (nd : RaftNode N C L) (req : VoteRequest N) (result : ElectionResult)
    (granters : List N) (maxPeerTerm : ℕ) : RaftNode N C L :=
  if nd.term < maxPeerTerm then nd.becomeFollowerIf ok maxPeerTerm
  else if nd.role ≠ .candidate ∨ nd.term ≠ req.term then nd
  else
    let nd := (nd.countVotes result granters).tryBecomeLeaderLocked
    if nd.role = .candidate ∧ !nd.shutdown then nd.setRoleLocked .follower else nd

/-- when the writes succeed these are the sections of `RaftNode` -/
lemma sections_written (nd : RaftNode N C L) : nd.onRequestVoteIf true true = nd.onRequestVote ∧
    nd.startElectionIf true = nd.startElection ∧ nd.finishElectionIf true = nd.finishElection ∧
    nd.becomeCandidateIf true = nd.becomeCandidateLocked ∧ nd.becomeFollowerIf true = nd.becomeFollowerLocked :=
  ⟨rfl, rfl, rfl, rfl, rfl⟩

end RaftNode

/-! ## The machine -/

/-- What happens to a node that may vote. `observe` is the first thing a heartbeat, entries, a snapshot or `TimeoutNow`
of another term does; `becomeCandidate` is what `OnElectionTimeout` and `BootstrapSingleNode` do. -/
inductive VoteEvent (N C L : Type) where
  | requestVote (request : VoteRequest N) (stateOk voteOk : Bool)
  | startElection (ok : Bool)
  | finishElection (req : VoteRequest N) (result : ElectionResult) (granters : List N) (maxPeerTerm : ℕ) (ok : Bool)
  | becomeCandidate (ok : Bool)
  | observe (term : ℕ) (ok : Bool)
  | setJointConfigState (state : ConfigState) (joint : JointConfig N) (ok : Bool)
  | setLog (log : L)
  | restart (log : L) (config : ClusterConfig N)

structure Voter (N C L : Type) where
  node : RaftNode N C L
  votes : List (ℕ × N) := []

namespace Voter

variable {N C L : Type} [DecidableEq N] [LogStorage N C L] {b b' : ℕ × Option N} {given votes : List (ℕ × N)}

def step (s : Voter N C L) : VoteEvent N C L → Voter N C L
  | .requestVote request stateOk voteOk =>
    let (nd, rsp) := s.node.onRequestVoteIf stateOk voteOk request
    ⟨nd, if rsp.voteGranted then (rsp.term, request.candidateId) :: s.votes else s.votes⟩
  | .startElection ok =>
    match s.node.startElectionIf ok with
    | (nd, none) => ⟨nd, s.votes⟩
    | (nd, some (req, _)) => ⟨nd, (req.term, req.candidateId) :: s.votes⟩
  | .finishElection req result granters maxPeerTerm ok =>
    ⟨s.node.finishElectionIf ok req result granters maxPeerTerm, s.votes⟩
  | .becomeCandidate ok =>
    let nd := s.node.becomeCandidateIf ok
    ⟨nd, if s.node.role = .candidate then s.votes else (nd.term, nd.nodeId) :: s.votes⟩
  | .observe term ok => ⟨if s.node.term < term then s.node.becomeFollowerIf ok term else s.node, s.votes⟩
  | .setJointConfigState state joint ok =>
    ⟨{ s.node with
        storage := s.node.storage.setJointConfigStateIf ok state joint, configState := state, jointConfig := joint },
      s.votes⟩
  | .setLog log => ⟨{ s.node with log := log }, s.votes⟩
  | .restart log config =>
    ⟨({ nodeId := s.node.nodeId, log := log, clusterConfig := config } : RaftNode N C L).setStoragePath s.node.files,
     s.votes⟩

def run (s : Voter N C L) (es : List (VoteEvent N C L)) : Voter N C L := es.foldl step s

def Covers (b : ℕ × Option N) (votes : List (ℕ × N)) : Prop := ∀ g ∈ votes, g.1 < b.1 ∨ (g.1 = b.1 ∧ b.2 = some g.2)

instance (b : ℕ × Option N) (votes : List (ℕ × N)) : Decidable (Covers b votes) := by unfold Covers; infer_instance

def Saved (s : Voter N C L) : VoteEvent N C L → Prop
  | .restart _ _ => Covers s.node.storage.file.ballot s.votes
  | _ => True

def SavedRun : Voter N C L → List (VoteEvent N C L) → Prop
  | _, [] => True
  | s, e :: es => s.Saved e ∧ (s.step e).SavedRun es

/-! ## One vote a term -/

def Once (votes : List (ℕ × N)) : Prop := ∀ g ∈ votes, ∀ g' ∈ votes, g.1 = g'.1 → g.2 = g'.2

/-- what a section does to the term and the vote in memory: the term grows, or the vote is kept or was none; a vote that
is given is the one in memory afterwards -/
structure Ballot (b b' : ℕ × Option N) (given : List (ℕ × N)) : Prop where
  later : b.1 < b'.1 ∨ (b'.1 = b.1 ∧ (b.2 = none ∨ b'.2 = b.2))
  given : ∀ g ∈ given, b' = (g.1, some g.2)

lemma Ballot.refl (b : ℕ × Option N) : Ballot b b [] := ⟨Or.inr ⟨rfl, Or.inr rfl⟩, fun _ hg => by cases hg⟩

lemma Ballot.covers (h : Ballot b b' given) (hc : Covers b votes) :
    Covers b' (given ++ votes) := by
  intro g hg
  rcases List.mem_append.1 hg with hg | hg
  · rw [h.given g hg]; exact Or.inr ⟨rfl, rfl⟩
  · rcases hc g hg with hlt | ⟨heq, hv⟩ <;> rcases h.later with hl | ⟨hl, hkeep⟩
    · exact Or.inl (hlt.trans hl)
    · exact Or.inl (hl ▸ hlt)
    · exact Or.inl (heq ▸ hl)
    · rcases hkeep with hnone | hkeep
      · rw [hnone] at hv; cases hv
      · exact Or.inr ⟨heq.trans hl.symm, hkeep.trans hv⟩

lemma Ballot.once (h : Ballot b b' given) (hc : Covers b votes) (ho : Once votes) : Once (given ++ votes) := by
  have hcov := h.covers hc
  have hone : ∀ g ∈ given, ∀ g' ∈ given ++ votes, g.1 = g'.1 → g.2 = g'.2 := by
    intro g hg g' hg' heq
    have hb := h.given g hg
    rcases hcov g' hg' with hlt | ⟨-, hv⟩
    · rw [hb] at hlt; exact absurd heq (by simp at hlt; omega)
    · rw [hb] at hv; exact Option.some.inj hv
  intro g hg g' hg' heq
  rcases List.mem_append.1 hg with h1 | h1
  · exact hone g h1 g' hg' heq
  rcases List.mem_append.1 hg' with h2 | h2
  · exact (hone g' h2 g hg heq.symm).symm
  · exact ho g h1 g' h2 heq

end Voter

/-! ## The sections -/

namespace RaftNode

open Voter

variable {N C L : Type} [DecidableEq N] (ok : Bool)

lemma becomeFollowerIf_ballot (nd : RaftNode N C L) (t : ℕ) :
    (nd.becomeFollowerIf ok t).storage.ballot = if nd.term < t then (t, none) else nd.storage.ballot := by
  unfold becomeFollowerIf
  rw [setRoleLocked_storage]
  split_ifs
  · exact RaftStorage.flushIf_ballot ok _
  · rfl

lemma becomeCandidateNewTermIf_ballot (nd : RaftNode N C L) :
    (nd.becomeCandidateNewTermIf ok).storage.ballot = (nd.term + 1, some nd.nodeId) := by
  unfold becomeCandidateNewTermIf
  rw [setRoleLocked_storage]
  exact RaftStorage.flushIf_ballot ok _

lemma becomeCandidateNewTermIf_id (nd : RaftNode N C L) :
    (nd.becomeCandidateNewTermIf ok).nodeId = nd.nodeId := by
  exact (setRoleLocked_data _ _).id

lemma observe_moves (nd : RaftNode N C L) (t : ℕ) :
    Ballot nd.storage.ballot (if nd.term < t then nd.becomeFollowerIf ok t else nd).storage.ballot [] := by
  split_ifs with h
  · rw [becomeFollowerIf_ballot, if_pos h]
    exact ⟨Or.inl h, nofun⟩
  · exact Ballot.refl _

lemma campaign_moves (nd : RaftNode N C L) :
    Ballot nd.storage.ballot (nd.becomeCandidateNewTermIf ok).storage.ballot
      [((nd.becomeCandidateNewTermIf ok).term, (nd.becomeCandidateNewTermIf ok).nodeId)] := by
  have hb := becomeCandidateNewTermIf_ballot ok nd
  have hterm : (nd.becomeCandidateNewTermIf ok).term = nd.term + 1 := congrArg Prod.fst hb
  rw [hterm, becomeCandidateNewTermIf_id, hb]
  refine ⟨Or.inl (Nat.lt_succ_self _), fun g hg => ?_⟩
  rw [List.mem_singleton.1 hg]

variable [LogStorage N C L] (stateOk voteOk : Bool)

lemma onRequestVoteIf_spec (nd : RaftNode N C L) (request : VoteRequest N) :
    (request.term < nd.term ∧ nd.onRequestVoteIf stateOk voteOk request = (nd, ⟨nd.term, false⟩)) ∨
    ∃ mid, mid = (if nd.term < request.term then nd.becomeFollowerIf stateOk request.term else nd) ∧
      (nd.onRequestVoteIf stateOk voteOk request = (mid, ⟨mid.term, false⟩) ∨
       ((mid.votedFor = none ∨ mid.votedFor = some request.candidateId) ∧
        nd.onRequestVoteIf stateOk voteOk request =
          ({ mid with storage := mid.storage.setVotedForIf voteOk (some request.candidateId) },
          ⟨mid.term, true⟩))) := by
  unfold onRequestVoteIf
  by_cases hold : request.term < nd.term
  · rw [if_pos hold]; exact Or.inl ⟨hold, rfl⟩
  rw [if_neg hold]
  dsimp only
  refine Or.inr ⟨_, rfl, ?_⟩
  generalize (if nd.term < request.term then nd.becomeFollowerIf stateOk request.term else nd) = mid
  by_cases hvoted : mid.votedFor ≠ none ∧ mid.votedFor ≠ some request.candidateId
  · rw [if_pos hvoted]; exact Or.inl rfl
  rw [if_neg hvoted]
  by_cases hterm : request.lastLogTerm < lastTerm mid.log
  · rw [if_pos hterm]; exact Or.inl rfl
  rw [if_neg hterm]
  by_cases hindex : request.lastLogTerm = lastTerm mid.log ∧ request.lastLogIndex < lastIndex mid.log
  · rw [if_pos hindex]; exact Or.inl rfl
  rw [if_neg hindex]
  have hstate : ({ mid with
    storage := mid.storage.setVotedForIf voteOk (some request.candidateId) } : RaftNode N C L).term =
      mid.term := congrArg Prod.fst
        (RaftStorage.flushIf_ballot voteOk { mid.storage with votedFor := some request.candidateId })
  rw [hstate]
  exact Or.inr ⟨by tauto, rfl⟩

/-- **A vote request.** -/
theorem onRequestVoteIf_moves (nd : RaftNode N C L) (request : VoteRequest N) :
    Ballot nd.storage.ballot (nd.onRequestVoteIf stateOk voteOk request).1.storage.ballot
      (if (nd.onRequestVoteIf stateOk voteOk request).2.voteGranted then
        [((nd.onRequestVoteIf stateOk voteOk request).2.term, request.candidateId)] else []) := by
  rcases onRequestVoteIf_spec stateOk voteOk nd request with ⟨-, h⟩ | ⟨mid, hmid, h | ⟨hvote, h⟩⟩
  · rw [h]; exact Ballot.refl _
  · rw [h, hmid]; exact observe_moves stateOk nd request.term
  · have hmove := observe_moves stateOk nd request.term
    rw [← hmid] at hmove
    have hb : (mid.storage.setVotedForIf voteOk (some request.candidateId)).ballot =
      (mid.term, some request.candidateId) :=
      RaftStorage.flushIf_ballot voteOk _
    rw [h]
    rw [hb]
    refine ⟨?_, fun g hg => by rw [List.mem_singleton.1 hg]⟩
    rcases hmove.later with hlt | ⟨heq, hnone | hkeep⟩
    · exact Or.inl hlt
    · exact Or.inr ⟨heq, Or.inl hnone⟩
    · -- the vote of the term is kept, and it is none or this one
      have hv : mid.votedFor = nd.votedFor := hkeep
      rw [hv] at hvote
      exact Or.inr ⟨heq, hvote.imp_right Eq.symm⟩

lemma startElectionIf_moves (nd : RaftNode N C L) : nd.startElectionIf ok = (nd, none) ∨
    ∃ peers, nd.startElectionIf ok = (nd.becomeCandidateNewTermIf ok,
      some (⟨(nd.becomeCandidateNewTermIf ok).term, (nd.becomeCandidateNewTermIf ok).nodeId,
        lastIndex (nd.becomeCandidateNewTermIf ok).log, lastTerm (nd.becomeCandidateNewTermIf ok).log⟩, peers)) := by
  have hrole : (nd.becomeCandidateNewTermIf ok).role = .candidate := setRoleLocked_role _ _
  unfold startElectionIf
  by_cases hs : nd.shutdown = true
  · rw [if_pos hs]; exact Or.inl rfl
  rw [if_neg hs]
  cases hr : nd.role with
  | leader => dsimp only; rw [if_pos (by rw [hr]; simp)]; exact Or.inl rfl
  | follower =>
    have he : nd.becomeCandidateIf ok = nd.becomeCandidateNewTermIf ok := by
      unfold becomeCandidateIf; rw [if_neg (by rw [hr]; simp)]
    rw [he, if_neg (by rw [hrole]; simp)]
    exact Or.inr ⟨_, rfl⟩
  | candidate =>
    rw [if_neg (by rw [hrole]; simp)]
    exact Or.inr ⟨_, rfl⟩

lemma finishElectionIf_moves (nd : RaftNode N C L) (req : VoteRequest N) (result : ElectionResult)
    (granters : List N) (maxPeerTerm : ℕ) :
    Ballot nd.storage.ballot (nd.finishElectionIf ok req result granters maxPeerTerm).storage.ballot [] := by
  by_cases hlt : nd.term < maxPeerTerm
  · have h := observe_moves ok nd maxPeerTerm
    rw [if_pos hlt] at h
    unfold finishElectionIf
    rw [if_pos hlt]
    exact h
  · -- the tally writes nothing
    have htally : (nd.countVotes result granters).storage = nd.storage := by
      unfold countVotes
      dsimp only
      split <;> rfl
    have hlead : ((nd.countVotes result granters).tryBecomeLeaderLocked).storage = nd.storage := by
      rcases tryBecomeLeaderLocked_spec nd result granters with he | ⟨-, he⟩
      · rw [he, htally]
      · rw [he, becomeLeaderLocked, becomeLeaderInitPeersLocked]
        rw [setRoleLocked_storage, htally]
    have hsame : (nd.finishElectionIf ok req result granters maxPeerTerm).storage = nd.storage := by
      unfold finishElectionIf
      dsimp only
      split_ifs
      · rfl
      · rw [setRoleLocked_storage, hlead]
      · exact hlead
    rw [hsame]
    exact Ballot.refl _

lemma setStoragePath_ballot (nd : RaftNode N C L) (f : RaftFiles N C) :
    (nd.setStoragePath f).storage.ballot = f.metaJson.ballot := by
  unfold setStoragePath recoverFromSnapshot
  split <;> rfl

end RaftNode

/-! ## Runs -/

namespace Voter

open RaftNode

variable {N C L : Type} [DecidableEq N] [LogStorage N C L] (s : Voter N C L)

lemma step_moves (e : VoteEvent N C L) :
    (∃ given, (s.step e).votes = given ++ s.votes ∧ Ballot s.node.storage.ballot (s.step e).node.storage.ballot given) ∨
    (∃ log config, e = .restart log config ∧ (s.step e).votes = s.votes ∧
      (s.step e).node.storage.ballot = s.node.storage.file.ballot) := by
  cases e with
  | requestVote request stateOk voteOk =>
    refine Or.inl ⟨_, ?_, onRequestVoteIf_moves stateOk voteOk s.node request⟩
    show (if (s.node.onRequestVoteIf stateOk voteOk request).2.voteGranted then _ else s.votes) = _
    split <;> rfl
  | startElection ok =>
    rcases startElectionIf_moves ok s.node with he | ⟨peers, he⟩
    · have hs : s.step (.startElection ok) = ⟨s.node, s.votes⟩ := by simp only [step, he]
      rw [hs]
      exact Or.inl ⟨[], rfl, Ballot.refl _⟩
    · have hs : s.step (.startElection ok) = ⟨s.node.becomeCandidateNewTermIf ok,
          ((s.node.becomeCandidateNewTermIf ok).term, (s.node.becomeCandidateNewTermIf ok).nodeId) :: s.votes⟩ := by
        simp only [step, he]
      rw [hs]
      exact Or.inl ⟨_, rfl, campaign_moves ok s.node⟩
  | finishElection req result granters maxPeerTerm ok =>
    exact Or.inl ⟨[], rfl, finishElectionIf_moves ok s.node req result granters maxPeerTerm⟩
  | becomeCandidate ok =>
    by_cases hr : s.node.role = .candidate
    · have hs : s.step (.becomeCandidate ok) = ⟨s.node, s.votes⟩ := by
        simp only [step, becomeCandidateIf, if_pos hr]
      rw [hs]
      exact Or.inl ⟨[], rfl, Ballot.refl _⟩
    · have hs : s.step (.becomeCandidate ok) = ⟨s.node.becomeCandidateNewTermIf ok,
          ((s.node.becomeCandidateNewTermIf ok).term, (s.node.becomeCandidateNewTermIf ok).nodeId) :: s.votes⟩ := by
        simp only [step, becomeCandidateIf, if_neg hr]
      rw [hs]
      exact Or.inl ⟨_, rfl, campaign_moves ok s.node⟩
  | observe term ok => exact Or.inl ⟨[], rfl, observe_moves ok s.node term⟩
  | setJointConfigState state joint ok =>
    have hb : (s.step (.setJointConfigState state joint ok)).node.storage.ballot = s.node.storage.ballot :=
      RaftStorage.flushIf_ballot ok _
    exact Or.inl ⟨[], rfl, by rw [hb]; exact Ballot.refl _⟩
  | setLog => exact Or.inl ⟨[], rfl, Ballot.refl _⟩
  | restart log config => exact Or.inr ⟨log, config, rfl, rfl, setStoragePath_ballot _ _⟩

def Covered (s : Voter N C L) : Prop := Covers s.node.storage.ballot s.votes ∧ Once s.votes

lemma step_covered (e : VoteEvent N C L) (hs : s.Saved e) (h : s.Covered) : (s.step e).Covered := by
  rcases step_moves s e with ⟨given, hv, hb⟩ | ⟨log, config, rfl, hv, hb⟩
  · unfold Covered
    rw [hv]
    exact ⟨hb.covers h.1, hb.once h.1 h.2⟩
  · unfold Covered
    rw [hb]
    exact ⟨hs, h.2⟩

lemma run_covered (es : List (VoteEvent N C L)) (hs : s.SavedRun es) (h : s.Covered) :
    (s.run es).Covered := by
  induction es generalizing s with
  | nil => exact h
  | cons e _ ih => exact ih (s.step e) hs.2 (step_covered s e hs.1 h)

/-- **One vote a term.** -/
theorem votes_once (nd : RaftNode N C L) (es : List (VoteEvent N C L)) (hs : SavedRun ⟨nd, []⟩ es) :
    Once (run ⟨nd, []⟩ es).votes :=
  (run_covered ⟨nd, []⟩ es hs ⟨nofun, nofun⟩).2

def newVoter : RaftNode (Fin 3) ℕ (CommandLog (Fin 3) ℕ) := { nodeId := 0, log := empty }

def savedLater : List (VoteEvent (Fin 3) ℕ (CommandLog (Fin 3) ℕ)) :=
  [.requestVote ⟨1, 1, 0, 0⟩ true false, .observe 2 true, .restart empty {}, .requestVote ⟨2, 2, 0, 0⟩ true true]

theorem votes_once_savedLater : (run ⟨newVoter, []⟩ savedLater).votes = [(2, 2), (1, 1)] ∧
    Once (run ⟨newVoter, []⟩ savedLater).votes := by
  have hs : SavedRun ⟨newVoter, []⟩ savedLater := by
    refine ⟨trivial, trivial, ?_, trivial, trivial⟩
    show Covers _ _
    decide +kernel
  exact ⟨by decide +kernel, votes_once newVoter savedLater hs⟩

/-- The vote for node 1 in term 1 is given though its write failed; the restart loads term 1 without a vote, and node 2
gets one, too. -/
theorem votes_twice : ∃ es : List (VoteEvent (Fin 3) ℕ (CommandLog (Fin 3) ℕ)),
    (run ⟨newVoter, []⟩ es).votes = [(1, 2), (1, 1)] ∧ ¬ Once (run ⟨newVoter, []⟩ es).votes := by
  refine ⟨[.requestVote ⟨1, 1, 0, 0⟩ true false, .restart empty {}, .requestVote ⟨1, 2, 0, 0⟩ true true], ?_, ?_⟩
  · decide +kernel
  · intro h
    have heq := h (1, 2) (by decide +kernel) (1, 1) (by decide +kernel) rfl
    exact absurd heq (by decide)

end Voter

end MaxRedis.Raft

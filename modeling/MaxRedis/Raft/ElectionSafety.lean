/-
Election Safety with fixed membership.

A leader has the votes of a majority in the table of votes, at the moment it wins and for ever after, since the table
only grows. Two leaders of one term would share a voter.
-/
import MaxRedis.Raft.Membership

namespace MaxRedis.Raft

open LogStorage LawfulLog RaftNode List

variable {N C L : Type} {nd nd' : RaftNode N C L}

def StillLeads (nd nd' : RaftNode N C L) : Prop := nd'.role = .leader → nd.role = .leader ∧ nd'.term = nd.term

lemma StillLeads.of_role
    (h : nd'.role ≠ .follower → nd'.role = nd.role ∧ nd'.term = nd.term) : StillLeads nd nd' := by
  intro hr
  obtain ⟨h1, h2⟩ := h (by rw [hr]; simp)
  exact ⟨by rw [← h1, hr], h2⟩

lemma StillLeads.of_quiet (h : Quiet nd nd') : StillLeads nd nd' := .of_role h.role

lemma StillLeads.of_campaigns (h : Campaigns nd nd') : StillLeads nd nd' := by
  intro hr
  cases h.role.symm.trans hr

namespace Cluster

variable [DecidableEq N] [LogStorage N C L] [LawfulLog N C L] {s s' : Cluster N C L} {a : Action N C L}

inductive NewLeader (s : Cluster N C L) (a : Action N C L) (s' : Cluster N C L) (n : N) : Prop where
  | still (role : (s.nodes n).role = .leader) (term : (s'.nodes n).term = (s.nodes n).term)
  | alone (act : a = .call n .bootstrapSingleNode) (peers : (s.nodes n).getPeerIdsLocked = [])
      (old : (s.nodes n).role ≠ .leader)
      (term : (s'.nodes n).term = if (s.nodes n).role = .candidate then (s.nodes n).term else (s.nodes n).term + 1)
  | elected (k : ℕ) (act : a = .advance k) (f : Fiber N C) (hk : s.fibers[k]? = some f) (rpc : f.rpc = none)
      (owner : f.owner = n) (e : Election N) (pc : f.pc = .election e) (todo : e.todo = [])
      (wins : Wins (s.nodes n) (s'.nodes n) e.req e.result e.granters)

lemma new_leader (ht : Trans s a s') (n : N) (hr : (s'.nodes n).role = .leader) : NewLeader s a s' n := by
  have hstill : StillLeads (s.nodes n) (s'.nodes n) → NewLeader s a s' n := fun h => .still (h hr).1 (h hr).2
  have hquiet : Quiet (s.nodes n) (s'.nodes n) → NewLeader s a s' n := fun h => hstill (.of_quiet h)
  cases ht.node n with
  | kept _ h => exact hquiet h.quiet
  | applied _ _ _ _ _ eq => exact hquiet (by rw [eq]; exact (applyCommittedLogsLocked_applies _).same.quiet)
  | persisted _ _ _ _ _ eq => exact hstill (by rw [eq]; exact fun h => ⟨h, rfl⟩)
  | campaign _ h => exact hstill (.of_campaigns h)
  | boot hp hold _ hterm => exact .alone rfl hp hold hterm
  | wins k f hk hrpc ho e he htodo h => exact .elected k rfl f hk hrpc ho e he htodo h
  | countBeats _ _ _ _ _ _ _ _ eq => exact hquiet (by rw [eq]; exact heartbeatFinish_quiet _ _ _ _ _ _)
  | append _ _ eq => exact hstill (by rw [eq]; exact fun h => ⟨h, rfl⟩)
  | refresh _ eq => exact hquiet (by rw [eq]; exact (refreshPeers_only _).same.quiet)
  | countAppends _ _ _ _ _ _ eq => exact hquiet (by rw [eq]; exact replicateFinish_quiet _ _ _)
  | alone _ _ _ _ eq => exact hquiet (by rw [eq]; exact replicateAlone_quiet _)
  | config target eq => exact hquiet (by rw [eq]; exact beginConfigChange_quiet _ target)
  | snapshot eq => exact hquiet (by rw [eq]; exact (createSnapshotIfNeeded_same _).quiet)
  | grants _ _ _ h => exact hstill (.of_role h.role)
  | beaten _ req _ eq => exact hquiet (by rw [eq]; exact onHeartbeat_quiet _ req)
  | adopts _ req _ eq => exact hquiet (by rw [eq]; exact onAppendEntries_quiet _ req)
  | installs _ req _ eq => exact hquiet (by rw [eq]; exact onInstallSnapshot_quiet _ req)
  | restart _ eq => exact hstill (by rw [eq]; exact nofun)

/-! ## Majorities of votes -/

variable [Fintype N] {tbl : N → ℕ → Option N} {nd : RaftNode N C L}

lemma alone_majority {n : N} (h : FixedNode n nd) (hid : nd.nodeId = n)
    (hp : nd.getPeerIdsLocked = []) : Majority {n} := by
  have hnil : nd.clusterConfig.voters.ids = [] := by
    have hp := (nd.getPeerIdsLocked_perm.symm.trans (.of_eq hp)).eq_nil
    rw [peerSet, h.clean.state] at hp
    simp only [filter_eq_nil_iff, hid] at hp
    by_contra hne
    obtain ⟨x, hx⟩ := exists_mem_of_ne_nil _ hne
    have hxn := (h.voters x).1 hx
    exact hp x hx (by simpa using hxn)
  have hcard := h.card
  rw [hnil, length_nil] at hcard
  unfold Majority
  rw [Finset.card_singleton]
  omega

lemma elected_majority {n : N} (h : FixedNode n nd) {e : Election N}
    {rpc : Option (Envelope N C)} (hok : ElectionOk tbl n e rpc) (todo : e.todo = [])
      (hw : Won nd e.result e.granters) : ∃ q : Finset N, Majority q ∧ ∀ v ∈ q, tbl v e.req.term = some n := by
  have hn := hok.nodup
  have ho := hok.other
  rw [todo, append_nil] at hn ho
  unfold Won at hw
  rw [h.clean.state, hok.count] at hw
  refine ⟨(n :: e.granters).toFinset, .of_list (nodup_cons.2 ⟨ho, hn⟩) h.card hw, fun v hm => ?_⟩
  rcases mem_cons.1 (mem_toFinset.1 hm) with rfl | hm
  · exact hok.voted
  · exact hok.granted v hm

def Elected (tbl : N → ℕ → Option N) (s : Cluster N C L) : Prop :=
  ∀ n, (s.nodes n).role = .leader → ∃ q : Finset N, Majority q ∧ ∀ v ∈ q, tbl v (s.nodes n).term = some n

lemma elected_step (hv : VoteRep tbl s) (hf : Fixed s) (h : Elected tbl s) (ht : Trans s a s') :
    Elected (recordVotes tbl s') s' := by
  have hext := recordVotes_ext hv ht
  have hv' := recordVotes_step hv ht
  intro n hr
  cases new_leader ht n hr with
  | still role term =>
    obtain ⟨q, hq, hvote⟩ := h n role
    exact ⟨q, hq, fun v hm => hext _ _ _ (by rw [term]; exact hvote v hm)⟩
  | alone _ peers =>
    refine ⟨{n}, alone_majority (hf.nodes n) (hv.id n) peers, fun v hm => ?_⟩
    rw [Finset.mem_singleton.1 hm, hv'.cur n]
    exact hv'.self n (by rw [hr]; simp)
  | elected _ _ f hk _ owner e pc todo wins =>
    have hok := hv.fibers f (mem_of_getElem? hk) e pc
    rw [owner] at hok
    obtain ⟨q, hq, hvote⟩ := elected_majority (hf.nodes n) hok todo wins.won
    exact ⟨q, hq, fun v hm => hext _ _ _ (by rw [wins.term_eq]; exact hvote v hm)⟩

/-! ## Whole runs -/

structure VoteInv (tbl : N → ℕ → Option N) (s : Cluster N C L) : Prop where
  rep : VoteRep tbl s
  fixed : Fixed s
  elected : Elected tbl s

lemma voteInv_init (config : N → ClusterConfig N) (hc : ∀ n m, m ∈ (config n).voters.ids ↔ m ≠ n) :
    VoteInv (fun _ _ => none) (init config : Cluster N C L) :=
  ⟨voteRep_init config, fixed_init config hc, fun n hr => by simp [init] at hr⟩

lemma voteInv_run (as : List (Action N C L)) (ha : ∀ a ∈ as, a.FixedMembership) (tbl : N → ℕ → Option N)
    (s : Cluster N C L) (h : VoteInv tbl s) :
    ∃ tbl', VoteInv tbl' (run s as) ∧ ∀ n t c, tbl n t = some c → tbl' n t = some c := by
  induction as generalizing tbl s with
  | nil => exact ⟨tbl, h, fun _ _ _ hc => hc⟩
  | cons a _ ih =>
    have ht := step_trans s a
    have hnext : VoteInv (recordVotes tbl (s.step a)) (s.step a) :=
      ⟨recordVotes_step h.rep ht, fixed_step h.rep.file h.fixed (ha a mem_cons_self) ht,
        elected_step h.rep h.fixed h.elected ht⟩
    obtain ⟨tbl', h', hext⟩ := ih (fun x hx => ha x (mem_cons_of_mem _ hx)) _ _ hnext
    exact ⟨tbl', h', fun n t c hc => hext n t c (recordVotes_ext h.rep ht n t c hc)⟩

/-- **Election Safety.** -/
theorem electionSafety (config : N → ClusterConfig N) (hc : ∀ n m, m ∈ (config n).voters.ids ↔ m ≠ n)
    (as bs : List (Action N C L)) (ha : ∀ a ∈ as ++ bs, a.FixedMembership) (n m : N)
    (hn : ((run (init config) as).nodes n).role = .leader)
    (hm : ((run (init config) (as ++ bs)).nodes m).role = .leader)
    (ht : ((run (init config) as).nodes n).term = ((run (init config) (as ++ bs)).nodes m).term) : n = m := by
  obtain ⟨tbl, h1, -⟩ :=
    voteInv_run as (fun a h => ha a (mem_append_left _ h)) _ _ (voteInv_init (L := L) config hc)
  obtain ⟨tbl', h2, hext⟩ := voteInv_run bs (fun a h => ha a (mem_append_right _ h)) tbl _ h1
  rw [← run_append] at h2
  obtain ⟨p, hp, hpv⟩ := h1.elected n hn
  obtain ⟨q, hq, hqv⟩ := h2.elected m hm
  obtain ⟨v, hvp, hvq⟩ := hp.meet hq
  have e1 := hext v _ _ (hpv v hvp)
  have e2 := hqv v hvq
  rw [← ht] at e2
  exact Option.some.inj (e1.symm.trans e2)

def othersConfig (k : ℕ) (n : Fin k) : ClusterConfig (Fin k) :=
  { voters := ⟨(List.finRange k).filter (· ≠ n), (List.nodup_finRange k).filter _⟩ }

abbrev Steps3 := List (Action (Fin 3) ℕ (CommandLog (Fin 3) ℕ))

def electZero : List (Action (Fin 3) ℕ (CommandLog (Fin 3) ℕ)) :=
  [.call 0 .startElection, .advance 0, .deliver 0, .recv 0, .advance 0, .deliver 0, .recv 0, .advance 0]

theorem electZero_leads : ((run (init (othersConfig 3)) electZero).nodes 0).role = .leader ∧
    ((run (init (othersConfig 3)) electZero).nodes 0).term = 1 ∧ (0 : Fin 3) = 0 :=
  ⟨by decide +kernel, by decide +kernel,
    electionSafety (othersConfig 3) (by decide) electZero [] (by simp [electZero, Action.FixedMembership]) 0 0
      (by decide +kernel) (by decide +kernel) (by decide +kernel)⟩

end Cluster

end MaxRedis.Raft

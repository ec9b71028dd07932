/-
Votes along a run.

A table says whom each node voted for in each term.
-/
import MaxRedis.Raft.Transitions

namespace MaxRedis.Raft

open LogStorage RaftNode List

variable {N C L : Type}

structure VoteMove (nd nd' : RaftNode N C L) : Prop where
  id : nd'.nodeId = nd.nodeId
  file : FileOk nd'
  le : nd.term ≤ nd'.term
  keep : nd'.term = nd.term → nd.votedFor ≠ none → nd'.votedFor = nd.votedFor
  self : nd'.role ≠ .follower → nd'.votedFor = some nd.nodeId ∨
    (nd.role ≠ .follower ∧ nd'.term = nd.term)

section
variable {nd nd' mid : RaftNode N C L}

lemma VoteMove.of_quiet (hf : FileOk nd) (h : Quiet nd nd') : VoteMove nd nd' := by
  refine ⟨h.id, h.file hf, h.term, fun e _ => h.vote e, fun hr => Or.inr ?_⟩
  obtain ⟨h1, h2⟩ := h.role hr
  exact ⟨by rwa [← h1], h2⟩

lemma VoteMove.of_campaigns (hf : FileOk nd) (h : Campaigns nd nd') : VoteMove nd nd' :=
  ⟨h.data.id, h.file hf, h.term.le, fun e => absurd e h.term.ne', fun _ => Or.inl h.vote⟩

variable [DecidableEq N] [LogStorage N C L]

lemma VoteMove.of_leads (hf : FileOk nd) (h : Leads nd nd') (hr : nd.role ≠ .follower) : VoteMove nd nd' := by
  have ht := h.term_eq
  have hv := h.vote_eq
  refine ⟨h.data.id, ⟨?_, ?_, ?_, ?_⟩, ht.ge, fun _ _ => hv, fun _ => Or.inr ⟨hr, ht⟩⟩
  · rw [h.storage, ht]; exact hf.term
  · rw [h.storage, hv]; exact hf.vote
  · rw [h.storage, h.data.state]; exact hf.state
  · rw [h.storage, h.data.state]; exact hf.memory

lemma VoteMove.of_boot (hf : FileOk nd) (hm : (nd.role = .candidate ∧ mid = nd) ∨ Campaigns nd mid)
    (hl : Leads mid nd') : VoteMove nd nd' := by
  rcases hm with ⟨hr, rfl⟩ | hc
  · exact .of_leads hf hl (by rw [hr]; simp)
  · have h1 := VoteMove.of_campaigns hf hc
    have h2 := VoteMove.of_leads h1.file hl (by rw [hc.role]; simp)
    have ht := h2.le
    refine ⟨h2.id.trans h1.id, h2.file, h1.le.trans h2.le, fun e => ?_, fun _ => Or.inl (hl.vote_eq.trans hc.vote)⟩
    have := hc.term
    omega

lemma VoteMove.of_grants {req : VoteRequest N} (hf : FileOk nd) (h : Grants nd nd' req) : VoteMove nd nd' := by
  refine ⟨h.data.id, h.file hf, by rw [h.term]; exact h.le, fun ht hv => ?_, fun hr => Or.inr ?_⟩
  · rcases h.free (by rw [← h.term, ht]) with h0 | h0
    · exact absurd h0 hv
    · rw [h0, h.vote]
  · obtain ⟨h1, h2⟩ := h.role hr
    exact ⟨by rwa [← h1], h2⟩

lemma VoteMove.of_restart (hf : FileOk nd) (r : Recovered N C L) : VoteMove nd (Cluster.restartNode nd r) :=
  ⟨rfl, ⟨rfl, rfl, rfl, rfl⟩, hf.term.ge, fun _ _ => hf.vote, fun h => absurd rfl h⟩

end

namespace Cluster

variable [DecidableEq N] [LogStorage N C L] [LawfulLog N C L]

theorem trans_moves {s s' : Cluster N C L} {a : Action N C L} (hf : ∀ n, FileOk (s.nodes n)) (ht : Trans s a s')
    (n : N) : VoteMove (s.nodes n) (s'.nodes n) := by
  have hquiet : Quiet (s.nodes n) (s'.nodes n) → VoteMove (s.nodes n) (s'.nodes n) := .of_quiet (hf n)
  cases ht.node n with
  | kept _ h => exact hquiet h.quiet
  | applied _ _ _ _ _ eq => exact hquiet (by rw [eq]; exact (applyCommittedLogsLocked_applies _).same.quiet)
  | persisted _ _ _ _ _ eq => exact hquiet (by rw [eq]; exact SameVote.quiet (.of_view rfl))
  | campaign _ h => exact .of_campaigns (hf n) h
  | boot _ _ _ _ hm hl => exact .of_boot (hf n) hm hl
  | wins _ _ _ _ _ _ _ _ h => exact .of_leads (hf n) h.leads (by rw [h.old]; simp)
  | countBeats _ _ _ _ _ _ _ _ eq => exact hquiet (by rw [eq]; exact heartbeatFinish_quiet _ _ _ _ _ _)
  | append _ _ eq => exact hquiet (by rw [eq]; exact SameVote.quiet (.of_view rfl))
  | refresh _ eq => exact hquiet (by rw [eq]; exact (refreshPeers_only _).same.quiet)
  | countAppends _ _ _ _ _ _ eq => exact hquiet (by rw [eq]; exact replicateFinish_quiet _ _ _)
  | alone _ _ _ _ eq => exact hquiet (by rw [eq]; exact replicateAlone_quiet _)
  | config target eq => exact hquiet (by rw [eq]; exact beginConfigChange_quiet _ target)
  | snapshot eq => exact hquiet (by rw [eq]; exact (createSnapshotIfNeeded_same _).quiet)
  | grants _ _ _ h => exact .of_grants (hf n) h
  | beaten _ req _ eq => exact hquiet (by rw [eq]; exact onHeartbeat_quiet _ req)
  | adopts _ req _ eq => exact hquiet (by rw [eq]; exact onAppendEntries_quiet _ req)
  | installs _ req _ eq => exact hquiet (by rw [eq]; exact onInstallSnapshot_quiet _ req)
  | restart r eq => rw [eq]; exact .of_restart (hf n) r

end Cluster

/-! ## The table of votes -/

structure ElectionOk (tbl : N → ℕ → Option N) (owner : N) (e : Election N) (rpc : Option (Envelope N C)) : Prop where
  cand : e.req.candidateId = owner
  voted : tbl owner e.req.term = some owner
  granted : ∀ v ∈ e.granters, tbl v e.req.term = some owner
  count : e.result.votesReceived = e.granters.length + 1
  nodup : (e.granters ++ e.todo).Nodup
  other : owner ∉ e.granters ++ e.todo
  asked : ∀ v ∈ e.granters ++ e.todo, v ∈ e.peers
  sent : ∀ env, rpc = some env → env.request = .vote e.req ∧ e.todo.head? = some env.dst ∧
    ∀ rsp, env.response = some (.vote rsp) → rsp.voteGranted → tbl env.dst e.req.term = some owner

def VotesOk (tbl : N → ℕ → Option N) (f : Fiber N C) : Prop := ∀ e, f.pc = .election e → ElectionOk tbl f.owner e f.rpc

structure VoteRep (tbl : N → ℕ → Option N) (s : Cluster N C L) : Prop where
  id : ∀ n, (s.nodes n).nodeId = n
  file : ∀ n, FileOk (s.nodes n)
  cur : ∀ n, tbl n (s.nodes n).term = (s.nodes n).votedFor
  future : ∀ n t, (s.nodes n).term < t → tbl n t = none
  self : ∀ n, (s.nodes n).role ≠ .follower → (s.nodes n).votedFor = some n
  fibers : ∀ f ∈ s.fibers, VotesOk tbl f

def recordVotes (tbl : N → ℕ → Option N) (s : Cluster N C L) : N → ℕ → Option N :=
  fun n t => if t = (s.nodes n).term then (s.nodes n).votedFor else tbl n t

section
variable {tbl tbl' : N → ℕ → Option N} {owner : N} {e : Election N} {rpc : Option (Envelope N C)} {f g : Fiber N C}

lemma ElectionOk.mono (h : ElectionOk tbl owner e rpc) (hext : ∀ n t c, tbl n t = some c → tbl' n t = some c) :
    ElectionOk tbl' owner e rpc :=
  ⟨h.cand, hext _ _ _ h.voted, fun v hv => hext _ _ _ (h.granted v hv), h.count, h.nodup, h.other, h.asked,
    fun env he => ⟨(h.sent env he).1, (h.sent env he).2.1, fun rsp h1 h2 => hext _ _ _ ((h.sent env he).2.2 rsp h1 h2)⟩⟩

lemma ElectionOk.onRsp (h : ElectionOk tbl owner e rpc) {peer : N} {rsp : VoteResponse}
    (hd : e.todo.head? = some peer) (hg : rsp.voteGranted → tbl peer e.req.term = some owner) :
    ElectionOk tbl owner (e.onRsp peer rsp) (none : Option (Envelope N C)) := by
  obtain ⟨rest, ht⟩ : ∃ rest, e.todo = peer :: rest := by
    cases hx : e.todo with
    | nil => rw [hx] at hd; simp at hd
    | cons _ rest => rw [hx] at hd; exact ⟨rest, by rw [← Option.some.inj hd]⟩
  have hn := h.nodup
  have ho := h.other
  have ha := h.asked
  rw [ht] at hn ho ha
  cases hv : rsp.voteGranted with
  | true =>
    have hl : (e.onRsp peer rsp).granters ++ (e.onRsp peer rsp).todo = e.granters ++ peer :: rest := by
      simp [Election.onRsp, hv, ht]
    refine ⟨h.cand, h.voted, fun v hm => ?_,
      ?_, by rwa [hl], by rwa [hl], by rw [hl]; exact ha, nofun⟩
    · simp only [Election.onRsp, hv, if_true, mem_append, mem_singleton] at hm
      rcases hm with hm | rfl
      · exact h.granted v hm
      · exact hg hv
    · simp [Election.onRsp, hv, h.count]
  | false =>
    have hl : (e.onRsp peer rsp).granters ++ (e.onRsp peer rsp).todo = e.granters ++ rest := by
      simp [Election.onRsp, hv, ht]
    have hsub : (e.granters ++ rest).Sublist (e.granters ++ peer :: rest) :=
      List.Sublist.append_left (sublist_cons_self _ _) _
    refine ⟨h.cand, h.voted, fun v hm => h.granted v (by simpa [Election.onRsp, hv] using hm), ?_, ?_, ?_, ?_,
      nofun⟩
    · simp [Election.onRsp, hv, h.count]
    · rw [hl]; exact hn.sublist hsub
    · rw [hl]; exact fun hm => ho (hsub.subset hm)
    · rw [hl]; exact fun v hm => ha v (hsub.subset hm)

lemma VotesOk.inert (h : f.Inert) : VotesOk tbl f := by
  intro e he
  have := h.pc
  rw [he] at this
  exact this.elim

lemma VotesOk.like (h : VotesOk tbl g) (hl : f.Like g) : VotesOk tbl f := by
  intro e he
  rw [hl.owner, hl.rpc]
  exact h e (by rw [← hl.pc]; exact he)

lemma VotesOk.answer (h : VotesOk tbl f) {env : Envelope N C} {rsp : Response} (hr : f.rpc = some env)
    (hrsp : env.response = some rsp ∨ rsp = env.request.failed) :
    VotesOk tbl { f with pc := f.pc.onRsp env.dst rsp, rpc := none } := by
  intro e' he'
  cases hf : f.pc with
  | election e =>
    have hok := h e hf
    obtain ⟨hreq, hd, hg⟩ := hok.sent _ hr
    simp only [hf] at he'
    cases rsp with
    | vote rsp =>
      simp only [Pc.onRsp, Pc.election.injEq] at he'
      subst he'
      refine hok.onRsp hd (fun hv => ?_)
      rcases hrsp with hrsp | hrsp
      · exact hg rsp hrsp hv
      · rw [hreq] at hrsp
        simp only [Request.failed, Response.vote.injEq] at hrsp
        rw [hrsp] at hv
        simp at hv
    | _ =>
      simp only [Pc.onRsp, Pc.election.injEq] at he'
      subst he'
      exact ⟨hok.cand, hok.voted, hok.granted, hok.count, hok.nodup, hok.other, hok.asked, nofun⟩
  | _ => simp only [hf] at he'; cases rsp <;> simp [Pc.onRsp] at he'

end

/-! ## The table is kept -/

section
variable [DecidableEq N]

lemma nodup_getPeerIdsLocked (nd : RaftNode N C L) : nd.getPeerIdsLocked.Nodup := by
  rw [nd.getPeerIdsLocked_perm.nodup_iff]
  unfold peerSet
  split
  · refine List.Nodup.filter _ (List.Nodup.append (IdSet.nodup _) ((IdSet.nodup _).filter _) ?_)
    intro x hx hy
    simp only [mem_filter, IdSet.count, Bool.not_eq_true', decide_eq_false_iff_not] at hy
    exact hy.2 hx
  · exact (IdSet.nodup _).filter _

lemma self_notMem_getPeerIdsLocked (nd : RaftNode N C L) : nd.nodeId ∉ nd.getPeerIdsLocked := by
  rw [nd.getPeerIdsLocked_perm.mem_iff]
  unfold peerSet
  split <;> simp [mem_filter]

end

namespace Cluster

variable [DecidableEq N] [LogStorage N C L] {tbl tbl' : N → ℕ → Option N} {s s' : Cluster N C L}

lemma electionFiber_ok (n : N) {nd nd' : RaftNode N C L} (hid : nd.nodeId = n) (hc : Campaigns nd nd')
    (hcur : tbl n nd'.term = nd'.votedFor) : VotesOk tbl (electionFiber nd nd' n : Fiber N C) := by
  intro e he
  simp only [electionFiber, Pc.election.injEq] at he
  subst he
  refine ⟨hid, hcur.trans (by rw [hc.vote, hid]; rfl), nofun, rfl, nodup_getPeerIdsLocked nd, ?_,
    fun v hv => by simpa using hv, nofun⟩
  rw [← hid]; exact self_notMem_getPeerIdsLocked nd

lemma handle_vote_granted (dst : N) (r : VoteRequest N)
    (hcur : tbl dst ((s.handle dst (.vote r)).1.nodes dst).term = ((s.handle dst (.vote r)).1.nodes dst).votedFor)
    (rsp : VoteResponse) (hrsp : (s.handle dst (.vote r)).2 = .vote rsp) (hg : rsp.voteGranted) :
    tbl dst r.term = some r.candidateId := by
  simp only [handle, setNode_self] at hcur hrsp
  rw [← Response.vote.inj hrsp] at hg
  rcases onRequestVote_spec (s.nodes dst) r with ⟨-, h⟩ | ⟨h, -⟩
  · rw [h] at hg; simp at hg
  · rw [← h.vote, ← h.term]; exact hcur

lemma vote_fibers (h : VoteRep tbl s) (ht : Trans s a s') (hcur : ∀ n, tbl' n (s'.nodes n).term = (s'.nodes n).votedFor)
    (hext : ∀ n t c, tbl n t = some c → tbl' n t = some c) : ∀ f ∈ s'.fibers, VotesOk tbl' f := by
  have hold : ∀ f ∈ s.fibers, VotesOk tbl' f := fun f hf e he => (h.fibers f hf e he).mono hext
  have hmem : ∀ {k : ℕ} {f : Fiber N C}, s.fibers[k]? = some f → VotesOk tbl' f :=
    fun hk => hold _ (mem_of_getElem? hk)
  intro f hf
  replace hf := ht.fiber f hf
  cases hf with
  | like _ _ g hg hl => exact (hold g hg).like hl
  | inert _ _ hi => exact .inert hi
  | elect _ n hc => exact electionFiber_ok n (h.id n) hc (hcur n)
  | sendVote _ _ hk e he _ _ htodo =>
    intro e' he'
    have hok := hmem hk e' he'
    obtain rfl : e' = e := by simpa [he] using he'.symm
    refine ⟨hok.cand, hok.voted, hok.granted, hok.count, hok.nodup, hok.other, hok.asked, fun env henv => ?_⟩
    rw [← Option.some.inj henv]
    exact ⟨rfl, by rw [htodo]; rfl, nofun⟩
  | stopVotes _ _ hk hr e he =>
    intro e' he'
    have hok := hmem hk e he
    obtain rfl : { e with todo := [] } = e' := by simpa using he'
    have hsub : (e.granters ++ []).Sublist (e.granters ++ e.todo) := List.Sublist.append_left (nil_sublist _) _
    exact ⟨hok.cand, hok.voted, hok.granted, hok.count, hok.nodup.sublist hsub, fun hm => hok.other (hsub.subset hm),
      fun v hm => hok.asked v (hsub.subset hm), fun env henv => by simp [hr] at henv⟩
  | sendBeat _ _ _ _ he => exact fun e he' => by simp [he] at he'
  | sendAppend _ _ _ _ _ he => exact fun e he' => by simp [he] at he'
  | answer _ f hf _ hr _ hrsp => exact (hold f hf).answer hr hrsp
  | deliver _ _ hk dst _ hr hn =>
    intro e he
    have hok := hmem hk e he
    obtain ⟨hreq, hd, -⟩ := hok.sent _ hr
    refine ⟨hok.cand, hok.voted, hok.granted, hok.count, hok.nodup, hok.other, hok.asked, fun env henv => ?_⟩
    rw [← Option.some.inj henv]
    refine ⟨hreq, hd, fun rsp hrsp hg => ?_⟩
    subst hreq
    rw [← hok.cand]
    exact handle_vote_granted dst e.req (by rw [← hn]; exact hcur dst) rsp (Option.some.inj hrsp) hg
  | _ => exact nofun

variable [LawfulLog N C L]

theorem vote_step (h : VoteRep tbl s) (ht : Trans s a s') (hcur : ∀ n, tbl' n (s'.nodes n).term = (s'.nodes n).votedFor)
    (hfut : ∀ n t, (s'.nodes n).term < t → tbl' n t = none)
    (hext : ∀ n t c, tbl n t = some c → tbl' n t = some c) : VoteRep tbl' s' := by
  have hm := trans_moves h.file ht
  refine ⟨fun n => (hm n).id.trans (h.id n), fun n => (hm n).file, hcur, hfut, fun n hr => ?_,
    vote_fibers h ht hcur hext⟩
  rcases (hm n).self hr with hv | ⟨hold, hterm⟩
  · rw [hv, h.id n]
  · have hself := h.self n hold
    rw [(hm n).keep hterm (by rw [hself]; simp), hself]

lemma recordVotes_ext (h : VoteRep tbl s) (ht : Trans s a s') (n : N) (t : ℕ) (c : N) (hc : tbl n t = some c) :
    recordVotes tbl s' n t = some c := by
  have hm := trans_moves h.file ht n
  unfold recordVotes
  split_ifs with he
  · subst he
    rcases Nat.lt_or_ge (s.nodes n).term (s'.nodes n).term with hlt | hge
    · rw [h.future n _ hlt] at hc; cases hc
    · have hterm : (s'.nodes n).term = (s.nodes n).term := le_antisymm hge hm.le
      rw [hterm, h.cur n] at hc
      rw [hm.keep hterm (by rw [hc]; simp), hc]
  · exact hc

lemma recordVotes_step (h : VoteRep tbl s) (ht : Trans s a s') : VoteRep (recordVotes tbl s') s' := by
  refine vote_step h ht (fun n => by simp [recordVotes]) (fun n t hlt => ?_) (recordVotes_ext h ht)
  unfold recordVotes
  rw [if_neg (by omega)]
  exact h.future n t ((trans_moves h.file ht n).le.trans_lt hlt)

lemma voteRep_init (config : N → ClusterConfig N) : VoteRep (fun _ _ => none) (init config : Cluster N C L) :=
  ⟨fun _ => rfl, fun _ => ⟨rfl, rfl, rfl, rfl⟩, fun _ => rfl, fun _ _ _ => rfl, fun _ h => absurd rfl h,
    fun f hf => by simp [init] at hf⟩

end Cluster

end MaxRedis.Raft

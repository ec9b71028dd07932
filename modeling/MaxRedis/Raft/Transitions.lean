/-
The steps of a cluster, sorted once.

Most invariants speak of one node, one fiber or one request at a time.
-/
import MaxRedis.Raft.ReplicationMoves

namespace MaxRedis.Raft

open LogStorage RaftNode List Option

def Pc.inert {N C : Type} : Pc N C → Prop
  | .election _ | .heartbeat _ | .replicate _ => False
  | _ => True

def Request.inert {N C : Type} : Request N C → Prop
  | .readIndex _ | .timeoutNow _ => True
  | _ => False

structure Fiber.Inert {N C : Type} (f : Fiber N C) : Prop where
  pc : f.pc.inert
  rpc : ∀ env, f.rpc = some env → env.request.inert

structure Fiber.Like {N C : Type} (f g : Fiber N C) : Prop where
  owner : f.owner = g.owner
  pc : f.pc = g.pc
  rpc : f.rpc = g.rpc

def Pc.sweeps {N C : Type} : Pc N C → Prop
  | .waitForApplied _ _ => True
  | .coordinatorTake _ => True
  | .coordinatorApply _ _ _ => True
  | _ => False

namespace Cluster

variable {N C L : Type} [DecidableEq N] [LogStorage N C L]

variable (s : Cluster N C L)
  (n dst : N) {k : ℕ} {f : Fiber N C} (env : Envelope N C) {req : Request N C} {a : Action N C L}

@[simp] lemma setNode_fibers (nd : RaftNode N C L) : (s.setNode n nd).fibers = s.fibers :=
  rfl
@[simp] lemma setFiber_nodes (k : ℕ) (f : Fiber N C) : (s.setFiber k f).nodes = s.nodes := rfl
@[simp] lemma setFiber_fibers (k : ℕ) (f : Fiber N C) :
    (s.setFiber k f).fibers = s.fibers.set k f := rfl
@[simp] lemma spawn_nodes (f : Fiber N C) : (s.spawn f).nodes = s.nodes := rfl
@[simp] lemma spawn_fibers (f : Fiber N C) : (s.spawn f).fibers = s.fibers ++ [f] := rfl

@[simp] lemma giveUp_nodes : (s.giveUp env).nodes = s.nodes := by
  unfold giveUp; split_ifs <;> rfl

@[simp] lemma giveUp_fibers : (s.giveUp env).fibers = s.fibers := by
  unfold giveUp; split_ifs <;> rfl

@[simp] lemma killFibers_nodes : (s.killFibers n).nodes = s.nodes := rfl

@[simp] lemma setNode_self (nd : RaftNode N C L) : (s.setNode n nd).nodes n = nd := by
  simp [setNode]

lemma setNode_ne {n m : N} (nd : RaftNode N C L) (h : m ≠ n) : (s.setNode n nd).nodes m = s.nodes m := by
  simp [setNode, h]

lemma setNode_forall {s : Cluster N C L} {n : N} {nd : RaftNode N C L} {P : N → RaftNode N C L → Prop}
    (hn : P n nd) (h : ∀ m, m ≠ n → P m (s.nodes m)) : ∀ m, P m ((s.setNode n nd).nodes m) := by
  intro m
  by_cases hm : m = n
  · subst hm; rw [setNode_self]; exact hn
  · rw [setNode_ne s nd hm]; exact h m hm

def electionFiber (nd nd' : RaftNode N C L) (n : N) : Fiber N C :=
  { owner := n
    pc := .election ⟨⟨nd'.term, nd.nodeId, lastIndex nd.log, lastTerm nd.log⟩, nd.getPeerIdsLocked, nd.getPeerIdsLocked,
      ⟨1, 0⟩, [], nd'.term⟩ }

/-! ## Transitions -/

def delivered (s : Cluster N C L) : Action N C L → Option (N × Request N C)
  | .deliver k =>
    match s.fibers[k]? with
    | some ⟨_, _, some ⟨dst, req, none⟩, _⟩ => some (dst, req)
    | _ => none
  | .deliverLate j => s.net[j]?
  | _ => none

omit [DecidableEq N] [LogStorage N C L] in
lemma delivered_deliver {s : Cluster N C L} (hk : s.fibers[k]? = some f) {dst : N}
    (hr : f.rpc = some ⟨dst, req, none⟩) : s.delivered (.deliver k) = some (dst, req) := by
  obtain ⟨owner, pc, rpc, w⟩ := f
  subst hr
  simp only [delivered, hk]

omit [DecidableEq N] [LogStorage N C L] in
lemma delivered_forall {s : Cluster N C L} {P : N → Request N C → Prop}
    (hf : ∀ f ∈ s.fibers, ∀ env, f.rpc = some env → P env.dst env.request) (hn : ∀ x ∈ s.net, P x.1 x.2) {dst : N}
    (hd : s.delivered a = some (dst, req)) : P dst req := by
  unfold delivered at hd
  split at hd
  · split at hd
    · rename_i hk
      cases hd
      exact hf _ (mem_of_getElem? hk) _ rfl
    · cases hd
  · exact hn _ (mem_of_getElem? hd)
  · cases hd

inductive NodeTrans (s : Cluster N C L) (n : N) (nd' : RaftNode N C L) : Action N C L → Prop where
  | kept (a : Action N C L) (h : Kept (s.nodes n) nd') : NodeTrans s n nd' a
  | applied (k : ℕ) (f : Fiber N C) (hk : s.fibers[k]? = some f) (ho : f.owner = n) (hf : f.pc.sweeps)
      (eq : nd' = (s.nodes n).applyCommittedLogsLocked) : NodeTrans s n nd' (.advance k)
  | persisted (k : ℕ) (f : Fiber N C) (hk : s.fibers[k]? = some f) (ho : f.owner = n) (hf : f.pc.sweeps)
      (eq : nd' = { s.nodes n with log := persist (s.nodes n).log }) : NodeTrans s n nd' (.advance k)
  | campaign (a : Action N C L) (h : Campaigns (s.nodes n) nd') : NodeTrans s n nd' a
  | boot (h : (s.nodes n).getPeerIdsLocked = []) (hr : (s.nodes n).role ≠ .leader) (mid : RaftNode N C L)
      (hterm : nd'.term = if (s.nodes n).role = .candidate then (s.nodes n).term else (s.nodes n).term + 1)
      (hm : ((s.nodes n).role = .candidate ∧ mid = s.nodes n) ∨ Campaigns (s.nodes n) mid) (hl : Leads mid nd') :
      NodeTrans s n nd' (.call n .bootstrapSingleNode)
  | wins (k : ℕ) (f : Fiber N C) (hk : s.fibers[k]? = some f) (hr : f.rpc = none) (ho : f.owner = n) (e : Election N)
      (hf : f.pc = .election e) (ht : e.todo = []) (h : Wins (s.nodes n) nd' e.req e.result e.granters) :
      NodeTrans s n nd' (.advance k)
  | countBeats (k : ℕ) (f : Fiber N C) (hk : s.fibers[k]? = some f) (hr : f.rpc = none) (ho : f.owner = n)
      (b : HeartbeatRound N) (hf : f.pc = .heartbeat b) (ht : b.todo = [])
      (eq : nd' = ((s.nodes n).heartbeatFinish b.isLoop b.epoch b.ackCount b.rspLastLog b.maxPeerTerm).1) :
      NodeTrans s n nd' (.advance k)
  | append (hl : (s.nodes n).role = .leader) (command : Command N C)
      (eq : nd' = { s.nodes n with log := append (s.nodes n).log ⟨(s.nodes n).term, 0, command⟩ false }) :
      NodeTrans s n nd' (.call n (.submitEntry command))
  | refresh (k : ℕ) (eq : nd' = (s.nodes n).refreshPeers) : NodeTrans s n nd' (.advance k)
  | countAppends (k : ℕ) (f : Fiber N C) (hk : s.fibers[k]? = some f) (ho : f.owner = n) (r : ReplicateRound N C)
      (hf : f.pc = .replicate r) (eq : nd' = ((s.nodes n).replicateFinish r.currentTerm r.rsps).1) :
      NodeTrans s n nd' (.advance k)
  | alone (k : ℕ) (f : Fiber N C) (hk : s.fibers[k]? = some f) (ho : f.owner = n)
      (eq : nd' = (s.nodes n).replicateAlone) : NodeTrans s n nd' (.advance k)
  | config (target : ClusterConfig N) (eq : nd' = ((s.nodes n).beginConfigChange target).1) :
      NodeTrans s n nd' (.call n (.beginConfigChange target))
  | snapshot (eq : nd' = (s.nodes n).createSnapshotIfNeeded) : NodeTrans s n nd' (.call n .createSnapshotIfNeeded)
  | grants (a : Action N C L) (req : VoteRequest N) (hd : s.delivered a = some (n, .vote req))
      (h : Grants (s.nodes n) nd' req) : NodeTrans s n nd' a
  | beaten (a : Action N C L) (req : HeartbeatRequest N) (hd : s.delivered a = some (n, .heartbeat req))
      (eq : nd' = ((s.nodes n).onHeartbeat req).1) : NodeTrans s n nd' a
  | adopts (a : Action N C L) (req : AppendEntriesRequest N C) (hd : s.delivered a = some (n, .appendEntries req))
      (eq : nd' = ((s.nodes n).onAppendEntries req).1) : NodeTrans s n nd' a
  | installs (a : Action N C L) (req : InstallSnapshotRequest N C)
      (hd : s.delivered a = some (n, .installSnapshot req)) (eq : nd' = ((s.nodes n).onInstallSnapshot req).1) :
      NodeTrans s n nd' a
  | restart (r : Recovered N C L) (eq : nd' = restartNode (s.nodes n) r) : NodeTrans s n nd' (.restart n r)

/-- where a fiber of the next state comes from; `next` are the nodes of that state -/
inductive FiberTrans (s : Cluster N C L) (next : N → RaftNode N C L) : Action N C L → Fiber N C → Prop where
  | like (a : Action N C L) (f g : Fiber N C) (hg : g ∈ s.fibers) (h : f.Like g) : FiberTrans s next a f
  | inert (a : Action N C L) (f : Fiber N C) (h : f.Inert) : FiberTrans s next a f
  | elect (a : Action N C L) (n : N) (hc : Campaigns (s.nodes n) (next n)) :
      FiberTrans s next a (electionFiber (s.nodes n) (next n) n)
  | sendVote (k : ℕ) (f : Fiber N C) (hk : s.fibers[k]? = some f) (e : Election N) (hf : f.pc = .election e) (p : N)
      (rest : List N) (ht : e.todo = p :: rest) :
      FiberTrans s next (.advance k) { f with rpc := some ⟨p, .vote e.req, none⟩ }
  | stopVotes (k : ℕ) (f : Fiber N C) (hk : s.fibers[k]? = some f) (hr : f.rpc = none) (e : Election N)
      (hf : f.pc = .election e) : FiberTrans s next (.advance k) { f with pc := .election { e with todo := [] } }
  | beat (n : N) (hl : (s.nodes n).role = .leader) (isLoop : Bool) :
      FiberTrans s next (.call n (.heartbeatTick isLoop))
        { owner := n
          pc := .heartbeat ⟨isLoop, (s.nodes n).heartbeatEpoch,
            ⟨(s.nodes n).term, (s.nodes n).nodeId, (s.nodes n).commitIndex⟩, (s.nodes n).getPeerIdsLocked, 1, [],
            (s.nodes n).term⟩ }
  | sendBeat (k : ℕ) (f : Fiber N C) (hk : s.fibers[k]? = some f) (b : HeartbeatRound N) (hf : f.pc = .heartbeat b)
      (p : N) (rest : List N) (ht : b.todo = p :: rest) :
      FiberTrans s next (.advance k) { f with rpc := some ⟨p, .heartbeat b.req, none⟩ }
  | stopBeats (k : ℕ) (f : Fiber N C) (hk : s.fibers[k]? = some f) (hr : f.rpc = none) (b : HeartbeatRound N)
      (hf : f.pc = .heartbeat b) : FiberTrans s next (.advance k) { f with pc := .heartbeat { b with todo := [] } }
  | round (k : ℕ) (f : Fiber N C) (hk : s.fibers[k]? = some f) (hr : f.rpc = none)
      (hl : (s.nodes f.owner).role = .leader) (lowLatency : Bool) (after : After N) (num majority : ℕ)
      (order : List ℕ) :
      FiberTrans s next (.advance k)
        { f with
          pc := .replicate ⟨lowLatency, after, num, (s.nodes f.owner).term, majority, lastIndex (s.nodes f.owner).log,
            order.filterMap (fun i => ((s.nodes f.owner).getPeerIdsLocked[i]?).map
              (fun id => (s.nodes f.owner).refreshPeers.buildPeerReq id i)), 1, []⟩ }
  | sendAppend (k : ℕ) (f : Fiber N C) (hk : s.fibers[k]? = some f) (hr : f.rpc = none) (r : ReplicateRound N C)
      (hf : f.pc = .replicate r) (p : PeerReq N C) (rest : List (PeerReq N C)) (ht : r.todo = p :: rest)
      (req : Request N C) (hreq : buildRequest (s.nodes f.owner) r.currentTerm p = some req) :
      FiberTrans s next (.advance k) { f with rpc := some ⟨p.id, req, none⟩ }
  | skipPeers (k : ℕ) (f : Fiber N C) (hk : s.fibers[k]? = some f) (hr : f.rpc = none) (r : ReplicateRound N C)
      (hf : f.pc = .replicate r) (todo : List (PeerReq N C)) (ht : todo <:+ r.todo) :
      FiberTrans s next (.advance k) { f with pc := .replicate { r with todo := todo } }
  | noSnapshot (k : ℕ) (f : Fiber N C) (hk : s.fibers[k]? = some f) (hr : f.rpc = none) (r : ReplicateRound N C)
      (hf : f.pc = .replicate r) (p : PeerReq N C) (rest : List (PeerReq N C)) (ht : r.todo = p :: rest) :
      FiberTrans s next (.advance k)
        { f with pc := .replicate { r with todo := rest, rsps := r.rsps ++ [(p, ⟨false, 0, 0⟩)] } }
  | answer (a : Action N C L) (f : Fiber N C) (hf : f ∈ s.fibers) (env : Envelope N C) (hr : f.rpc = some env)
      (rsp : Response) (hrsp : env.response = some rsp ∨ rsp = env.request.failed) :
      FiberTrans s next a { f with pc := f.pc.onRsp env.dst rsp, rpc := none }
  | deliver (k : ℕ) (f : Fiber N C) (hk : s.fibers[k]? = some f) (dst : N) (req : Request N C)
      (hr : f.rpc = some ⟨dst, req, none⟩) (hn : next dst = (s.handle dst req).1.nodes dst) :
      FiberTrans s next (.deliver k) { f with rpc := some ⟨dst, req, some (s.handle dst req).2⟩ }

section
variable {s s' t : Cluster N C L} {a : Action N C L} {next : N → RaftNode N C L}
  {n m : N} {nd' : RaftNode N C L} {f g : Fiber N C}

lemma NodeTrans.idle (n : N) : NodeTrans s n (s.nodes n) a := .kept a (Kept.refl _)

lemma NodeTrans.of_set (h : NodeTrans s m nd' a) (n : N) :
    NodeTrans s n ((s.setNode m nd').nodes n) a :=
  setNode_forall (P := fun n nd => NodeTrans s n nd a) h (fun n _ => .idle n) n

lemma FiberTrans.old (hf : f ∈ s.fibers) : FiberTrans s next a f := .like a f f hf ⟨rfl, rfl, rfl⟩

lemma FiberTrans.idle {pc : Pc N C} (hr : f.rpc = none) (hpc : pc.inert) :
    FiberTrans s next a { f with pc := pc } :=
  .inert a _ ⟨hpc, fun env he => by rw [hr] at he; cases he⟩

lemma FiberTrans.fresh {pc : Pc N C} {w : Option (RaftWaiter N C)} (hpc : pc.inert) :
    FiberTrans s next a { owner := n, pc := pc, waiter := w } :=
  .inert a _ ⟨hpc, nofun⟩

lemma FiberTrans.of_set {k : ℕ} (h : FiberTrans s next a g) :
    ∀ f ∈ s.fibers.set k g, FiberTrans s next a f := by
  intro f hf
  rcases mem_or_eq_of_mem_set hf with hf | rfl
  · exact .old hf
  · exact h

lemma FiberTrans.of_append (h : FiberTrans s next a g) :
    ∀ f ∈ s.fibers ++ [g], FiberTrans s next a f := by
  intro f hf
  rcases mem_append.1 hf with hf | hf
  · exact .old hf
  · rw [mem_singleton.1 hf]; exact h

def actsOn (s : Cluster N C L) (n : N) : Action N C L → Bool
  | .call m _ => m = n
  | .advance k => (s.fibers[k]?).any (fun f => f.owner = n)
  | .recv _ => false
  | .fail _ => false
  | .deliver k => (s.delivered (.deliver k)).any (fun d => d.1 = n)
  | .deliverLate j => (s.delivered (.deliverLate j)).any (fun d => d.1 = n)
  | .tick m _ => m = n
  | .restart m _ => m = n

lemma actsOn_call (s : Cluster N C L) (n : N) (c : Call N C) : s.actsOn n (.call n c) = true := by simp [actsOn]

lemma actsOn_advance {k : ℕ} (hk : s.fibers[k]? = some f) : s.actsOn f.owner (.advance k) = true := by
  simp [actsOn, hk]

lemma actsOn_delivered {dst : N} {req : Request N C} (hd : s.delivered a = some (dst, req)) :
    s.actsOn dst a = true := by
  cases a with
  | deliver | deliverLate => rw [actsOn, hd]; simp
  | _ => cases hd

lemma actsOn_unique (hn : s.actsOn n a = true) (hm : s.actsOn m a = true) : n = m := by
  have hany : ∀ {α : Type} {o : Option α} {g : α → N}, o.any (fun x => decide (g x = n)) = true →
      o.any (fun x => decide (g x = m)) = true → n = m := by
    intro α o g hn hm
    cases o with
    | none => cases hn
    | some =>
      rw [any_some, decide_eq_true_eq] at hn hm
      exact hn.symm.trans hm
  cases a with
  | advance | deliver | deliverLate => exact hany hn hm
  | recv | fail => cases hn
  | _ => exact (of_decide_eq_true hn).symm.trans (of_decide_eq_true hm)

/-- **What a step does**: to each node, of which it runs code of one at most, to the fibers, and to the requests that
may arrive late, which were in the network or have been sent by a fiber. -/
structure Trans (s : Cluster N C L) (a : Action N C L) (s' : Cluster N C L) : Prop where
  node : ∀ n, NodeTrans s n (s'.nodes n) a
  others : ∀ n, s.actsOn n a = false → s'.nodes n = s.nodes n
  fiber : ∀ f ∈ s'.fibers, FiberTrans s s'.nodes a f
  net : ∀ x ∈ s'.net, x ∈ s.net ∨ ∃ f ∈ s.fibers, ∃ env, Fiber.rpc f = some env ∧ x = (env.dst, env.request)

lemma Trans.net_forall {P : N → Request N C → Prop} (ht : Trans s a s') (hn : ∀ x ∈ s.net, P x.1 x.2)
    (hf : ∀ f ∈ s.fibers, ∀ env, Fiber.rpc f = some env → P env.dst env.request) : ∀ x ∈ s'.net, P x.1 x.2 := by
  intro x hx
  rcases ht.net x hx with hx | ⟨f, hfm, env, he, rfl⟩
  · exact hn x hx
  · exact hf f hfm env he

lemma Trans.unchanged (ht : Trans s a s') (hne : s'.nodes n ≠ s.nodes n) (hm : m ≠ n) :
    s'.nodes m = s.nodes m := by
  have hn : s.actsOn n a = true := by
    by_contra h
    exact hne (ht.others n (by simpa using h))
  refine ht.others m ?_
  by_contra h
  exact hm (actsOn_unique (by simpa using h) hn)

lemma Trans.one (ht : Trans s a s') : s'.nodes = s.nodes ∨ ∃ n, s'.nodes = (s.setNode n (s'.nodes n)).nodes := by
  by_cases h : ∃ n, s'.nodes n ≠ s.nodes n
  · obtain ⟨n, hn⟩ := h
    refine Or.inr ⟨n, funext fun m => ?_⟩
    by_cases hm : m = n
    · rw [hm, setNode_self]
    · rw [setNode_ne s _ hm, ht.unchanged hn hm]
  · push Not at h
    exact Or.inl (funext h)

lemma Trans.of_fibers (hn : s'.nodes = s.nodes) (hf : ∀ f ∈ s'.fibers, FiberTrans s s'.nodes a f)
    (hnet : s'.net = s.net) :
    Trans s a s' :=
  ⟨fun n => by rw [hn]; exact .idle n, fun n _ => by rw [hn], hf, fun x hx => Or.inl (by rwa [hnet] at hx)⟩

lemma Trans.of_node (ha : s.actsOn n a = true) (h : NodeTrans s n nd' a) (hn : s'.nodes = (s.setNode n nd').nodes)
    (hf : ∀ f ∈ s'.fibers, FiberTrans s s'.nodes a f) (hnet : s'.net = s.net) : Trans s a s' := by
  refine ⟨fun m => ?_, fun m hm => ?_, hf, fun x hx => Or.inl (by rwa [hnet] at hx)⟩
  · rw [hn]; exact .of_set h m
  · rw [hn, setNode_ne s _ (by rintro rfl; rw [ha] at hm; cases hm)]

lemma Trans.idle : Trans s a s := .of_fibers rfl (fun _ hf => .old hf) rfl

section
variable {n : N} {nd' : RaftNode N C L} {k : ℕ} {g : Fiber N C}

lemma Trans.setNode (ha : s.actsOn n a = true) (h : NodeTrans s n nd' a) : Trans s a (s.setNode n nd') :=
  .of_node ha h rfl (fun _ hf => .old hf) rfl

lemma Trans.kept (ha : s.actsOn n a = true) (h : Kept (s.nodes n) nd') : Trans s a (s.setNode n nd') :=
  .setNode ha (.kept a h)

lemma Trans.setFiber (hg : FiberTrans s s.nodes a g) : Trans s a (s.setFiber k g) :=
  .of_fibers rfl hg.of_set rfl

lemma Trans.spawn (hg : FiberTrans s s.nodes a g) : Trans s a (s.spawn g) := .of_fibers rfl hg.of_append rfl

lemma Trans.nodeSpawn (ha : s.actsOn n a = true) (h : NodeTrans s n nd' a)
    (hg : FiberTrans s (s.setNode n nd').nodes a g) : Trans s a ((s.setNode n nd').spawn g) :=
  .of_node ha h rfl hg.of_append rfl

lemma Trans.nodeFiber (ha : s.actsOn n a = true) (h : NodeTrans s n nd' a)
    (hg : FiberTrans s (s.setNode n nd').nodes a g) : Trans s a ((s.setNode n nd').setFiber k g) :=
  .of_node ha h rfl hg.of_set rfl

end

end

/-! ## Every step is a transition -/

lemma elect_trans {s : Cluster N C L} {n : N} {nd' : RaftNode N C L} (ha : s.actsOn n a = true)
    (hc : Campaigns (s.nodes n) nd') : Trans s a ((s.setNode n nd').spawn (electionFiber (s.nodes n) nd' n)) := by
  have hf : FiberTrans s (s.setNode n nd').nodes a (electionFiber (s.nodes n) ((s.setNode n nd').nodes n) n) :=
    .elect a n (by rwa [setNode_self])
  rw [setNode_self] at hf
  exact .nodeSpawn ha (.campaign a hc) hf

lemma startElection_trans (c : Call N C) : Trans s (.call n c) (s.startElection n) := by
  have ha := actsOn_call s n c
  unfold startElection
  rcases startElection_spec (s.nodes n) with h | ⟨hc, h⟩
  · rw [h]; exact .kept ha (Kept.refl _)
  · generalize (s.nodes n).startElection = r at hc h ⊢
    obtain ⟨nd, o⟩ := r
    dsimp only at hc h
    subst h
    exact elect_trans ha hc

lemma call_trans (c : Call N C) : Trans s (.call n c) (s.call n c) := by
  have ha := actsOn_call s n c
  cases c with
  | startElection => exact startElection_trans s n _
  | onElectionTimeout =>
    rcases onElectionTimeout_spec (s.nodes n) with h | h
    · simp only [call, h]; exact .kept ha (Kept.refl _)
    · exact .setNode ha (.campaign _ h)
  | bootstrapSingleNode =>
    rcases bootstrapSingleNode_spec (s.nodes n) with h | ⟨hp, hr, hterm, mid, hm, hl⟩
    · simp only [call, h]; exact .kept ha (Kept.refl _)
    · exact .setNode ha (.boot hp hr mid hterm hm hl)
  | heartbeatTick isLoop =>
    simp only [call, heartbeatStart]
    split_ifs with h1 h2
    · exact .idle
    · exact .idle
    · exact .spawn (.beat n (not_not.1 h2) isLoop)
  | replicateLog => exact .spawn (.fresh trivial)
  | readIndex =>
    have hk := readIndexStart_kept (s.nodes n)
    simp only [call]
    split
    · rename_i nd heq; rw [heq] at hk; exact .nodeSpawn ha (.kept _ hk) (.fresh trivial)
    · rename_i nd r heq
      rw [heq] at hk
      refine .nodeSpawn ha (.kept _ hk) (.fresh ?_)
      split_ifs <;> trivial
    · rename_i nd req peers heq; rw [heq] at hk; exact .nodeSpawn ha (.kept _ hk) (.fresh trivial)
  | submitEntry command =>
    rcases submitAppend_spec (s.nodes n) command with h | ⟨hl, h⟩
    · simp only [call, h]; exact .nodeSpawn ha (.idle n) (.fresh trivial)
    · simp only [call, h]; exact .nodeSpawn ha (.append hl command rfl) (.fresh trivial)
  | startTransfer target =>
    have hk := startTransfer_kept (s.nodes n) target
    simp only [call]
    split
    · rename_i nd heq; rw [heq] at hk; exact .kept ha hk
    · rename_i nd heq; rw [heq] at hk; exact .nodeSpawn ha (.kept _ hk) (.fresh trivial)
  | cancelTransfer => exact .kept ha (cancelTransferLocked_kept _)
  | beginConfigChange target => exact .setNode ha (.config target rfl)
  | createSnapshotIfNeeded => exact .setNode ha (.snapshot rfl)
  | shutdown => exact .kept ha (.of_view rfl rfl rfl)

lemma afterReplicate_inert (after : After N) : (afterReplicate after : Pc N C).inert := by
  cases after <;> trivial

lemma advanceReplicate_trans {s : Cluster N C L} (hk : s.fibers[k]? = some f)
    (hr : f.rpc = none) {r : ReplicateRound N C} (hf : f.pc = .replicate r) :
    Trans s (.advance k) (s.advanceReplicate k f r) := by
  have ha := actsOn_advance hk
  unfold advanceReplicate
  cases ht : r.todo with
  | cons p rest =>
    dsimp only
    split_ifs
    · exact .setFiber (.skipPeers k f hk hr r hf [] (nil_suffix))
    · exact .setFiber (.skipPeers k f hk hr r hf rest (by rw [ht]; exact suffix_cons p rest))
    · split
      · rename_i req hreq; exact .setFiber (.sendAppend k f hk hr r hf p rest ht req hreq)
      · exact .setFiber (.noSnapshot k f hk hr r hf p rest ht)
  | nil =>
    refine .nodeFiber ha (.countAppends k f hk rfl r hf rfl) (.idle hr ?_)
    unfold replicateNext
    split
    · split_ifs
      · trivial
      · exact afterReplicate_inert _
    · exact afterReplicate_inert _

lemma beginReplicate_trans {s : Cluster N C L} (hk : s.fibers[k]? = some f)
    (hr : f.rpc = none) (lowLatency : Bool) (after : After N) (num : ℕ) :
      Trans s (.advance k) (s.beginReplicate k f lowLatency after num) := by
  have ha := actsOn_advance hk
  unfold beginReplicate
  rcases replicateStart_spec (s.nodes f.owner) with h | ⟨hl, h1, order, ho, h2⟩
  · rw [h]; exact .nodeFiber ha (.idle f.owner) (.idle hr (afterReplicate_inert after))
  · generalize (s.nodes f.owner).replicateStart = x at h1 h2 ⊢
    obtain ⟨nd, o⟩ := x
    subst h1 h2
    dsimp only
    split_ifs
    · exact .nodeFiber ha (.refresh k rfl) (.idle hr trivial)
    · exact .nodeFiber ha (.refresh k rfl) (.round k f hk hr hl lowLatency after num _ order)

lemma handle_timeoutNow (r : TimeoutNowRequest N) :
    (∃ nd', Kept (s.nodes dst) nd' ∧ (s.handle dst (.timeoutNow r)).1 = s.setNode dst nd') ∨
    (∃ nd', Campaigns (s.nodes dst) nd' ∧
      (s.handle dst (.timeoutNow r)).1 = (s.setNode dst nd').spawn (electionFiber (s.nodes dst) nd' dst)) := by
  have hk := onTimeoutNow_kept (s.nodes dst) r
  have hset : ∀ x y : RaftNode N C L, (s.setNode dst x).setNode dst y = s.setNode dst y := by
    intro x y
    simp only [setNode, Cluster.mk.injEq, and_true]
    funext m
    split_ifs <;> rfl
  simp only [handle]
  generalize (s.nodes dst).onTimeoutNow r = x at hk ⊢
  obtain ⟨nd, rsp, start⟩ := x
  cases start with
  | false => exact Or.inl ⟨nd, hk, rfl⟩
  | true =>
    unfold startElection
    rw [setNode_self]
    rcases startElection_spec nd with h | ⟨hc, h⟩
    · rw [h]; exact Or.inl ⟨nd, hk, hset _ _⟩
    · generalize nd.startElection = y at hc h ⊢
      obtain ⟨nd', o⟩ := y
      dsimp only at hc h
      subst h
      refine Or.inr ⟨nd', ⟨hk.data.trans hc.data, hc.arrays.trans hk.arrays, hc.file ∘ hk.quiet.file,
        hk.quiet.term.trans_lt hc.term, ?_, hc.role⟩,
        ?_⟩
      · rw [hc.vote, hk.data.id]
      · dsimp only
        rw [hset, getPeerIdsLocked_eq hk.data, hk.data.id, hk.data.log]; rfl

lemma handle_eq (req : Request N C) : (∃ nd', (s.handle dst req).1 = s.setNode dst nd') ∨
    ∃ nd', Campaigns (s.nodes dst) nd' ∧
      (s.handle dst req).1 = (s.setNode dst nd').spawn (electionFiber (s.nodes dst) nd' dst) := by
  cases req with
  | timeoutNow r => exact (handle_timeoutNow s dst r).imp_left (fun ⟨nd', _, he⟩ => ⟨nd', he⟩)
  | _ => exact Or.inl ⟨_, rfl⟩

lemma handle_ne {s : Cluster N C L} {dst m : N} (hm : m ≠ dst) (req : Request N C) :
    (s.handle dst req).1.nodes m = s.nodes m := by
  rcases handle_eq s dst req with ⟨nd', he⟩ | ⟨nd', -, he⟩ <;> rw [he] <;> exact setNode_ne s nd' hm

lemma handle_net (req : Request N C) : (s.handle dst req).1.net = s.net := by
  rcases handle_eq s dst req with ⟨nd', he⟩ | ⟨nd', -, he⟩ <;> rw [he] <;> rfl

lemma handle_fibers_mem {s : Cluster N C L} (req : Request N C) :
    ∀ f ∈ (s.handle dst req).1.fibers, f ∈ s.fibers ∨
      (Campaigns (s.nodes dst) ((s.handle dst req).1.nodes dst) ∧
        f = electionFiber (s.nodes dst) ((s.handle dst req).1.nodes dst) dst) := by
  rcases handle_eq s dst req with ⟨nd', he⟩ | ⟨nd', hc, he⟩
  · rw [he]; exact fun f hf => Or.inl hf
  · rw [he, spawn_nodes, setNode_self]
    intro f hf
    rcases mem_append.1 hf with hf | hf
    · exact Or.inl hf
    · exact Or.inr ⟨hc, mem_singleton.1 hf⟩

lemma fulfil_fiber {s t : Cluster N C L} {next : N → RaftNode N C L} {g : Fiber N C}
    (ht : t.fibers = s.fibers.set k g) (hg : g.Inert) (w applied : ℕ) :
    ∀ f ∈ (t.fulfil w applied).fibers, FiberTrans s next a f := by
  have hold : ∀ f ∈ t.fibers, f = g ∨ f ∈ s.fibers := fun f hf => (mem_or_eq_of_mem_set (ht ▸ hf)).symm
  have hone : ∀ f ∈ t.fibers, FiberTrans s next a f := by
    intro f hf
    rcases hold f hf with rfl | hf
    · exact .inert a _ hg
    · exact .old hf
  unfold fulfil
  split
  · exact hone
  · rename_i x hx
    intro f hf
    rcases mem_or_eq_of_mem_set hf with hf | rfl
    · exact hone f hf
    · rcases hold x (mem_of_getElem? hx) with rfl | hx
      · exact .inert a _ ⟨hg.pc, hg.rpc⟩
      · exact .like a _ x hx ⟨rfl, rfl, rfl⟩

lemma fulfil_nodes (t : Cluster N C L) (w applied : ℕ) : (t.fulfil w applied).nodes = t.nodes ∧
    (t.fulfil w applied).net = t.net := by
  unfold fulfil
  split <;> exact ⟨rfl, rfl⟩

lemma heartbeat_trans {s : Cluster N C L} (hk : s.fibers[k]? = some f) (hr : f.rpc = none)
    {h : HeartbeatRound N} (hf : f.pc = .heartbeat h) : Trans s (.advance k) (s.advance k f) := by
  have ha := actsOn_advance hk
  simp only [advance, hf]
  cases ht : h.todo with
  | cons p rest =>
    split_ifs
    · exact .setFiber (.stopBeats k f hk hr h hf)
    · have hs := Trans.setFiber (s := s) (k := k) (.sendBeat k f hk h hf p rest ht)
      rwa [hf] at hs
  | nil =>
    have hn := NodeTrans.countBeats k f hk hr rfl h hf ht rfl
    dsimp only
    split
    · rename_i nd heq
      rw [heq] at hn
      exact .nodeFiber ha hn (.idle hr trivial)
    · rename_i nd sendTimeoutNow needReplicate heq
      rw [heq] at hn
      refine .nodeFiber ha hn (.idle hr ?_)
      split_ifs <;> trivial

lemma advance_trans {s : Cluster N C L} (hk : s.fibers[k]? = some f) (hr : f.rpc = none) :
    Trans s (.advance k) (s.advance k f) := by
  have ha := actsOn_advance hk
  cases hf : f.pc with
  | election e =>
    simp only [advance, hf]
    cases ht : e.todo with
    | cons p rest =>
      split_ifs
      · exact .setFiber (.stopVotes k f hk hr e hf)
      · have hs := Trans.setFiber (s := s) (k := k) (.sendVote k f hk e hf p rest ht)
        rwa [hf] at hs
    | nil =>
      refine .nodeFiber ha ?_ (.idle hr trivial)
      rcases finishElection_spec (s.nodes f.owner) e.req e.result e.granters e.maxPeerTerm with h | h
      · exact .kept _ h
      · exact .wins k f hk hr rfl e hf ht h
  | heartbeat => exact heartbeat_trans hk hr hf
  | timeoutStart =>
    simp only [advance, hf]
    refine .setFiber (.idle hr ?_)
    split
    · trivial
    · split_ifs <;> trivial
  | timeoutSend =>
    simp only [advance, hf]
    split
    · exact .setFiber (.idle hr trivial)
    · refine .setFiber (.inert _ _ ⟨trivial, fun env he => ?_⟩)
      rw [← some.inj he]; trivial
  | timeoutDone accepted =>
    simp only [advance, hf]
    refine .nodeFiber ha (.kept _ (timeoutNowFinish_kept _ accepted)) (.idle hr ?_)
    split_ifs <;> trivial
  | replicateBegin => simp only [advance, hf]; exact beginReplicate_trans hk hr _ _ _
  | replicateAlone after =>
    simp only [advance, hf]
    exact .nodeFiber ha (.alone k f hk rfl rfl) (.idle hr (afterReplicate_inert after))
  | replicate => simp only [advance, hf]; exact advanceReplicate_trans hk hr hf
  | transferCheck target =>
    have hkept := transferCheck_kept (s.nodes f.owner) target
    simp only [advance, hf]
    split
    · rename_i nd heq
      rw [heq] at hkept
      exact .nodeFiber ha (.kept _ hkept) (.idle hr trivial)
    · rename_i nd o _ heq
      rw [heq] at hkept
      exact .nodeFiber ha (.kept _ hkept) (.idle hr trivial)
  | readIndex r =>
    simp only [advance, hf]
    cases ht : r.todo with
    | cons =>
      dsimp only
      split_ifs
      · exact .setFiber (.idle hr trivial)
      · refine .setFiber (.inert _ _ ⟨trivial, fun env he => ?_⟩)
        rw [← some.inj he]; trivial
    | nil =>
      refine .nodeFiber ha (.kept _ (readIndexFinish_kept _ _ _ _)) (.idle hr ?_)
      split_ifs <;> trivial
  | waitForApplied =>
    simp only [advance, hf]
    refine .nodeFiber ha (.applied k f hk rfl (by rw [hf]; trivial) rfl) (.idle hr ?_)
    split_ifs <;> trivial
  | submitEnter =>
    simp only [advance, hf]
    refine .of_fibers rfl (FiberTrans.of_set (s := s) (k := k) (.idle hr ?_)) rfl
    split_ifs <;> trivial
  | submitWait =>
    simp only [advance, hf]
    split
    · exact .setFiber (.idle hr trivial)
    · exact .idle
  | coordinatorTake =>
    simp only [advance, hf]
    exact .of_node ha (.persisted k f hk rfl (by rw [hf]; trivial) rfl) rfl (FiberTrans.of_set (s := s) (k := k)
      (.idle hr trivial)) rfl
  | coordinatorApply =>
    simp only [advance, hf]
    refine .nodeFiber ha (.applied k f hk rfl (by rw [hf]; trivial) rfl) (.idle hr ?_)
    split_ifs <;> trivial
  | coordinatorFulfil attempt batch applied =>
    simp only [advance, hf]
    cases batch with
    | nil => exact .setFiber (.idle hr trivial)
    | cons w rest =>
      set g : Fiber N C := { f with pc := .coordinatorFulfil attempt rest applied }
      have hg : g.Inert := ⟨trivial, fun env he => by simp [g, hr] at he⟩
      obtain ⟨hn, hnet⟩ := fulfil_nodes (s.setFiber k g) w applied
      exact .of_fibers hn (fulfil_fiber rfl hg w applied) hnet
  | submitCheck =>
    simp only [advance, hf]
    split
    · exact .idle
    · split
      · exact .setFiber (.idle hr trivial)
      · refine .setFiber (.idle hr ?_)
        split_ifs <;> trivial
  | returned => simp only [advance, hf]; exact .idle

section
variable {s t : Cluster N C L} {a : Action N C L} {req : Request N C}

lemma handle_node (ht : t.nodes = s.nodes) {dst : N} (hd : s.delivered a = some (dst, req)) :
    NodeTrans s dst ((t.handle dst req).1.nodes dst) a := by
  cases req with
  | vote r =>
    simp only [handle, setNode_self, ht]
    rcases onRequestVote_spec (s.nodes dst) r with ⟨h, -⟩ | ⟨h, -⟩
    · exact .kept a h
    · exact .grants a r hd h
  | heartbeat r => simp only [handle, setNode_self, ht]; exact .beaten a r hd rfl
  | appendEntries r => simp only [handle, setNode_self, ht]; exact .adopts a r hd rfl
  | installSnapshot r => simp only [handle, setNode_self, ht]; exact .installs a r hd rfl
  | readIndex => simp only [handle, setNode_self, ht]; exact .idle dst
  | timeoutNow r =>
    rcases handle_timeoutNow t dst r with ⟨nd', hk, he⟩ | ⟨nd', hc, he⟩
    · rw [he, setNode_self]; exact .kept a (by rwa [ht] at hk)
    · rw [he, spawn_nodes, setNode_self]; exact .campaign a (by rwa [ht] at hc)

lemma handle_trans (hn : t.nodes = s.nodes) (hf : t.fibers = s.fibers) (hnet : t.net ⊆ s.net) {dst : N}
    (hd : s.delivered a = some (dst, req)) : Trans s a (t.handle dst req).1 := by
  refine ⟨fun n => ?_, fun n hm => ?_, fun f hfm => ?_, fun x hx => Or.inl (hnet (by rwa [handle_net] at hx))⟩
  · by_cases hm : n = dst
    · subst hm; exact handle_node hn hd
    · rw [handle_ne hm, hn]; exact .idle n
  · rw [handle_ne (by rintro rfl; rw [actsOn_delivered hd] at hm; cases hm), hn]
  · rcases handle_fibers_mem dst req f hfm with hfm | ⟨hc, rfl⟩
    · exact .old (by rwa [hf] at hfm)
    · rw [hn] at hc ⊢; exact .elect a dst hc

lemma fail_trans {k : ℕ} {f : Fiber N C} (hk : s.fibers[k]? = some f) {env : Envelope N C} (hr : f.rpc = some env) :
    Trans s (.fail k)
      ((s.giveUp env).setFiber k { f with pc := f.pc.onRsp env.dst env.request.failed, rpc := none }) := by
  have hmem := mem_of_getElem? hk
  refine ⟨fun n => ?_, fun n _ => ?_, ?_, fun x hx => ?_⟩
  · rw [setFiber_nodes, giveUp_nodes]; exact .idle n
  · rw [setFiber_nodes, giveUp_nodes]
  · rw [setFiber_fibers, giveUp_fibers]
    exact FiberTrans.of_set (.answer _ f hmem env hr _ (Or.inr rfl))
  · simp only [giveUp] at hx
    split_ifs at hx
    · rcases mem_append.1 hx with hx | hx
      · exact Or.inl hx
      · exact Or.inr ⟨f, hmem, env, hr, mem_singleton.1 hx⟩
    · exact Or.inl hx

lemma restart_trans (n : N) (r : Recovered N C L) :
    Trans s (.restart n r) ((s.setNode n (restartNode (s.nodes n) r)).killFibers n) := by
  refine ⟨NodeTrans.of_set (.restart r rfl), fun m hm => setNode_ne s _ (by simpa [actsOn, eq_comm] using hm),
    fun f hf => ?_, fun x hx => ?_⟩
  · obtain ⟨g, hg, rfl⟩ := mem_map.1 hf
    split_ifs
    · exact .fresh trivial
    · exact .old hg
  · rcases mem_append.1 hx with hx | hx
    · exact Or.inl hx
    · obtain ⟨f, hfm, hfx⟩ := mem_filterMap.1 hx
      split at hfx
      · rename_i dst req he
        split_ifs at hfx
        exact Or.inr ⟨f, hfm, _, he, (some.inj hfx).symm⟩
      · cases hfx

end

/-! ## The ways a step goes -/

inductive Way (s : Cluster N C L) : Action N C L → Cluster N C L → Prop where
  | idle (a : Action N C L) (hadvance : ∀ k f, a = .advance k → s.fibers[k]? = some f → f.rpc ≠ none)
      (hrecv : ∀ k f dst req rsp, a = .recv k → s.fibers[k]? = some f → f.rpc ≠ some ⟨dst, req, some rsp⟩) : Way s a s
  | call (n : N) (c : Call N C) : Way s (.call n c) (s.call n c)
  | advance (k : ℕ) (f : Fiber N C) (hk : s.fibers[k]? = some f) (hr : f.rpc = none) :
      Way s (.advance k) (s.advance k f)
  | recv (k : ℕ) (f : Fiber N C) (hk : s.fibers[k]? = some f) (dst : N) (req : Request N C) (rsp : Response)
      (hr : f.rpc = some ⟨dst, req, some rsp⟩) :
      Way s (.recv k) (s.setFiber k { f with pc := f.pc.onRsp dst rsp, rpc := none })
  | fail (k : ℕ) (f : Fiber N C) (hk : s.fibers[k]? = some f) (env : Envelope N C) (hr : f.rpc = some env) :
      Way s (.fail k) ((s.giveUp env).setFiber k { f with pc := f.pc.onRsp env.dst env.request.failed, rpc := none })
  | deliver (k : ℕ) (f : Fiber N C) (hk : s.fibers[k]? = some f) (dst : N) (req : Request N C)
      (hr : f.rpc = some ⟨dst, req, none⟩) :
      Way s (.deliver k) ((s.handle dst req).1.setFiber k { f with rpc := some ⟨dst, req, some (s.handle dst req).2⟩ })
  | late (j : ℕ) (dst : N) (req : Request N C) (hj : s.net[j]? = some (dst, req)) :
      Way s (.deliverLate j) (({ s with net := s.net.eraseIdx j } : Cluster N C L).handle dst req).1
  | drop (j : ℕ) : Way s (.deliverLate j) { s with net := s.net.eraseIdx j }
  | tick (n : N) (ms : ℕ) : Way s (.tick n ms) (s.setNode n { s.nodes n with nowMs := (s.nodes n).nowMs + ms })
  | restart (n : N) (r : Recovered N C L) :
      Way s (.restart n r) ((s.setNode n (restartNode (s.nodes n) r)).killFibers n)

lemma step_way (a : Action N C L) : Way s a (s.step a) := by
  cases a with
  | call n c => exact .call n c
  | advance k =>
    simp only [step]
    split
    · rename_i f hk
      split_ifs with hr
      · exact .advance k f hk hr
      · refine .idle _ (fun i g hi hg => ?_) (by simp)
        cases hi
        rwa [← some.inj (hk.symm.trans hg)]
    · rename_i hk
      refine .idle _ (fun i g hi hg => ?_) (by simp)
      cases hi
      cases hk.symm.trans hg
  | recv k =>
    simp only [step]
    split
    · rename_i f hk
      split
      · rename_i dst req rsp hr; exact .recv k f hk dst req rsp hr
      · rename_i hne
        refine .idle _ (by simp) (fun i g dst req rsp hi hg hr => ?_)
        cases hi
        rw [← some.inj (hk.symm.trans hg)] at hr
        exact hne dst req rsp hr
    · rename_i hk
      refine .idle _ (by simp) (fun i g dst req rsp hi hg => ?_)
      cases hi
      cases hk.symm.trans hg
  | fail k =>
    simp only [step]
    split
    · rename_i f hk
      split
      · rename_i env hr; exact .fail k f hk env hr
      · exact .idle _ (by simp) (by simp)
    · exact .idle _ (by simp) (by simp)
  | deliver k =>
    simp only [step]
    split
    · rename_i f hk
      split
      · rename_i env hr
        unfold Cluster.deliver
        split_ifs with hd
        · exact .idle _ (by simp) (by simp)
        · obtain ⟨dst, req, rsp⟩ := env
          push Not at hd
          obtain rfl : rsp = none := hd.1
          exact .deliver k f hk dst req hr
      · exact .idle _ (by simp) (by simp)
    · exact .idle _ (by simp) (by simp)
  | deliverLate j =>
    simp only [step]
    split
    · rename_i dst req hj
      split_ifs
      · exact .drop j
      · exact .late j dst req hj
    · exact .idle _ (by simp) (by simp)
  | tick n ms => exact .tick n ms
  | restart n r => exact .restart n r

theorem step_trans (a : Action N C L) : Trans s a (s.step a) := by
  have hw := step_way s a
  generalize s.step a = s' at hw
  cases hw with
  | idle => exact .idle
  | call n c => exact call_trans s n c
  | advance _ _ hk hr => exact advance_trans hk hr
  | recv _ f hk _ _ rsp hr => exact .setFiber (.answer _ f (mem_of_getElem? hk) _ hr rsp (Or.inl rfl))
  | fail _ _ hk _ hr => exact fail_trans hk hr
  | deliver k f hk dst req hr =>
    have h := handle_trans (s := s) (t := s) rfl rfl (fun x hx => hx) (delivered_deliver hk hr)
    refine ⟨h.node, h.others, fun g hg => ?_, h.net⟩
    rcases mem_or_eq_of_mem_set hg with hg | rfl
    · exact h.fiber g hg
    · exact .deliver k f hk dst req hr rfl
  | late j _ _ hj =>
    exact handle_trans (s := s) (t := { s with net := s.net.eraseIdx j }) rfl rfl (fun _ => mem_of_mem_eraseIdx) hj
  | drop => exact ⟨.idle, fun _ _ => rfl, fun f hf => .old hf, fun x hx => Or.inl (mem_of_mem_eraseIdx hx)⟩
  | tick => exact .kept (by simp [actsOn]) (.of_view rfl rfl rfl)
  | restart n r => exact restart_trans n r

end Cluster

end MaxRedis.Raft

/-
Membership changes: what a node makes of the CONFIG_CHANGE entries that it applies.

The entries carry a target configuration and nothing else.
-/
import MaxRedis.Raft.NodeSteps

namespace MaxRedis.Raft

open LogStorage LawfulLog RaftNode List

variable {N C L : Type}

/-! ## Memberships -/

def ClusterConfig.same [DecidableEq N] (c d : ClusterConfig N) : Bool :=
  c.voters.same d.voters && c.learners.same d.learners && decide (c.version = d.version)

structure Membership (N : Type) where
  state : ConfigState := .stable
  cluster : ClusterConfig N := {}
  joint : JointConfig N := {}
  deriving DecidableEq

namespace Membership

def change (m : Membership N) (target : ClusterConfig N) : Membership N :=
  match m.state with
  | .joint => ⟨.stable, target, {}⟩
  | .stable => ⟨.joint, m.cluster, ⟨m.cluster, target⟩⟩

def apply (m : Membership N) (e : LogEntry N C) : Membership N :=
  match e.command with
  | .configChange target => m.change target
  | _ => m

def after (m : Membership N) (es : List (LogEntry N C)) : Membership N := es.foldl apply m

@[simp] lemma after_nil (m : Membership N) : m.after ([] : List (LogEntry N C)) = m := rfl

lemma after_append (m : Membership N) (a b : List (LogEntry N C)) : m.after (a ++ b) = (m.after a).after b :=
  foldl_append

lemma apply_client (m : Membership N) {e : LogEntry N C} (h : isClient e) : m.apply e = m := by
  unfold apply
  unfold isClient at h
  split
  · rename_i target he
    rw [he] at h
    cases h
  · rfl

lemma after_clients (m : Membership N) {es : List (LogEntry N C)} (h : ∀ e ∈ es, isClient e) : m.after es = m := by
  induction es generalizing m with
  | nil => rfl
  | cons e es ih =>
    show (m.apply e).after es = m
    rw [apply_client m (h e mem_cons_self)]
    exact ih m (fun x hx => h x (mem_cons_of_mem _ hx))

def Settled (m : Membership N) : Prop := m.state = .stable → m.joint = {}

lemma Settled.change {m : Membership N} (target : ClusterConfig N) : (m.change target).Settled := by
  unfold Membership.change Settled
  cases m.state with
  | joint => exact fun _ => rfl
  | stable => exact nofun

lemma Settled.after {m : Membership N} (h : m.Settled) (es : List (LogEntry N C)) : (m.after es).Settled := by
  induction es generalizing m with
  | nil => exact h
  | cons _ _ ih =>
    refine ih ?_
    unfold apply
    split
    · exact Settled.change _
    · exact h

structure Alike (m m' : Membership N) : Prop where
  state : m.state = m'.state
  target : m.state = .joint → m.joint.newConfig = m'.joint.newConfig

variable {m m' : Membership N}

lemma Alike.trans {a b c : Membership N} (h : Alike a b) (k : Alike b c) : Alike a c :=
  ⟨h.state.trans k.state, fun hj => (h.target hj).trans (k.target (h.state ▸ hj))⟩

lemma Alike.change (h : Alike m m') (target : ClusterConfig N) : Alike (m.change target) (m'.change target) := by
  unfold Membership.change
  rw [← h.state]
  cases m.state with
  | joint => exact ⟨rfl, fun hj => rfl⟩
  | stable => exact ⟨rfl, fun hj => rfl⟩

lemma Alike.after (h : Alike m m') (es : List (LogEntry N C)) : Alike (m.after es) (m'.after es) := by
  induction es generalizing m m' with
  | nil => exact h
  | cons _ _ ih =>
    refine ih ?_
    unfold apply
    split
    · exact h.change _
    · exact h

/-- nothing differs that counts: `joint_config_` counts in the Joint state only -/
structure Agrees (m m' : Membership N) : Prop where
  state : m.state = m'.state
  cluster : m.cluster = m'.cluster
  joint : m.state = .joint → m.joint = m'.joint

lemma Agrees.refl (m : Membership N) : Agrees m m := ⟨rfl, rfl, fun _ => rfl⟩

lemma Agrees.alike (h : Agrees m m') : Alike m m' :=
  ⟨h.state, fun hj => by rw [h.joint hj]⟩

lemma Agrees.eq (h : Agrees m m') (hm : m.Settled) (hm' : m'.Settled) : m = m' := by
  obtain ⟨state, cluster, joint⟩ := m
  obtain ⟨state', cluster', joint'⟩ := m'
  obtain ⟨rfl, rfl, hj⟩ := h
  cases state with
  | joint => rw [show joint = joint' from hj rfl]
  | stable => rw [show joint = {} from hm rfl, show joint' = {} from hm' rfl]

lemma Agrees.change (h : Agrees m m') (target : ClusterConfig N) : m.change target = m'.change target := by
  unfold Membership.change
  rw [h.state, h.cluster]

lemma Agrees.after (h : Agrees m m') (es : List (LogEntry N C)) : Agrees (m.after es) (m'.after es) := by
  induction es generalizing m m' with
  | nil => exact h
  | cons _ _ ih =>
    refine ih ?_
    unfold apply
    split
    · rw [h.change]
      exact .refl _
    · exact h

end Membership

/-! ## Apply -/

namespace RaftNode

variable [LogStorage N C L]

def membership (nd : RaftNode N C L) : Membership N := ⟨nd.configState, nd.clusterConfig, nd.jointConfig⟩

variable (nd : RaftNode N C L)

lemma applyEntry_membership (e : LogEntry N C) : (nd.applyEntry e).membership = nd.membership.apply e := by
  unfold applyEntry Membership.apply
  cases e.command with
  | configChange =>
    cases hs : nd.configState with
    | joint | stable => simp only [membership, Membership.change, hs]
  | client | empty => rfl

lemma foldl_applyEntry_membership (es : List (LogEntry N C)) (nd : RaftNode N C L) :
    (es.foldl applyEntry nd).membership = nd.membership.after es := by
  induction es generalizing nd with
  | nil => rfl
  | cons _ _ ih => rw [foldl_cons, ih, applyEntry_membership]; rfl

lemma flushApplyProgress_membership : nd.flushApplyProgress.membership = nd.membership := by
  obtain ⟨h1, h2, h3⟩ := flushApplyProgress_config nd
  unfold membership
  rw [h1, h2, h3]

lemma SameData.membership_eq {nd nd' : RaftNode N C L} (h : SameData nd nd') : nd'.membership = nd.membership := by
  unfold membership
  rw [h.state, h.config, h.joint]

variable [LawfulLog N C L]

lemma applyLoop_membership {w : List (LogEntry N C)} (fuel : ℕ) (nd : RaftNode N C L) (hw : Whole nd.log)
    (he : entries nd.log = w) (hf : min nd.commitIndex w.length ≤ nd.lastApplied + fuel) :
    (applyLoop fuel nd).membership =
      nd.membership.after ((w.take (max nd.lastApplied (min nd.commitIndex w.length))).drop nd.lastApplied) := by
  have hs : Serves (fun l : L => Whole l ∧ entries l = w) 0 w := serves_whole w (by rw [← he]; exact index_eq _ hw)
  induction fuel generalizing nd with
  | zero =>
    have hm : max nd.lastApplied (min nd.commitIndex w.length) = nd.lastApplied := by omega
    rw [hm]
    simp [applyLoop]
  | succ _ ih =>
    simp only [applyLoop]
    rw [hs.last _ ⟨hw, he⟩]
    split_ifs with hlt hnil
    · -- a range that starts inside the log is not empty
      obtain ⟨m, -, -, hr, hl⟩ := applyBatch_eq hs nd ⟨hw, he⟩ (Nat.zero_le _) hlt.1 hlt.2
      rw [← hr, hnil] at hl
      simp at hl
    · obtain ⟨m, h1, h2, hr, hl⟩ := applyBatch_eq hs nd ⟨hw, he⟩ (Nat.zero_le _) hlt.1 hlt.2
      rw [hr]
      set es := (w.take m).drop nd.lastApplied with hes
      have happ := (foldl_applyEntry_applies es nd).trans (flushApplyProgress_applies _)
      set nd1 := (es.foldl applyEntry nd).flushApplyProgress with hnd1
      have ha : nd1.lastApplied = m := by
        rw [(flushApplyProgress_sm _).2, (foldl_applyEntry_sm es nd).2, hl]
        rfl
      have hmem : nd1.membership = nd.membership.after es := by
        rw [flushApplyProgress_membership, foldl_applyEntry_membership]
      rw [ih nd1 (happ.log.whole hw) (happ.log.entries.trans he) (by rw [happ.commit]; omega), happ.commit, ha, hmem]
      have hmax : max m (min nd.commitIndex w.length) = max nd.lastApplied (min nd.commitIndex w.length) := by omega
      rw [hmax, ← Membership.after_append, drop_take_append _ h1.le (by omega) (by omega)]
    · have hm : max nd.lastApplied (min nd.commitIndex w.length) = nd.lastApplied := by omega
      rw [hm]
      simp

theorem applyCommittedLogsLocked_membership (hw : Whole nd.log) :
    nd.applyCommittedLogsLocked.membership = nd.membership.after
      (((entries nd.log).take nd.applyCommittedLogsLocked.lastApplied).drop nd.lastApplied) := by
  rw [(applyCommittedLogsLocked_eq nd hw).1]
  exact applyLoop_membership _ nd hw rfl (by omega)

lemma applyCommittedLogsLocked_agrees (hw : Whole nd.log)
    (hb : nd.lastApplied ≤ (entries nd.log).length) {m : Membership N}
    (h : nd.membership.Agrees (m.after ((entries nd.log).take nd.lastApplied))) :
    let nd' := nd.applyCommittedLogsLocked
    nd'.lastApplied ≤ (entries nd'.log).length ∧
    nd'.membership.Agrees (m.after ((entries nd'.log).take nd'.lastApplied)) := by
  have happ := applyCommittedLogsLocked_applies nd
  obtain ⟨hla, -⟩ := applyCommittedLogsLocked_eq nd hw
  have hmem := applyCommittedLogsLocked_membership nd hw
  intro nd'
  have hle : nd.lastApplied ≤ nd'.lastApplied := by
    rw [hla]
    exact le_max_left _ _
  have hsplit : (entries nd.log).take nd'.lastApplied =
      (entries nd.log).take nd.lastApplied ++ ((entries nd.log).take nd'.lastApplied).drop nd.lastApplied := by
    conv_lhs => rw [← take_append_drop nd.lastApplied ((entries nd.log).take nd'.lastApplied)]
    rw [take_take, min_eq_left hle]
  refine ⟨?_, ?_⟩
  · rw [happ.log.entries, hla]
    omega
  · rw [happ.log.entries, hmem, hsplit, Membership.after_append, ← hsplit]
    exact h.after _

variable [DecidableEq N]

lemma beginConfigChange_spec (target : ClusterConfig N) :
    nd.beginConfigChange target = (nd, false) ∨
    (nd.role = .leader ∧ nd.configState = .joint ∧ target.same nd.jointConfig.newConfig ∧ nd.beginConfigChange target =
      ({ nd with log := append nd.log ⟨nd.term, 0, .configChange target⟩ true, jointFinalizeAppended := true }, true)) ∨
    (nd.role = .leader ∧ nd.configState = .stable ∧ nd.beginConfigChange target =
      ({ nd with
         jointConfig := ⟨nd.clusterConfig, target⟩
         log := append nd.log ⟨nd.term, 0, .configChange target⟩ true }, true)) := by
  unfold beginConfigChange
  by_cases hl : nd.role = .leader
  · rw [if_neg (not_not.2 hl)]
    cases hst : nd.configState with
    | joint =>
      dsimp only
      split_ifs with hdiff
      · exact Or.inl rfl
      · have hsame : target.same nd.jointConfig.newConfig := by
          simpa [ClusterConfig.same, and_assoc] using hdiff
        exact Or.inr (Or.inl ⟨hl, rfl, hsame, rfl⟩)
    | stable => exact Or.inr (Or.inr ⟨hl, rfl, rfl⟩)
  · rw [if_pos hl]
    exact Or.inl rfl

end RaftNode

/-! ## Steps of the cluster -/

namespace Cluster

variable [DecidableEq N] [LogStorage N C L] [LawfulLog N C L]

/-- **What a step does to the log and the membership of node `n`.** Only an AppendEntries request, a write,
BeginConfigChange and the end of a replication round can change the log; snapshots and restarts are not here. -/
inductive ConfigStep (s : Cluster N C L) (a : Action N C L) (n : N) (nd' : RaftNode N C L) : Prop where
  | calm (h : Calms (s.nodes n) nd')
  | write (command : Command N C) (ha : a = .call n (.submitEntry command))
      (eq : nd' = { s.nodes n with log := append (s.nodes n).log ⟨(s.nodes n).term, 0, command⟩ false })
  | change (target : ClusterConfig N) (ha : a = .call n (.beginConfigChange target))
      (eq : nd' = ((s.nodes n).beginConfigChange target).1)
  | count (k : ℕ) (f : Fiber N C) (ha : a = .advance k) (hk : s.fibers[k]? = some f) (ho : f.owner = n)
      (rsps : List (PeerReq N C × PeerRsp))
      (eq : nd' = (rsps.foldl recordPeerRsp
        (s.nodes n)).advanceCommitIndexLocked.maybeAutoFinalizeJointLocked.applyCommittedLogsLocked)
  | adopt (req : AppendEntriesRequest N C) (hd : s.delivered a = some (n, .appendEntries req))
      (eq : nd' = ((s.nodes n).onAppendEntries req).1)

def lasting (s : Cluster N C L) (a : Action N C L) : Bool :=
  match a with
  | .call _ .createSnapshotIfNeeded => false
  | .restart _ _ => false
  | _ =>
    match s.delivered a with
    | some (_, .installSnapshot _) => false
    | _ => true

variable {s s' : Cluster N C L} {a : Action N C L}

lemma trans_configStep (ht : Trans s a s') (hl : lasting s a) (n : N) : ConfigStep s a n (s'.nodes n) := by
  have hidle : ConfigStep s a n (s.nodes n) := .calm .refl
  have hdata : ∀ {nd'}, SameData (s.nodes n) nd' → ConfigStep s a n nd' := fun h => .calm (.data h)
  cases ht.node n with
  | kept _ h => exact hdata h.data
  | applied _ _ _ _ _ eq => rw [eq]; exact .calm (.single (.apply _))
  | persisted _ _ _ _ _ eq => rw [eq]; exact .calm (.single (.persist _))
  | campaign _ h => exact hdata h.data
  | boot _ _ _ _ hm hlead =>
    rcases hm with ⟨-, rfl⟩ | hm
    · exact hdata hlead.data
    · exact hdata (hm.data.trans hlead.data)
  | wins _ _ _ _ _ _ _ _ h => exact hdata h.leads.data
  | countBeats _ _ _ _ _ _ _ _ eq => rw [eq]; exact .calm (heartbeatFinish_calms _ _ _ _ _ _)
  | append _ command eq => exact .write command rfl eq
  | refresh _ eq => rw [eq]; exact hdata (refreshPeers_only _).data
  | countAppends k f hk ho r _ eq =>
    rw [eq]
    rcases replicateFinish_spec (s.nodes n) r.currentTerm r.rsps with h | ⟨t, -, h⟩ | ⟨-, -, h⟩
    · rw [h]; exact hidle
    · rw [h]; exact hdata (becomeFollowerLocked_data _ t)
    · exact .count k f rfl hk ho r.rsps h
  | alone k f hk ho eq =>
    rw [eq]
    unfold replicateAlone
    split_ifs
    · exact hidle
    · exact .count k f rfl hk ho [] rfl
  | config target eq => exact .change target rfl eq
  | snapshot => cases hl
  | grants _ _ _ h => exact hdata h.data
  | beaten _ req _ eq => rw [eq]; exact .calm (onHeartbeat_calms _ req)
  | adopts _ req hd eq => exact .adopt req hd eq
  | installs _ _ hd =>
    cases a with
    | deliver | deliverLate => simp [lasting, hd] at hl
    | _ => cases hd
  | restart => cases hl

lemma step_configStep (s : Cluster N C L) (a : Action N C L) (hl : lasting s a) (n : N) :
    ConfigStep s a n ((s.step a).nodes n) :=
  trans_configStep (step_trans s a) hl n

end Cluster

end MaxRedis.Raft

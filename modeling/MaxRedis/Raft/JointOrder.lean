/-
The order of membership changes.

A change is begun by BeginConfigChange, ended by BeginConfigChange or by the leader itself, and each of the three
appends the same kind of entry.
-/
import MaxRedis.Raft.ConfigChanges

namespace MaxRedis.Raft

open LogStorage LawfulLog RaftNode List

variable {N C L : Type} [DecidableEq N]

lemma ClusterConfig.same_refl (c : ClusterConfig N) : c.same c := by
  have hids : ∀ s : IdSet N, s.same s := by
    intro s
    simp [IdSet.same, IdSet.count]
  simp [ClusterConfig.same, hids]

variable [LogStorage N C L]

lemma RaftNode.foldl_recordPeerRsp_joint (ps : List (PeerReq N C × PeerRsp)) (nd : RaftNode N C L) :
    (ps.foldl recordPeerRsp nd).jointFinalizeAppended = nd.jointFinalizeAppended ∧
    (ps.foldl recordPeerRsp nd).jointEntryIndex = nd.jointEntryIndex := by
  have hone : ∀ (nd : RaftNode N C L) p, (nd.recordPeerRsp p).jointFinalizeAppended = nd.jointFinalizeAppended ∧
      (nd.recordPeerRsp p).jointEntryIndex = nd.jointEntryIndex := by
    intro nd p
    unfold recordPeerRsp
    dsimp only
    split_ifs
    · exact ⟨rfl, rfl⟩
    · exact ⟨rfl, rfl⟩
    · exact ⟨rfl, rfl⟩
  induction ps generalizing nd with
  | nil => exact ⟨rfl, rfl⟩
  | cons p _ ih =>
    rw [foldl_cons, (ih _).1, (ih _).2]
    exact hone nd p

variable [LawfulLog N C L]

/-! ## Order -/

namespace Cluster

section
variable (config : N → ClusterConfig N)

def changesApplied (nd : RaftNode N C L) : Bool := ((entries nd.log).drop nd.lastApplied).all isClient

/-- Somewhere in the run a node accepted BeginConfigChange for `target` in the Stable state, with exactly the entries
`a` in its log, after it had applied every change among them. -/
def Begun (as : List (Action N C L)) (a : List (LogEntry N C)) (target : ClusterConfig N) : Prop :=
  ∃ before l later, as = before ++ .call l (.beginConfigChange target) :: later ∧
    let nd := (run (init config) before).nodes l
    (nd.beginConfigChange target).2 = true ∧ nd.configState = .stable ∧ entries nd.log = a ∧ changesApplied nd

structure InOrder (as : List (Action N C L)) (a : List (LogEntry N C)) (target : ClusterConfig N) : Prop where
  ends : (({} : Membership N).after a).state = .joint → target.same (({} : Membership N).after a).joint.newConfig
  begins : (({} : Membership N).after a).state = .stable → Begun config as a target

def Ordered (as : List (Action N C L)) (es : List (LogEntry N C)) : Prop :=
  ∀ a e b target, es = a ++ e :: b → e.command = .configChange target → InOrder config as a target

end

variable {config : N → ClusterConfig N} {as : List (Action N C L)} {es : List (LogEntry N C)}

lemma Ordered.shorter {es es' : List (LogEntry N C)} (h : Ordered config as es) (hp : es' <+: es) :
    Ordered config as es' := by
  obtain ⟨r, rfl⟩ := hp
  rintro a e b target rfl he
  exact h a e (b ++ r) target (by rw [append_assoc, cons_append]) he

lemma Begun.later {a : List (LogEntry N C)} {target : ClusterConfig N} (h : Begun config as a target)
    (x : Action N C L) : Begun config (as ++ [x]) a target := by
  obtain ⟨before, l, later, rfl, h⟩ := h
  exact ⟨before, l, later ++ [x], by rw [append_assoc, cons_append], h⟩

lemma Ordered.later (h : Ordered config as es) (x : Action N C L) :
    Ordered config (as ++ [x]) es := by
  intro a e b target hs he
  obtain ⟨h1, h2⟩ := h a e b target hs he
  exact ⟨h1, fun hst => (h2 hst).later x⟩

lemma Ordered.concat (h : Ordered config as es) {e : LogEntry N C}
    (he : ∀ target, e.command = .configChange target → InOrder config as es target) :
    Ordered config as (es ++ [e]) := by
  intro a x b target hs hx
  rcases eq_nil_or_concat b with rfl | ⟨b', y, rfl⟩
  · obtain ⟨rfl, hlast⟩ := append_inj' hs rfl
    cases hlast
    exact he target hx
  · rw [concat_eq_append, ← cons_append, ← append_assoc] at hs
    obtain ⟨hs, -⟩ := append_inj' hs rfl
    exact h a x b' target hs hx

/-! ## One node -/

/-- node `n`: what it has applied is in its log, its membership is what comes of it, and its log is in order -/
structure NodeOrder (config : N → ClusterConfig N) (as : List (Action N C L)) (n : N) (nd : RaftNode N C L) : Prop where
  plain : Plain nd.log
  bound : nd.lastApplied ≤ (entries nd.log).length
  member : nd.membership.Agrees (Membership.after { cluster := config n } ((entries nd.log).take nd.lastApplied))
  ordered : Ordered config as (entries nd.log)

section
variable {n : N} {nd nd' : RaftNode N C L}

section
variable (h : NodeOrder config as n nd)
include h

lemma NodeOrder.later (x : Action N C L) : NodeOrder config (as ++ [x]) n nd :=
  ⟨h.plain, h.bound, h.member, h.ordered.later x⟩

lemma NodeOrder.of_same (hlog : SameLog nd.log nd'.log)
    (ha : nd'.lastApplied = nd.lastApplied) (hm : nd'.membership.Agrees nd.membership) : NodeOrder config as n nd' := by
  refine ⟨hlog.plain h.plain, by rw [hlog.entries, ha]; exact h.bound, ?_, by rw [hlog.entries]; exact h.ordered⟩
  rw [hlog.entries, ha]
  exact ⟨hm.state.trans h.member.state, hm.cluster.trans h.member.cluster,
    fun hj => (hm.joint hj).trans (h.member.joint (hm.state ▸ hj))⟩

lemma NodeOrder.apply : NodeOrder config as n nd.applyCommittedLogsLocked := by
  have hlog := (applyCommittedLogsLocked_applies nd).log
  obtain ⟨hbound, hmember⟩ := applyCommittedLogsLocked_agrees nd h.plain.whole h.bound h.member
  exact ⟨hlog.plain h.plain, hbound, hmember, by rw [hlog.entries]; exact h.ordered⟩

lemma NodeOrder.calm (hc : Calms nd nd') : NodeOrder config as n nd' := by
  induction hc with
  | refl => exact h
  | tail _ hlast ih =>
    cases hlast with
    | data hd =>
      exact ih.of_same (by rw [hd.log]; exact SameLog.refl _) hd.applied (by rw [hd.membership_eq]; exact .refl _)
    | commit => exact ih.of_same (SameLog.refl _) rfl (.refl _)
    | persist => exact ih.of_same ⟨persist_eq _, persist_whole _, persist_anchor _⟩ rfl (.refl _)
    | apply => exact ih.apply

lemma NodeOrder.alike (hc : changesApplied nd) : nd.membership.Alike (({} : Membership N).after (entries nd.log)) := by
  have hrest : ∀ m : Membership N, m.after (entries nd.log) = m.after ((entries nd.log).take nd.lastApplied) := by
    intro m
    conv_lhs => rw [← take_append_drop nd.lastApplied (entries nd.log)]
    rw [Membership.after_append]
    exact Membership.after_clients _ (all_eq_true.1 hc)
  have hstart : ({ cluster := config n } : Membership N).Alike {} := ⟨rfl, nofun⟩
  rw [hrest]
  exact h.member.alike.trans (hstart.after _)

lemma NodeOrder.append {e : LogEntry N C} {f : Bool}
    (hlog : nd'.log = append nd.log e f) (ha : nd'.lastApplied = nd.lastApplied)
    (hm : nd'.membership.Agrees nd.membership)
    (he : ∀ target, e.command = .configChange target → InOrder config as (entries nd.log) target) :
    NodeOrder config as n nd' := by
  have hes := append_eq nd.log e f h.plain.whole
  have htake : (entries nd'.log).take nd'.lastApplied = (entries nd.log).take nd.lastApplied := by
    rw [hlog, hes, ha, take_append_of_le_length h.bound]
  refine ⟨by rw [hlog]; exact append_plain _ _ _ h.plain, ?_, ?_, ?_⟩
  · rw [hlog, hes, ha, length_append]
    exact h.bound.trans (Nat.le_add_right _ _)
  · rw [htake]
    exact ⟨hm.state.trans h.member.state, hm.cluster.trans h.member.cluster,
      fun hj => (hm.joint hj).trans (h.member.joint (hm.state ▸ hj))⟩
  · rw [hlog, hes]
    exact h.ordered.concat he

end

end

/-! ## Sound steps -/

section
variable [DecidableEq C]

def agree (E T : List (LogEntry N C)) : Bool :=
  (List.range E.length).all fun i =>
    match E[i]?, T[i]? with
    | some e, some f => decide (e.term ≠ f.term) || decide (E.take (i + 1) = T.take (i + 1))
    | _, _ => true

lemma agree_match {E T : List (LogEntry N C)} (h : agree E T) : Match E T := by
  intro i e f he hf hterm
  have hi := List.all_eq_true.1 h i (List.mem_range.2 (List.getElem?_eq_some_iff.1 he).1)
  rw [he, hf] at hi
  simpa [hterm] using hi

/-- `T` is the log of the sender when the request arrives: it still has what it sent, it matches the receiver's log and
has what the receiver has applied, and the request does not end before that -/
def fits (T : List (LogEntry N C)) (nd : RaftNode N C L) (r : AppendEntriesRequest N C) : Bool :=
  decide (r.prevLogIndex ≤ T.length) && decide (T.take r.prevLogIndex ++ r.entries <+: T) &&
  decide (r.prevLogIndex = 0 ∨ (T[r.prevLogIndex - 1]?).map LogEntry.term = some r.prevLogTerm) &&
  agree (entries nd.log) T && decide ((entries nd.log).take nd.lastApplied <+: T) &&
  decide (r.entries = [] ∨ nd.lastApplied ≤ r.prevLogIndex + r.entries.length)

def mayFinalize (nd : RaftNode N C L) : Bool :=
  decide (nd.configState = .joint ∧ nd.role = .leader) && !nd.jointFinalizeAppended && decide
  (nd.jointEntryIndex ≠ 0) &&
  decide (getTerm nd.log nd.jointEntryIndex = nd.term)

def changeSound (s : Cluster N C L) (a : Action N C L) : Bool :=
  match a with
  | .call n (.beginConfigChange _) => decide ((s.nodes n).role ≠ .leader) || changesApplied (s.nodes n)
  | .call _ (.submitEntry command) => command.isClient
  | .advance k =>
    match s.fibers[k]? with
    | some f => !mayFinalize (s.nodes f.owner) || changesApplied (s.nodes f.owner)
    | none => true
  | _ => true

def adoptSound (s : Cluster N C L) (a : Action N C L) : Bool :=
  match s.delivered a with
  | some (dst, .appendEntries r) =>
    decide (r.term < (s.nodes dst).term) || fits (entries (s.nodes r.leaderId).log) (s.nodes dst) r
  | _ => true

def orderSound (s : Cluster N C L) (a : Action N C L) : Bool := s.lasting a && s.changeSound a && s.adoptSound a

section
variable {n : N} {nd : RaftNode N C L} {T : List (LogEntry N C)} {r : AppendEntriesRequest N C}

/-- **What an accepted request leaves**: a beginning of the receiver's log or of the sender's, with all that was
applied -/
theorem fits_adopt (hp : Plain nd.log) (hT : Numbered T)
    (ha : nd.lastApplied ≤ (entries nd.log).length) (hf : fits T nd r) (hprev : r.prevLogIndex ≤ lastIndex nd.log)
    (hpt : 0 < r.prevLogIndex → getTerm nd.log r.prevLogIndex = r.prevLogTerm) :
    ∃ log, appendLoop nd.log (r.entries.take maxAppendBatch) = (log, false) ∧ Plain (truncateTail log r.entries) ∧
      (entries nd.log).take nd.lastApplied <+: entries (truncateTail log r.entries) ∧
      (entries (truncateTail log r.entries) <+: entries nd.log ∨ entries (truncateTail log r.entries) <+: T) := by
  simp only [fits, Bool.and_eq_true, decide_eq_true_eq] at hf
  obtain ⟨⟨⟨⟨⟨hk, hslice⟩, hterm⟩, hagree⟩, happlied⟩, hend⟩ := hf
  have hm := agree_match hagree
  rw [lastIndex_eq _ hp.whole] at hprev
  -- the receiver has the sender's log up to where the entries start
  have hpre : T.take r.prevLogIndex <+: entries nd.log := by
    rcases Nat.eq_zero_or_pos r.prevLogIndex with h0 | h0
    · rw [h0]
      exact nil_prefix
    · obtain ⟨i, hi⟩ : ∃ i, r.prevLogIndex = i + 1 := ⟨r.prevLogIndex - 1, by omega⟩
      have hEi : (entries nd.log)[i]? = some ((entries nd.log)[i]) := getElem?_eq_getElem (by omega)
      have hTi : T[i]? = some (T[i]) := getElem?_eq_getElem (by omega)
      have ht := hpt h0
      have htT := hterm.resolve_left (by omega)
      rw [hi, getTerm_eq _ hp, hEi] at ht
      rw [hi, Nat.add_sub_cancel, hTi] at htT
      have heq := hm i _ _ hEi hTi (ht.trans (Option.some.inj htT).symm)
      rw [hi, ← heq]
      exact take_prefix _ _
  have hbatch : T.take r.prevLogIndex ++ r.entries.take maxAppendBatch <+: T :=
    ((prefix_append_right_inj _).2 ( take_prefix _ _)).trans hslice
  obtain ⟨log, hloop, hpl, -, hlog⟩ := appendLoop_spec hT _ nd.log _ hp hk hbatch hpre hm
  obtain ⟨hpt', htail⟩ := truncateTail_spec log hpl r.entries
  -- before the tail is cut
  have hkeep : (entries nd.log).take nd.lastApplied <+: entries log := by
    rcases hlog with h | ⟨h, hc⟩
    · rw [h]; exact take_prefix _ _
    · rw [h]; exact hc _ ( take_prefix _ _) happlied
  have hof : entries log <+: entries nd.log ∨ entries log <+: T := by
    rcases hlog with h | ⟨h, -⟩
    · rw [h]; exact Or.inl (prefix_refl _)
    · rw [h]; exact Or.inr ( take_prefix _ _)
  refine ⟨log, hloop, hpt', ?_⟩
  rcases htail with h | ⟨last, hl, -, h⟩
  · rw [h]
    exact ⟨hkeep, hof⟩
  · have hle : nd.lastApplied ≤ last.index := by
      rw [numbered_getLast hT hk hslice hl]
      exact hend.resolve_left (by rintro hnil; rw [hnil] at hl; cases hl)
    have hcut : (entries log).take last.index <+: entries log := take_prefix _ _
    rw [h]
    refine ⟨prefix_take_iff.2 ⟨hkeep, ?_⟩, hof.imp hcut.trans hcut.trans⟩
    rw [length_take]
    omega

section
variable (h : NodeOrder config as n nd)
include h

lemma NodeOrder.commitFromLeader (lc : ℕ) : NodeOrder config as n (nd.commitFromLeader lc) := by
  unfold RaftNode.commitFromLeader
  split_ifs
  · have hc : NodeOrder config as n { nd with commitIndex := min lc (lastIndex nd.log) } :=
      h.of_same (SameLog.refl _) rfl (.refl _)
    exact hc.apply
  · exact h

lemma NodeOrder.adopt (hT : Numbered T) (hord : Ordered config as T) (hf : r.term < nd.term ∨ fits T nd r) :
    NodeOrder config as n (nd.onAppendEntries r).1 := by
  have hobs : NodeOrder config as n (nd.observe r.term) := h.calm (.data (observe_data nd r.term))
  rcases onAppendEntries_spec nd r with ⟨-, he⟩ | ⟨hle, ⟨hint, he⟩ | ⟨hprev, hpt, log, hcase⟩⟩
  · rw [he]; exact h
  · rw [he]; exact hobs
  · have hfit := hf.resolve_left (by omega)
    obtain ⟨log', hloop, hp, hkeep, hof⟩ := fits_adopt h.plain hT h.bound hfit hprev hpt
    rw [hloop] at hcase
    rcases hcase with ⟨hc, -⟩ | ⟨hc, he⟩
    · cases hc
    · obtain rfl : log' = log := (Prod.mk.inj hc).1
      rw [he]
      refine NodeOrder.commitFromLeader ?_ _
      have hdata := observe_data nd r.term
      -- what is applied is at the beginning of the new log
      have hlen : nd.lastApplied ≤ (entries (truncateTail log' r.entries)).length := by
        have := hkeep.length_le
        rw [length_take, min_eq_left h.bound] at this
        exact this
      have htake : (entries (truncateTail log' r.entries)).take nd.lastApplied =
        (entries nd.log).take nd.lastApplied := by
        refine ((prefix_of_prefix_length_le hkeep ( take_prefix _ _) ?_).eq_of_length ?_).symm
        · rw [length_take, length_take]; omega
        · rw [length_take, length_take, min_eq_left hlen, min_eq_left h.bound]
      refine ⟨hp, by rw [hdata.applied]; exact hlen, ?_, ?_⟩
      · have hmem := hobs.member
        rw [hdata.applied, hdata.log, ← htake] at hmem
        rw [hdata.applied]
        exact hmem
      · exact hof.elim h.ordered.shorter hord.shorter

lemma NodeOrder.finalize (hf : mayFinalize nd → changesApplied nd) :
    NodeOrder config as n nd.maybeAutoFinalizeJointLocked := by
  by_cases hidle : nd.maybeAutoFinalizeJointLocked = nd
  · rw [hidle]; exact h
  unfold maybeAutoFinalizeJointLocked at hidle ⊢
  split_ifs at hidle ⊢ with h1 h2 h3
  · exact absurd rfl hidle
  · exact absurd rfl hidle
  · exact absurd rfl hidle
  · push Not at h1 h2 h3
    obtain ⟨hj, hl, hfa⟩ := h1
    have halike := h.alike (hf (by simp [mayFinalize, hj, hl, hfa, h2.1, h3]))
    refine h.append rfl rfl (.refl _) (fun target ht => ?_)
    cases ht
    refine ⟨fun _ => ?_, fun hst => ?_⟩
    · rw [← halike.target hj]
      exact ClusterConfig.same_refl _
    · rw [← halike.state] at hst
      exact absurd (hj.symm.trans hst) (by decide)

end

end

lemma NodeOrder.begin {n : N} {target : ClusterConfig N} (h : NodeOrder config as n ((run (init config) as).nodes n))
    (hs : ((run (init config) as).nodes n).role ≠ .leader ∨ changesApplied ((run (init config) as).nodes n)) :
    NodeOrder config (as ++ [.call n (.beginConfigChange target)]) n
      (((run (init config) as).nodes n).beginConfigChange target).1 := by
  set nd := (run (init config) as).nodes n with hnd
  have hlater := h.later (.call n (.beginConfigChange target))
  rcases beginConfigChange_spec nd target with hno | ⟨hl, hj, hsame, hacc⟩ | ⟨hl, hst, hacc⟩
  · rw [hno]; exact hlater
  · have halike := h.alike (hs.resolve_left (not_not.2 hl))
    rw [hacc]
    refine hlater.append rfl rfl (.refl _) (fun t ht => ?_)
    cases ht
    refine ⟨fun _ => ?_, fun hs' => ?_⟩
    · rw [← halike.target hj]
      exact hsame
    · rw [← halike.state] at hs'
      exact absurd (hj.symm.trans hs') (by decide)
  · have happ := hs.resolve_left (not_not.2 hl)
    have halike := h.alike happ
    rw [hacc]
    refine hlater.append rfl rfl ⟨rfl, rfl, fun hj => ?_⟩ (fun t ht => ?_)
    · exact absurd (hst.symm.trans hj) (by decide)
    cases ht
    refine ⟨fun hj => ?_, fun _ => ⟨as, n, [], rfl, by rw [hacc], hst, rfl, happ⟩⟩
    rw [← halike.state] at hj
    exact absurd (hst.symm.trans hj) (by decide)

theorem step_nodeOrder (as : List (Action N C L)) (x : Action N C L) (hs : (run (init config) as).orderSound x)
    (h : ∀ n, NodeOrder config as n ((run (init config) as).nodes n)) (n : N) :
    NodeOrder config (as ++ [x]) n ((run (init config) (as ++ [x])).nodes n) := by
  have hrun : run (init config) (as ++ [x]) = (run (init config) as).step x := run_append _ _ _
  rw [hrun]
  simp only [orderSound, Bool.and_eq_true] at hs
  obtain ⟨⟨hl, hc⟩, ha⟩ := hs
  cases step_configStep _ x hl n with
  | calm hcalm => exact ((h n).calm hcalm).later x
  | write command hx eq =>
    rw [eq]
    have hlater := (h n).later x
    refine hlater.append rfl rfl (.refl _) (fun target ht => ?_)
    subst hx
    have hcl : command.isClient := hc
    rw [show command = .configChange target from ht] at hcl
    cases hcl
  | change _ hx eq =>
    subst hx
    rw [eq]
    refine (h n).begin ?_
    simpa only [changeSound, Bool.or_eq_true, decide_eq_true_eq] using hc
  | count _ _ hx hk ho rsps eq =>
    have hsound : mayFinalize ((run (init config) as).nodes n) → changesApplied ((run (init config) as).nodes n) := by
      subst hx ho
      simp only [changeSound, hk, Bool.or_eq_true] at hc
      exact fun hmay => hc.resolve_left (by rw [hmay]; decide)
    have hm := foldl_recordPeerRsp_only rsps ((run (init config) as).nodes n)
    have hj := foldl_recordPeerRsp_joint rsps ((run (init config) as).nodes n)
    set mid := rsps.foldl recordPeerRsp ((run (init config) as).nodes n)
    have hmid : NodeOrder config as n mid := (h n).calm (.data hm.data)
    obtain ⟨c, hadv⟩ := advanceCommitIndexLocked_eq mid
    have hcount : NodeOrder config as n { mid with commitIndex := c } := hmid.of_same (SameLog.refl _) rfl (.refl _)
    rw [eq, hadv]
    refine (NodeOrder.apply (hcount.finalize ?_)).later x
    -- neither counting nor the commit index matters for that
    change mayFinalize mid → changesApplied mid
    simpa only [mayFinalize, changesApplied, hm.data.state, hm.same.role, hj.1, hj.2, hm.data.log, hm.same.term,
    hm.data.applied]
      using hsound
  | adopt req hd eq =>
    rw [eq]
    refine ((h n).adopt (index_eq _ (h req.leaderId).plain.whole) (h req.leaderId).ordered ?_).later x
    simpa only [adoptSound, hd, Bool.or_eq_true, decide_eq_true_eq] using ha

lemma run_nodeOrder (as : List (Action N C L)) (hs : along orderSound (init config) as) (n : N) :
    NodeOrder config as n ((run (init config) as).nodes n) := by
  induction as using reverseRecOn generalizing n with
  | nil =>
    refine ⟨plain_empty, Nat.zero_le _, .refl _, ?_⟩
    intro a e b target hsplit
    have hnil : [] = a ++ e :: b := (entries_empty (L := L)).symm.trans hsplit
    simp at hnil
  | append_singleton as x ih =>
    rw [along_append, Bool.and_eq_true] at hs
    refine step_nodeOrder as x ?_ (ih hs.1) n
    simpa only [along, Bool.and_true] using hs.2

/-- **Membership changes are applied in order.** -/
theorem changes_in_order (config : N → ClusterConfig N) (as : List (Action N C L))
    (hs : along orderSound (init config) as) (n : N) :
    let nd := (run (init config) as).nodes n
    let applied := (entries nd.log).take nd.lastApplied
    let start : Membership N := { cluster := config n }
    nd.membership.Agrees (start.after applied) ∧
    ∀ a e b target, applied = a ++ e :: b → e.command = .configChange target →
      ((start.after a).state = .joint → (start.after (a ++ [e])).state = .stable ∧
        (start.after (a ++ [e])).cluster.same (start.after a).joint.newConfig) ∧
      ((start.after a).state = .stable → (start.after (a ++ [e])).state = .joint ∧ Begun config as a target) := by
  intro nd applied start
  have h := run_nodeOrder as hs n
  refine ⟨h.member, fun a e b target hsplit he => ?_⟩
  have hstart : start.Alike {} := ⟨rfl, nofun⟩
  have halike := hstart.after a
  obtain ⟨hends, hbegins⟩ := h.ordered.shorter ( take_prefix _ _) a e b target hsplit he
  have hlast : start.after (a ++ [e]) = (start.after a).change target := by
    rw [Membership.after_append]
    show (start.after a).apply e = _
    unfold Membership.apply
    rw [he]
  rw [hlast]
  unfold Membership.change
  refine ⟨fun hj => ?_, fun hst => ?_⟩
  · rw [hj]
    refine ⟨rfl, ?_⟩
    rw [halike.target hj]
    exact hends (halike.state.symm.trans hj)
  · rw [hst]
    exact ⟨rfl, hbegins (halike.state.symm.trans hst)⟩

end

def twoPeers : ClusterConfig (Fin 3) := { version := 1, voters := ⟨[1, 2], by decide⟩ }

def onePeer : ClusterConfig (Fin 3) := { version := 2, voters := ⟨[1], nodup_one⟩ }

def roundWithOne (k : ℕ) : List (Action (Fin 3) ℕ (CommandLog (Fin 3) ℕ)) :=
  [.call 0 (.replicateLog true), .advance k, .advance k, .deliver k, .recv k, .advance k, .advance k]

def changeTwice : List (Action (Fin 3) ℕ (CommandLog (Fin 3) ℕ)) :=
  electZero ++ [.call 0 (.beginConfigChange twoPeers)] ++ roundWithOne 1 ++ roundWithOne 2 ++ roundWithOne 3 ++
    [.call 0 (.beginConfigChange onePeer)] ++ roundWithOne 4

theorem changes_in_order_twice : along orderSound (init (othersConfig 3)) changeTwice ∧
    ((run (init (othersConfig 3)) changeTwice).nodes 0).configState = .joint ∧
    Begun (othersConfig 3) changeTwice [⟨1, 1, .configChange twoPeers⟩, ⟨1, 2, .configChange twoPeers⟩] onePeer := by
  have hs : along orderSound (init (othersConfig 3)) changeTwice := by decide +kernel
  obtain ⟨-, hall⟩ := changes_in_order (othersConfig 3) changeTwice hs 0
  refine ⟨hs, by decide +kernel, ?_⟩
  exact ((hall [⟨1, 1, .configChange twoPeers⟩, ⟨1, 2, .configChange twoPeers⟩] ⟨1, 3, .configChange onePeer⟩ [] onePeer
    (by decide +kernel) rfl).2 (by decide +kernel)).2

def changeOver : List (Action (Fin 3) ℕ (CommandLog (Fin 3) ℕ)) :=
  electZero ++ ([.call 0 (.beginConfigChange onePeer), .call 0 (.replicateLog true), .advance 1,
    .call 0 (.beginConfigChange twoPeers), .advance 1, .deliver 1, .recv 1, .advance 1, .advance 1] : Steps3)

/-- **The order is lost.** -/
theorem changes_out_of_order :
    let s := run (init (othersConfig 3)) changeOver
    let s' := run s (roundWithOne 2)
    (s.nodes 0).configState = .joint ∧ (s.nodes 0).jointConfig.newConfig = onePeer ∧
    (s'.nodes 0).configState = .stable ∧ (s'.nodes 0).clusterConfig = twoPeers ∧ twoPeers.same onePeer = false ∧
    ((run s' (roundWithOne 3)).nodes 0).configState = .joint ∧
    ∀ l target, Action.call l (.beginConfigChange target) ∉ roundWithOne 2 ++ roundWithOne 3 := by
  refine ⟨by decide +kernel, by decide +kernel, by decide +kernel, by decide +kernel, by decide, by decide +kernel, ?_⟩
  simp [roundWithOne]

end Cluster

end MaxRedis.Raft

/-
SubmitEntry: which entry an OK is about.

`SubmitEntry` appends its entry under the lock, gets its index and gives the lock up.
-/
import MaxRedis.Raft.CallSteps
import MaxRedis.Raft.Snapshots

namespace MaxRedis.Raft

open LogStorage LawfulLog RaftNode List

variable {N C L : Type} {T : List (LogEntry N C)} {a b i M : ℕ} {e : LogEntry N C} {f : Fiber N C}

/-! ## Slices of a numbered log -/

lemma slice_index (hT : Numbered T) (he : e ∈ (T.take b).drop a) : a < e.index ∧ e.index ≤ b := by
  obtain ⟨i, hi⟩ := mem_iff_getElem?.1 he
  rw [getElem?_drop, getElem?_take] at hi
  split_ifs at hi with hlt
  have := hT _ _ hi
  omega

lemma slice_outside (hT : Numbered T) (h : i ≤ a ∨ b < i) :
    ((T.take b).drop a).filter (fun x => x.index = i) = [] := by
  rw [filter_eq_nil_iff]
  intro e he
  have := slice_index hT he
  simp only [decide_eq_true_eq]
  omega

lemma slice_at (hT : Numbered T) (he : T[i]? = some e)
    (ha : a ≤ i) (hb : i < b) : ((T.take b).drop a).filter (fun x => x.index = i + 1) = [e] := by
  have hlen := (List.getElem?_eq_some_iff.1 he).1
  have hone : (T.take (i + 1)).drop i = [e] := by
    rw [take_succ_of_getElem? he, drop_append_of_le_length (by simp; omega), drop_of_length_le (by simp)]
    rfl
  calc ((T.take b).drop a).filter (fun x => x.index = i + 1)
      = ((T.take i).drop a ++ ([e] ++ (T.take b).drop (i + 1))).filter (fun x => x.index = i + 1) := by
        rw [← hone, drop_take_append T (Nat.le_succ i) (by omega) (by omega),
          drop_take_append T ha (by omega) (by omega)]
    _ = [e] := by
        rw [filter_append, filter_append, slice_outside hT (by omega), slice_outside hT (by omega)]
        simp [hT i e he]

namespace RaftNode

def appliedAt (nd : RaftNode N C L) (i : ℕ) : List (LogEntry N C) := nd.stateMachine.filter (fun e => e.index = i)

variable [LogStorage N C L]

/-- an AppendEntries request that keeps the first `i` entries of the node's log: it repeats those of them that it sends,
and it does not end before them -/
def leaves (nd : RaftNode N C L) (req : AppendEntriesRequest N C) (i : ℕ) : Bool :=
  req.entries.all (fun e => i < e.index || ((LogStorage.get nd.log e.index).map LogEntry.term == some e.term)) &&
  req.entries.getLast?.all (fun last => i ≤ last.index)

variable [LawfulLog N C L]

structure Standing (nd : RaftNode N C L) : Prop where
  whole : Whole nd.log
  applied : nd.lastApplied ≤ (entries nd.log).length
  past : ∀ e ∈ nd.stateMachine, e.index ≤ nd.lastApplied

/-- entry `e` is in the log until it is applied, and then it is what was applied at its index -/
structure Holds (nd : RaftNode N C L) (e : LogEntry N C) : Prop where
  pos : 0 < e.index
  waiting : nd.lastApplied < e.index → (entries nd.log)[e.index - 1]? = some e
  applied : nd.appliedAt e.index = if e.index ≤ nd.lastApplied then [e].filter isClient else []

/-- the node goes on without losing what it holds of the entries in `P` -/
structure Carries (P : LogEntry N C → Prop) (nd nd' : RaftNode N C L) : Prop where
  standing : Standing nd'
  applied : nd.lastApplied ≤ nd'.lastApplied
  holds : ∀ e, P e → Holds nd e → Holds nd' e

variable {P : LogEntry N C → Prop} {nd nd' : RaftNode N C L} {e : LogEntry N C}

lemma Carries.refl (h : Standing nd) : Carries P nd nd := ⟨h, le_rfl, fun _ _ he => he⟩

lemma Carries.trans {mid : RaftNode N C L} (h : Carries P nd mid) (k : Carries P mid nd') : Carries P nd nd' :=
  ⟨k.standing, h.applied.trans k.applied, fun e hp he => k.holds e hp (h.holds e hp he)⟩

lemma apply_carries (h : Standing nd) : Carries P nd nd.applyCommittedLogsLocked := by
  have happ := applyCommittedLogsLocked_applies nd
  obtain ⟨ha, hsm⟩ := applyCommittedLogsLocked_eq nd h.whole
  have hnum : Numbered (entries nd.log) := index_eq _ h.whole
  have hlen := h.applied
  set m := max nd.lastApplied (min nd.commitIndex (entries nd.log).length) with hm
  have hlow : nd.lastApplied ≤ m := le_max_left _ _
  have hhigh : m ≤ (entries nd.log).length := by omega
  -- what the sweep adds at one index
  have hat : ∀ i, nd.applyCommittedLogsLocked.appliedAt i = nd.appliedAt i ++
      (((((entries nd.log).take m).drop nd.lastApplied).filter (fun x => x.index = i)).filter isClient) := by
    intro i
    unfold appliedAt
    rw [hsm, filter_append, filter_filter, filter_filter]
    congr 2
    funext x
    exact Bool.and_comm _ _
  refine ⟨⟨happ.log.whole h.whole, by rw [ha, happ.log.entries]; exact hhigh, fun x hx => ?_⟩,
    by rw [ha]; exact hlow, ?_⟩
  · rw [hsm] at hx
    rw [ha]
    rcases mem_append.1 hx with hx | hx
    · exact (h.past x hx).trans hlow
    · exact (slice_index hnum (mem_of_mem_filter hx)).2
  · intro e _ he
    have hpos := he.pos
    refine ⟨hpos, fun hlt => ?_, ?_⟩
    · rw [happ.log.entries]
      exact he.waiting (by rw [ha] at hlt; omega)
    · rw [hat, he.applied, ha]
      by_cases hold : e.index ≤ nd.lastApplied
      · rw [if_pos hold, if_pos (hold.trans hlow), slice_outside hnum (Or.inl hold)]
        simp
      · rw [if_neg hold]
        by_cases hnew : e.index ≤ m
        · have hget := he.waiting (by omega)
          have hone := slice_at hnum hget (a := nd.lastApplied) (b := m) (by omega) (by omega)
          rw [Nat.sub_add_cancel hpos] at hone
          rw [if_pos hnew, hone, nil_append]
        · rw [if_neg hnew, slice_outside hnum (Or.inr (by omega))]
          simp

lemma Holds.congr (he : Holds nd e) (ha : nd'.lastApplied = nd.lastApplied) (hs : nd'.stateMachine = nd.stateMachine)
    (hl : nd.lastApplied < e.index → (entries nd.log)[e.index - 1]? = some e → (entries nd'.log)[e.index - 1]? =
    some e) : Holds nd' e := by
  refine ⟨he.pos, fun hlt => ?_, ?_⟩
  · rw [ha] at hlt; exact hl hlt (he.waiting hlt)
  · unfold appliedAt
    rw [hs, ha]; exact he.applied

lemma Standing.congr (h : Standing nd) (ha : nd'.lastApplied = nd.lastApplied)
    (hs : nd'.stateMachine = nd.stateMachine) (hw : Whole nd'.log) (hl : nd.lastApplied ≤ (entries nd'.log).length) :
    Standing nd' :=
  ⟨hw, by rw [ha]; exact hl, fun e he => by rw [hs] at he; rw [ha]; exact h.past e he⟩

lemma settle_carries (hm : Settle nd nd') (h : Standing nd) : Carries P nd nd' := by
  cases hm with
  | keep hs =>
    refine ⟨h.congr hs.applied hs.sm (by rw [hs.log]; exact h.whole) (by rw [hs.log]; exact h.applied),
      hs.applied.ge, ?_⟩
    intro e _ he
    exact he.congr hs.applied hs.sm (fun _ hget => by rw [hs.log]; exact hget)
  | commit => exact ⟨⟨h.whole, h.applied, h.past⟩, le_rfl, fun e _ he => ⟨he.pos, he.waiting, he.applied⟩⟩
  | persist =>
    have hlog : entries (persist nd.log) = entries nd.log := persist_eq nd.log
    refine ⟨⟨persist_whole _ h.whole, ?_, h.past⟩, le_rfl, fun e _ he => he.congr rfl rfl (fun _ hget => ?_)⟩
    · exact hlog ▸ h.applied
    · exact hlog ▸ hget
  | apply => exact apply_carries h

lemma move_carries (hm : Move nd nd') (h : Standing nd) : Carries P nd nd' := by
  cases hm with
  | settle hm => exact settle_carries hm h
  | append x f =>
    have hlog : entries (append nd.log x f) = _ := append_eq nd.log x f h.whole
    refine ⟨⟨append_whole _ x f h.whole, ?_, h.past⟩, le_rfl, fun e _ he => he.congr rfl rfl (fun _ hget => ?_)⟩
    · apply h.applied.trans
      rw [hlog, length_append]
      exact Nat.le_add_right _ _
    · rw [hlog, getElem?_append_left (List.getElem?_eq_some_iff.1 hget).1]
      exact hget

lemma moves_carries (hm : Moves nd nd') (h : Standing nd) : Carries P nd nd' := by
  induction hm with
  | refl => exact .refl h
  | tail _ hlast ih => exact ih.trans (move_carries hlast ih.standing)

lemma relog_carries (h : Standing nd) {log : L} (hl : Agrees nd.lastApplied nd.log log)
    (hP : ∀ e, P e → nd.lastApplied < e.index → e.index ≤ (entries nd.log).length → Agrees e.index nd.log log) :
    Carries P nd { nd with log := log } := by
  refine ⟨⟨hl.whole, hl.le, h.past⟩, le_rfl, fun e hp he => he.congr rfl rfl (fun hlt hget => ?_)⟩
  have hpos := he.pos
  have hin := (List.getElem?_eq_some_iff.1 hget).1
  have htake := congrArg (fun es => es[e.index - 1]?) (hP e hp hlt (by omega)).take
  simp only [getElem?_take_of_lt (show e.index - 1 < e.index by omega)] at htake
  exact htake.trans hget

lemma leaves_agrees (h : Whole nd.log) {req : AppendEntriesRequest N C} {i : ℕ} (hi : i ≤ (entries nd.log).length)
    (hl : nd.leaves req i = true) :
    let log := (appendLoop nd.log (req.entries.take maxAppendBatch)).1
    Agrees i nd.log log ∧ Agrees i nd.log (truncateTail log req.entries) := by
  simp only [leaves, Bool.and_eq_true, all_eq_true, Bool.or_eq_true, decide_eq_true_eq, beq_iff_eq] at hl
  obtain ⟨hes, hlast⟩ := hl
  have hloop : Agrees i nd.log (appendLoop nd.log (req.entries.take maxAppendBatch)).1 := by
    refine appendLoop_agrees _ nd.log h hi (fun e he hei => ?_)
    rcases hes e (mem_of_mem_take he) with hgt | ht
    · omega
    · exact ht
  refine ⟨hloop, hloop.trans (truncateTail_agrees _ hloop.whole hloop.le (fun last hl => ?_))⟩
  rw [hl] at hlast
  simpa using hlast

lemma onAppendEntries_carries (h : Standing nd) (req : AppendEntriesRequest N C)
    (hok : nd.term ≤ req.term → nd.leaves req nd.lastApplied = true)
    (hP : nd.term ≤ req.term → ∀ e, P e → nd.lastApplied < e.index → nd.leaves req e.index = true) :
    Carries P nd (nd.onAppendEntries req).1 := by
  have hobs : Carries P nd (nd.observe req.term) := settle_carries (.keep (observe_data nd req.term).sameState) h
  have hdata := observe_data nd req.term
  rcases onAppendEntries_spec nd req with ⟨-, heq⟩ | ⟨hterm, hcases⟩
  · rw [heq]; exact .refl h
  obtain ⟨hloop, hcut⟩ := leaves_agrees h.whole h.applied (hok hterm)
  have hwait : ∀ e, P e → nd.lastApplied < e.index → e.index ≤ (entries nd.log).length → _ :=
    fun e hp hlt hin => leaves_agrees h.whole hin (hP hterm e hp hlt)
  rcases hcases with ⟨hint, heq⟩ | ⟨-, -, log, ⟨hl, heq⟩ | ⟨hl, heq⟩⟩
  · rw [heq]; exact hobs
  · rw [hl] at hloop
    simp only [hl] at hwait
    rw [heq]
    refine hobs.trans (relog_carries hobs.standing ?_ ?_)
    · rw [hdata.applied, hdata.log]; exact hloop
    · rw [hdata.applied, hdata.log]; exact fun e hp hlt hin => (hwait e hp hlt hin).1
  · rw [hl] at hcut
    simp only [hl] at hwait
    rw [heq]
    have hset : Carries P nd { nd.observe req.term with log := truncateTail log req.entries } := by
      refine hobs.trans (relog_carries hobs.standing ?_ ?_)
      · rw [hdata.applied, hdata.log]; exact hcut
      · rw [hdata.applied, hdata.log]; exact fun e hp hlt hin => (hwait e hp hlt hin).2
    unfold commitFromLeader
    split_ifs with hlc
    · -- the commit index goes up or down; what is held does not depend on it
      have hmid : Carries P nd { nd.observe req.term with
          log := truncateTail log req.entries
          commitIndex := min req.leaderCommit (lastIndex (truncateTail log req.entries)) } :=
        ⟨⟨hset.standing.whole, hset.standing.applied, hset.standing.past⟩, hset.applied,
          fun e hp he => ⟨he.pos, (hset.holds e hp he).waiting, (hset.holds e hp he).applied⟩⟩
      exact hmid.trans (apply_carries hmid.standing)
    · exact hset

lemma submitAppend_holds (h : Standing nd) {command : Command N C} {idx : ℕ}
    (hs : (nd.submitAppend command).2 = some idx) : Holds (nd.submitAppend command).1 ⟨nd.term, idx, command⟩ := by
  unfold submitAppend at hs ⊢
  split_ifs at hs ⊢ with hrole
  obtain rfl : lastIndex (append nd.log ⟨nd.term, 0, command⟩ false) = idx := Option.some.inj hs
  have hlen := h.applied
  have hlog := append_eq nd.log ⟨nd.term, 0, command⟩ false h.whole
  have hidx : lastIndex (append nd.log ⟨nd.term, 0, command⟩ false) = (entries nd.log).length + 1 := by
    rw [lastIndex_eq _ (append_whole _ _ _ h.whole), hlog, length_append]; rfl
  rw [hidx]
  refine ⟨Nat.succ_pos _, fun _ => ?_, ?_⟩
  · rw [hlog, Nat.add_sub_cancel, getElem?_append_right le_rfl, Nat.sub_self]
    rfl
  · have hnone : nd.appliedAt ((entries nd.log).length + 1) = [] := by
      unfold appliedAt
      rw [filter_eq_nil_iff]
      intro e he
      have := h.past e he
      simp only [decide_eq_true_eq]
      omega
    rw [if_neg (show ¬ (entries nd.log).length + 1 ≤ nd.lastApplied by omega)]
    exact hnone

end RaftNode

/-! ## The group commit -/

/-- every OK that a call has, passes on or has returned is for an index up to `M` -/
structure OkWithin (M : ℕ) (f : Fiber N C) : Prop where
  counted : ∀ attempt batch applied, f.pc = .coordinatorFulfil attempt batch applied → applied ≤ M
  result : ∀ w r, f.waiter = some w → w.res = some r → r.op = .ok → w.idx ≤ M
  returned : ∀ w r, f.waiter = some w → f.pc = .returned (.submitted r) → r.op = .ok → w.idx ≤ M

lemma OkWithin.mono {M M' : ℕ} (h : OkWithin M f) (hM : M ≤ M') : OkWithin M' f :=
  ⟨fun attempt batch applied hf => (h.counted attempt batch applied hf).trans hM,
    fun w r hw hr hok => (h.result w r hw hr hok).trans hM,
    fun w r hw hf hok => (h.returned w r hw hf hok).trans hM⟩

lemma OkWithin.to (h : OkWithin M f) {pc : Pc N C}
    (hc : ∀ attempt batch applied, pc = .coordinatorFulfil attempt batch applied → applied ≤ M)
    (hr : ∀ w r, f.waiter = some w → pc = .returned (.submitted r) → r.op = .ok → w.idx ≤ M) :
    OkWithin M { f with pc := pc } := ⟨hc, h.result, hr⟩

lemma waiterResult_ok {idx applied : ℕ} (h : (Cluster.waiterResult idx applied).op = .ok) : idx ≤ applied := by
  unfold Cluster.waiterResult at h
  split_ifs at h with hle
  exact hle

namespace Cluster

variable [DecidableEq N] [LogStorage N C L]
variable {s : Cluster N C L} {a : Action N C L} {n : N}

/-- **Every OK is for an index that was applied.** -/
theorem step_okWithin {M M' : ℕ} (hq : Queued s) (h : ∀ f ∈ s.fibers, f.owner = n → OkWithin M f) (hM : M ≤ M')
    (hbefore : (s.nodes n).lastApplied ≤ M') (hafter : ((s.step a).nodes n).lastApplied ≤ M') :
    ∀ f ∈ (s.step a).fibers, f.owner = n → OkWithin M' f := by
  intro f' hf' ho
  obtain ⟨j, hj⟩ := mem_iff_getElem?.1 hf'
  have hold : ∀ {i : ℕ} {f : Fiber N C}, s.fibers[i]? = some f → f.owner = n → OkWithin M' f :=
    fun hf ho => (h _ (mem_of_getElem? hf) ho).mono hM
  have hc := step_call hj
  cases hc with
  | old hf => exact hold hf ho
  | started _ hs =>
    cases hs with
    | submit =>
      refine ⟨fun _ _ _ h => (by cases h), fun w r hw hr => ?_, fun _ _ _ h => by cases h⟩
      rw [← Option.some.inj hw] at hr
      cases hr
    | leaseRead =>
      refine ⟨fun attempt batch applied hpc => ?_, fun _ _ h => (by cases h), fun _ _ h => by cases h⟩
      split_ifs at hpc
    | _ => exact ⟨fun _ _ _ h => (by cases h), fun _ _ h => (by cases h), fun _ _ h => by cases h⟩
  | asks _ hf _ _ _ eq | told _ hf _ _ eq =>
    subst eq
    have hk := hold hf ho
    exact ⟨hk.counted, hk.result, hk.returned⟩
  | takes f hf _ _ rsp _ eq =>
    subst eq
    have hk := hold hf ho
    -- an answer leads to none of the places where something is decided
    refine ⟨fun attempt batch applied hpc => hk.counted attempt batch applied ?_, hk.result,
      fun w r hw hpc hok => hk.returned w r hw ?_ hok⟩
    · revert hpc; cases f.pc <;> cases rsp <;> simp [Pc.onRsp]
    · revert hpc; cases f.pc <;> cases rsp <;> simp [Pc.onRsp]
  | goes f hf _ _ _ pc hg eq =>
    subst eq
    have ho' : f.owner = n := ho
    have hk := hold hf ho'
    apply hk.to
    · intro attempt batch applied hpc
      cases hg with
      | plain _ hp => subst hpc; exact hp.elim
      | count => cases hpc; rw [ho']; exact hafter
      | confirm => split_ifs at hpc
      | _ => cases hpc
    · intro w r hw hpc hok
      cases hg with
      | plain _ hp => subst hpc; exact hp.elim
      | submitted _ _ hw' hr' =>
        cases hpc
        cases hw.symm.trans hw'
        exact hk.result w r hw hr' hok
      | late _ hw' hle =>
        cases hw.symm.trans hw'
        rw [ho'] at hle
        exact hle.trans hbefore
      | gaveUp => cases hpc; cases hok
      | confirm => split_ifs at hpc; cases hpc
      | _ => cases hpc
  | fulfils _ hf _ _ _ _ hpc _ eq =>
    subst eq
    have hk := hold hf ho
    refine hk.to (fun attempt' batch' applied' he => ?_) (fun _ _ _ h => by cases h)
    cases he
    exact hk.counted _ _ _ hpc
  | fulfilled f hf k g hk _ _ _ hg _ hpc eq =>
    subst eq
    have ho' : f.owner = n := ho
    -- the coordinator is a call of the same node
    obtain ⟨f1, hf1, ho1⟩ := hq.batches k g hk j (by rw [hg]; exact mem_cons_self)
    cases hf.symm.trans hf1
    have happlied := (hold hk (ho1.symm.trans ho')).counted _ _ _ hg
    have hfk := hold hf ho'
    refine ⟨fun attempt' batch' applied' he => ?_, fun w r hw hr hok => ?_, fun w r hw he hok => ?_⟩
    · rcases hpc with rfl | ⟨rfl, rfl⟩
      · exact hfk.counted _ _ _ he
      · cases he; exact happlied
    · obtain ⟨w0, hw0, rfl⟩ := Option.map_eq_some_iff.1 hw
      rw [← Option.some.inj hr] at hok
      exact (waiterResult_ok hok).trans happlied
    · obtain ⟨w0, hw0, rfl⟩ := Option.map_eq_some_iff.1 hw
      rcases hpc with rfl | ⟨rfl, rfl⟩
      · exact hfk.returned w0 r hw0 he hok
      · cases he
  | killed _ _ r _ eq =>
    subst eq
    exact ⟨fun _ _ _ h => (by cases h), fun _ _ h => (by cases h), fun _ _ h => by cases h⟩

/-! ## One call -/

def returned (s : Cluster N C L) (k : ℕ) : Option Outcome :=
  match (s.fibers[k]?).map Fiber.pc with
  | some (.returned o) => some o
  | _ => none

def pendingIdx (s : Cluster N C L) (n : N) : List ℕ :=
  s.fibers.filterMap (fun f =>
    match f.pc with
    | .returned _ => none
    | _ => if f.owner = n then f.waiter.map RaftWaiter.idx else none)

lemma mem_pendingIdx {f : Fiber N C} (hf : f ∈ s.fibers) (ho : f.owner = n) (hrun : ∀ o, f.pc ≠ .returned o)
    {w : RaftWaiter N C} (hw : f.waiter = some w) : w.idx ∈ s.pendingIdx n := by
  refine mem_filterMap.2 ⟨f, hf, ?_⟩
  split
  · exact absurd ‹f.pc = _› (hrun _)
  · rw [if_pos ho, hw]; rfl

/-- node `n` loses no entry that it has applied or that a `SubmitEntry` call waits for: no AppendEntries request cuts
one of them, no snapshot replaces them, and the node is not restarted -/
def keepsSubmitted (n : N) (s : Cluster N C L) (a : Action N C L) : Bool :=
  let nd := s.nodes n
  match s.delivered a with
  | some (dst, .appendEntries req) =>
    dst ≠ n || req.term < nd.term || (nd.lastApplied :: s.pendingIdx n).all
    (fun i => i < nd.lastApplied || nd.leaves req i)
  | some (dst, .installSnapshot req) => dst ≠ n || req.term < nd.term
  | _ =>
    match a with
    | .call m .createSnapshotIfNeeded => m ≠ n
    | .restart m _ => m ≠ n
    | _ => true

variable [LawfulLog N C L] {j k : ℕ} (as : List (Action N C L))

lemma step_carries (hok : keepsSubmitted n s a = true) (h : Standing (s.nodes n)) :
    Carries (fun e => e.index ≤ (s.nodes n).lastApplied ∨ e.index ∈ s.pendingIdx n) (s.nodes n)
    ((s.step a).nodes n) := by
  generalize hnd : (s.step a).nodes n = nd'
  have hstep := step_nodeStep s a n
  rw [hnd] at hstep
  cases hstep with
  | turn ht => exact moves_carries ht.moves h
  | adopt req hd heq =>
    have hleaves : (s.nodes n).term ≤ req.term → ∀ i ∈ (s.nodes n).lastApplied :: s.pendingIdx n,
        (s.nodes n).lastApplied ≤ i → (s.nodes n).leaves req i = true := by
      intro hterm i hi hle
      simp only [keepsSubmitted, hd, Bool.or_eq_true, decide_eq_true_eq, all_eq_true] at hok
      rcases hok with (hne | hlt) | hall
      · exact absurd rfl hne
      · omega
      · exact (hall i hi).resolve_left (by omega)
    rw [heq]
    apply onAppendEntries_carries h req
    · exact fun hterm => hleaves hterm _ mem_cons_self le_rfl
    · rintro hterm e (hle | hin) hlt
      · omega
      · exact hleaves hterm _ (mem_cons_of_mem _ hin) hlt.le
  | install req hd heq =>
    simp only [keepsSubmitted, hd, Bool.or_eq_true, decide_eq_true_eq] at hok
    rcases hok with hne | hlt
    · exact absurd rfl hne
    · have hsame : ((s.nodes n).onInstallSnapshot req).1 = s.nodes n := by unfold onInstallSnapshot; rw [if_pos hlt]
      rw [heq, hsame]; exact .refl h
  | snapshot ha | restart _ ha => subst ha; simp [keepsSubmitted, delivered] at hok

def Failed (k : ℕ) (s : Cluster N C L) : Prop :=
  ∃ f o, s.fibers[k]? = some f ∧ f.pc = .returned o ∧ ∀ r, o = .submitted r → r.op ≠ .ok

def Tracked (n : N) (k : ℕ) (e : LogEntry N C) (s : Cluster N C L) : Prop :=
  ∃ f res, s.fibers[k]? = some f ∧ f.owner = n ∧ f.waiter = some ⟨e.index, e, res⟩ ∧ Holds (s.nodes n) e

lemma CallStep.returned {f f' : Fiber N C} {o : Outcome} (h : CallStep s a j f') (hj : s.fibers[j]? = some f)
    (hf : f.pc = .returned o) : f'.pc = .returned o ∨ f'.pc = .returned .done := by
  have hsame : ∀ {g : Fiber N C}, s.fibers[j]? = some g → g = f := fun hg => Option.some.inj (hg.symm.trans hj)
  cases h with
  | old h => rw [hsame h]; exact Or.inl hf
  | started h => rw [hj] at h; cases h
  | asks _ h _ _ _ eq | told _ h _ _ eq => rw [eq, hsame h]; exact Or.inl hf
  | takes _ h _ _ _ _ eq =>
    left
    rw [eq, hsame h]
    rw [hf]; rfl
  | goes _ h _ hrun => rw [hsame h] at hrun; exact absurd hf (hrun o)
  | fulfils _ h _ _ _ _ hg => rw [hsame h, hf] at hg; cases hg
  | fulfilled _ h _ _ _ _ _ _ hg _ hpc eq =>
    rw [hsame h] at hpc
    rcases hpc with hpc | ⟨rfl, hpc⟩
    · rw [eq, hpc]; exact Or.inl hf
    · rw [hf] at hg; cases hg
  | killed _ _ _ _ eq => rw [eq]; exact Or.inr rfl

lemma step_failed (h : Failed k s) (a : Action N C L) : Failed k (s.step a) := by
  obtain ⟨f, o, hk, hf, ho⟩ := h
  obtain ⟨f', hf', -⟩ := step_stays a hk
  rcases (step_call hf').returned hk hf with he | he
  · exact ⟨f', o, hf', he, ho⟩
  · exact ⟨f', .done, hf', he, fun _ h => by cases h⟩

lemma CallStep.waiter {f f' : Fiber N C} {e : LogEntry N C} {res : Option ApplyResult} (h : CallStep s a j f')
    (hj : s.fibers[j]? = some f) (hw : f.waiter = some ⟨e.index, e, res⟩) :
    (∃ res', f'.waiter = some ⟨e.index, e, res'⟩) ∨ f'.pc = .returned .done := by
  have hsame : ∀ {g : Fiber N C}, s.fibers[j]? = some g → g = f := fun hg => Option.some.inj (hg.symm.trans hj)
  cases h with
  | old h => rw [hsame h]; exact Or.inl ⟨res, hw⟩
  | started h => rw [hj] at h; cases h
  | asks _ h _ _ _ eq | told _ h _ _ eq | takes _ h _ _ _ _ eq => rw [eq, hsame h]; exact Or.inl ⟨res, hw⟩
  | goes _ h _ _ _ _ _ eq | fulfils _ h _ _ _ _ _ _ eq => rw [eq, hsame h]; exact Or.inl ⟨res, hw⟩
  | fulfilled _ h _ _ _ _ _ _ _ _ _ eq =>
    rw [eq, hsame h, hw]
    exact Or.inl ⟨_, rfl⟩
  | killed _ _ _ _ eq => rw [eq]; exact Or.inr rfl

structure Submits (n : N) (s : Cluster N C L) : Prop where
  queued : Queued s
  standing : Standing (s.nodes n)
  within : ∀ f ∈ s.fibers, f.owner = n → OkWithin (s.nodes n).lastApplied f

lemma submits_init (config : N → ClusterConfig N) : Submits n (init config : Cluster N C L) :=
  ⟨queued_init config, ⟨whole_empty, Nat.zero_le _, fun e he => by simp [init] at he⟩, fun f hf => by simp [init] at hf⟩

lemma step_submits (hok : keepsSubmitted n s a = true) (h : Submits n s) : Submits n (s.step a) := by
  have hcar := step_carries hok h.standing
  exact ⟨step_queued h.queued a, hcar.standing, step_okWithin h.queued h.within hcar.applied hcar.applied le_rfl⟩

lemma run_submits {s : Cluster N C L} (hok : along (keepsSubmitted n) s as = true)
    (h : Submits n s) : Submits n (run s as) := by
  induction as generalizing s with
  | nil => exact h
  | cons _ _ ih =>
    simp only [along, Bool.and_eq_true] at hok
    exact ih hok.2 (step_submits hok.1 h)

lemma step_tracked {e : LogEntry N C} (hok : keepsSubmitted n s a = true) (h : Submits n s)
    (hcall : Failed k s ∨ Tracked n k e s) : Failed k (s.step a) ∨ Tracked n k e (s.step a) := by
  rcases hcall with hfail | ⟨f, res, hk, ho, hw, hholds⟩
  · exact Or.inl (step_failed hfail a)
  obtain ⟨f', hf', ho'⟩ := step_stays a hk
  by_cases hret : ∃ o, f.pc = .returned o ∧ ∀ r, o = .submitted r → r.op ≠ .ok
  · obtain ⟨o, hf, hno⟩ := hret
    exact Or.inl (step_failed ⟨f, o, hk, hf, hno⟩ a)
  rcases (step_call hf').waiter hk hw with ⟨res', hw'⟩ | hdone
  · refine Or.inr ⟨f', res', hf', ho'.trans ho, hw', (step_carries hok h.standing).holds e ?_ hholds⟩
    -- the entry is applied already, or the call is pending
    by_cases hrun : ∃ r, f.pc = .returned (.submitted r) ∧ r.op = .ok
    · obtain ⟨r, hf, hr⟩ := hrun
      exact Or.inl ((h.within f (mem_of_getElem? hk) ho).returned _ r hw hf hr)
    · refine Or.inr (mem_pendingIdx (mem_of_getElem? hk) ho (fun o hf => ?_) hw)
      apply hret
      refine ⟨o, hf, ?_⟩
      rintro r rfl hr
      exact hrun ⟨r, hf, hr⟩
  · exact Or.inl ⟨f', .done, hf', hdone, fun _ h => by cases h⟩

lemma run_tracked {e : LogEntry N C} {s : Cluster N C L}
    (hok : along (keepsSubmitted n) s as = true) (h : Submits n s) (hcall : Failed k s ∨ Tracked n k e s) :
    Failed k (run s as) ∨ Tracked n k e (run s as) := by
  induction as generalizing s with
  | nil => exact hcall
  | cons _ _ ih =>
    simp only [along, Bool.and_eq_true] at hok
    exact ih hok.2 (step_submits hok.1 h) (step_tracked hok.1 h hcall)

lemma submitEntry_tracked (h : Submits n s) (command : Command N C) :
    (∃ idx, ((s.nodes n).submitAppend command).2 = some idx ∧
      Tracked n s.fibers.length ⟨(s.nodes n).term, idx, command⟩ (s.step (.call n (.submitEntry command)))) ∨
    Failed s.fibers.length (s.step (.call n (.submitEntry command))) := by
  have hholds : ∀ idx, ((s.nodes n).submitAppend command).2 = some idx →
      Holds ((s.nodes n).submitAppend command).1 ⟨(s.nodes n).term, idx, command⟩ :=
    fun idx hs => submitAppend_holds h.standing hs
  simp only [step, call]
  generalize (s.nodes n).submitAppend command = x at hholds ⊢
  obtain ⟨nd, _ | idx⟩ := x
  · exact Or.inr ⟨_, _, getElem?_concat_length, rfl, fun r hr => by cases hr; simp⟩
  · refine Or.inl ⟨idx, rfl, _, none, getElem?_concat_length, rfl, rfl, ?_⟩
    rw [spawn_nodes, setNode_self]
    exact hholds idx rfl

/-- **An OK from SubmitEntry is about the caller's own entry.** -/
theorem submit_ok_applies_own (config : N → ClusterConfig N) (n : N) (command : Command N C)
    (as bs : List (Action N C L))
    (hok : along (keepsSubmitted n) (init config) (as ++ .call n (.submitEntry command) :: bs) = true) (rows : ℕ)
    (hret : (run (init config) (as ++ .call n (.submitEntry command) :: bs)).returned
      (run (init config) as).fibers.length = some (.submitted ⟨.ok, rows⟩)) :
    ∃ idx, (((run (init config) as).nodes n).submitAppend command).2 = some idx ∧
      ((run (init config) (as ++ .call n (.submitEntry command) :: bs)).nodes n).appliedAt idx =
        [⟨((run (init config) as).nodes n).term, idx, command⟩].filter isClient := by
  rw [along_append, Bool.and_eq_true] at hok
  rw [run_append] at hret ⊢
  have h0 := run_submits as hok.1 (submits_init config)
  have hbs := hok.2
  generalize run (init config) as = s at h0 hbs hret ⊢
  simp only [along, Bool.and_eq_true] at hbs
  have h1 := step_submits hbs.1 h0
  change (run (s.step (.call n (.submitEntry command))) bs).returned s.fibers.length = _ at hret
  have h2 := run_submits bs hbs.2 h1
  -- a call that has failed has not returned OK
  have hfail : ¬ Failed s.fibers.length (run (s.step (.call n (.submitEntry command))) bs) := by
    rintro ⟨f, o, hf, hpc, hno⟩
    simp only [returned, hf, Option.map_some, hpc, Option.some.injEq] at hret
    exact hno _ hret rfl
  rcases submitEntry_tracked h0 command with ⟨idx, hidx, htr⟩ | hno
  · rcases run_tracked bs hbs.2 h1 (Or.inr htr) with hno | ⟨f, res, hf, ho, hw, hholds⟩
    · exact absurd hno hfail
    refine ⟨idx, hidx, ?_⟩
    have hpc : f.pc = .returned (.submitted ⟨.ok, rows⟩) := by
      simp only [returned, hf] at hret
      split at hret
      · rename_i o heq
        rw [Option.some.inj heq, Option.some.inj hret]
      · cases hret
    have hle := (h2.within f (mem_of_getElem? hf) ho).returned _ _ hw hpc rfl
    have happ := hholds.applied
    rw [if_pos hle] at happ
    exact happ
  · have hrun := run_tracked (e := ⟨0, 0, command⟩) bs hbs.2 h1 (Or.inl hno)
    rcases hrun with hno | ⟨f, res, hf, ho, hw, hholds⟩
    · exact absurd hno hfail
    · exact absurd hholds.pos (Nat.lt_irrefl 0)

def submitOne : List (Action (Fin 3) ℕ (CommandLog (Fin 3) ℕ)) :=
  [.advance 1, .advance 1, .advance 1, .advance 1, .deliver 1, .recv 1, .advance 1, .advance 1, .advance 1, .advance 1,
    .advance 1, .advance 1]

theorem submit_ok_applies_own_submitOne :
    let s := run (init (othersConfig 3)) electZero
    let s' := run (init (othersConfig 3)) (electZero ++ .call 0 (.submitEntry (.client 10)) :: submitOne)
    s'.returned s.fibers.length = some (.submitted ⟨.ok, 1⟩) ∧
    ∃ idx, ((s.nodes 0).submitAppend (.client 10)).2 = some idx ∧
      (s'.nodes 0).appliedAt idx = [⟨(s.nodes 0).term, idx, .client 10⟩].filter isClient :=
  ⟨by decide +kernel,
    submit_ok_applies_own (othersConfig 3) 0 (.client 10) electZero submitOne (by decide +kernel) 1 (by decide +kernel)⟩

/-- the requests of node 0 get lost; node 1 wins term 2, its entry takes the place of node 0's and is committed, and its
heartbeat reaches node 0; then node 0 goes on with its group commit -/
def submitDeposed : List (Action (Fin 3) ℕ (CommandLog (Fin 3) ℕ)) :=
  [.advance 1, .advance 1, .advance 1, .advance 1, .fail 1, .advance 1, .fail 1,
    .call 1 .startElection, .advance 2, .fail 2, .advance 2, .deliver 2, .recv 2, .advance 2,
    .call 1 (.submitEntry (.client 20)), .advance 3, .advance 3, .advance 3, .advance 3, .deliver 3, .recv 3,
    .advance 3, .advance 3, .call 1 (.heartbeatTick false), .advance 4, .deliver 4,
    .advance 1, .advance 1, .advance 1, .advance 1, .advance 1]

/-- **An OK for another leader's entry.** -/
theorem submit_ok_other_entry :
    let s := run (init (othersConfig 3)) electZero
    let s' := run (init (othersConfig 3)) (electZero ++ .call 0 (.submitEntry (.client 10)) :: submitDeposed)
    s'.returned s.fibers.length = some (.submitted ⟨.ok, 1⟩) ∧
    ((s.nodes 0).submitAppend (.client 10)).2 = some 1 ∧ (s.nodes 0).term = 1 ∧
    (s'.nodes 0).appliedAt 1 = [⟨2, 1, .client 20⟩] := by
  decide +kernel

end Cluster

end MaxRedis.Raft

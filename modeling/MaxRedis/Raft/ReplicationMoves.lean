/-
What the sections of `Raft.Replication` may do, said once per function.
-/
import MaxRedis.Raft.Moves

namespace MaxRedis.Raft.RaftNode

open LogStorage LawfulLog List

variable {N C L : Type} (es : List (LogEntry N C))

def isClient (e : LogEntry N C) : Bool :=
  match e.command with
  | .configChange _ => false
  | _ => true

lemma foldl_applyEntry_config (nd : RaftNode N C L) (h : ∀ e ∈ es, isClient e) :
    (es.foldl applyEntry nd).clusterConfig = nd.clusterConfig ∧ (es.foldl applyEntry nd).configState = nd.configState ∧
    (es.foldl applyEntry nd).jointConfig = nd.jointConfig := by
  induction es generalizing nd with
  | nil => exact ⟨rfl, rfl, rfl⟩
  | cons e _ ih =>
    have he := h e mem_cons_self
    obtain ⟨h1, h2, h3⟩ := ih (nd.applyEntry e) (fun x hx => h x (mem_cons_of_mem _ hx))
    have hsame : (nd.applyEntry e).clusterConfig = nd.clusterConfig ∧ (nd.applyEntry e).configState = nd.configState ∧
        (nd.applyEntry e).jointConfig = nd.jointConfig := by
      unfold isClient at he
      unfold applyEntry
      split
      · rename_i hc; rw [hc] at he; simp at he
      · exact ⟨rfl, rfl, rfl⟩
    exact ⟨h1.trans hsame.1, h2.trans hsame.2.1, h3.trans hsame.2.2⟩

lemma foldl_applyEntry_sm (nd : RaftNode N C L) :
    (es.foldl applyEntry nd).stateMachine = nd.stateMachine ++ es.filter isClient ∧
    (es.foldl applyEntry nd).lastApplied = (es.getLast?.map LogEntry.index).getD nd.lastApplied := by
  induction es generalizing nd with
  | nil => simp
  | cons e es ih =>
    obtain ⟨h1, h2⟩ := ih (nd.applyEntry e)
    have hone : (nd.applyEntry e).stateMachine = nd.stateMachine ++ [e].filter isClient ∧
        (nd.applyEntry e).lastApplied = e.index := by
      unfold applyEntry
      cases hc : e.command with
      | configChange => dsimp only; split <;> simp [isClient, hc]
      | empty | client => simp [isClient, hc]
    refine ⟨?_, ?_⟩
    · rw [foldl_cons, h1, hone.1, append_assoc, ← filter_append]; rfl
    · rw [foldl_cons, h2, hone.2]
      cases es with
      | nil => rfl
      | cons => simp [getLast?_cons]

/-! ## Terms and peer counters -/

variable (nd : RaftNode N C L)

lemma stepDownLocked_kept : Kept nd nd.stepDownLocked := by
  unfold stepDownLocked
  split_ifs
  · exact Kept.refl nd
  · exact becomeFollowerLocked_kept nd _

lemma cancelTransferLocked_kept : Kept nd nd.cancelTransferLocked := by
  rw [cancelTransferLocked_eq]
  exact .of_view rfl rfl rfl

structure OnlyPeers (nd nd' : RaftNode N C L) : Prop where
  same : SameVote nd nd'
  data : SameData nd nd'

lemma OnlyPeers.refl : OnlyPeers nd nd := ⟨SameVote.refl nd, SameData.refl nd⟩

lemma OnlyPeers.trans {a b c : RaftNode N C L} (h : OnlyPeers a b) (k : OnlyPeers b c) : OnlyPeers a c :=
  ⟨h.same.trans k.same, h.data.trans k.data⟩

lemma recordPeerRsp_only (p : PeerReq N C × PeerRsp) : OnlyPeers nd (nd.recordPeerRsp p) := by
  unfold recordPeerRsp
  split_ifs <;>
    exact ⟨.of_view rfl, .of_view rfl⟩

lemma foldl_recordPeerRsp_only (ps : List (PeerReq N C × PeerRsp)) (nd : RaftNode N C L) :
    OnlyPeers nd (ps.foldl recordPeerRsp nd) := by
  induction ps generalizing nd with
  | nil => exact OnlyPeers.refl nd
  | cons p _ ih => exact (recordPeerRsp_only nd p).trans (ih _)

section
variable [DecidableEq N]

lemma recordHeartbeatAck_only (nd : RaftNode N C L) (p : N × ℕ) : OnlyPeers nd (nd.recordHeartbeatAck p) := by
  unfold recordHeartbeatAck
  dsimp only
  split_ifs
  · exact ⟨.of_view rfl, .of_view rfl⟩
  · exact OnlyPeers.refl nd

lemma foldl_recordHeartbeatAck_only (ps : List (N × ℕ)) (nd : RaftNode N C L) :
    OnlyPeers nd (ps.foldl recordHeartbeatAck nd) := by
  induction ps generalizing nd with
  | nil => exact OnlyPeers.refl nd
  | cons p _ ih => exact (recordHeartbeatAck_only nd p).trans (ih _)

end

/-! ## Apply: single steps -/

variable [LogStorage N C L] {l : List ℕ}

lemma flushApplyProgress_config :
    nd.flushApplyProgress.clusterConfig = nd.clusterConfig ∧ nd.flushApplyProgress.configState = nd.configState ∧
    nd.flushApplyProgress.jointConfig = nd.jointConfig := by
  unfold flushApplyProgress
  dsimp only
  split_ifs <;> exact ⟨rfl, rfl, rfl⟩

lemma flushApplyProgress_sm :
    nd.flushApplyProgress.stateMachine = nd.stateMachine ∧ nd.flushApplyProgress.lastApplied = nd.lastApplied := by
  unfold flushApplyProgress
  dsimp only
  split_ifs <;> exact ⟨rfl, rfl⟩

lemma flushApplyProgress_log : nd.flushApplyProgress.log = nd.log ∨ nd.flushApplyProgress.log = flush nd.log := by
  unfold flushApplyProgress
  dsimp only
  split_ifs
  · exact Or.inr rfl
  · exact Or.inl rfl
  · exact Or.inl rfl

lemma foldl_applyEntry_kept (nd : RaftNode N C L) :
    (es.foldl applyEntry nd).log = nd.log ∧ (es.foldl applyEntry nd).applyProgress = nd.applyProgress ∧
    (es.foldl applyEntry nd).snapshotMeta = nd.snapshotMeta := by
  induction es generalizing nd with
  | nil => exact ⟨rfl, rfl, rfl⟩
  | cons e _ ih =>
    have hone : (nd.applyEntry e).log = nd.log ∧ (nd.applyEntry e).applyProgress = nd.applyProgress ∧
        (nd.applyEntry e).snapshotMeta = nd.snapshotMeta := by
      unfold applyEntry
      split
      · split <;> exact ⟨rfl, rfl, rfl⟩
      · exact ⟨rfl, rfl, rfl⟩
    obtain ⟨h1, h2, h3⟩ := ih (nd.applyEntry e)
    exact ⟨h1.trans hone.1, h2.trans hone.2.1, h3.trans hone.2.2⟩

structure SameLog [LawfulLog N C L] (l l' : L) : Prop where
  entries : LawfulLog.entries l' = LawfulLog.entries l
  whole : Whole l → Whole l'
  anchor : anchorIndex l' = anchorIndex l

lemma SameLog.refl [LawfulLog N C L] (l : L) : SameLog l l := ⟨rfl, fun h => h, rfl⟩

lemma SameLog.plain [LawfulLog N C L] {l l' : L} (h : SameLog l l') (p : Plain l) : Plain l' :=
  ⟨h.whole p.whole, h.anchor.trans p.free⟩

lemma SameLog.trans [LawfulLog N C L] {a b c : L} (h : SameLog a b) (k : SameLog b c) : SameLog a c :=
  ⟨k.entries.trans h.entries, k.whole ∘ h.whole, k.anchor.trans h.anchor⟩

/-! ## Apply -/

structure Applies [LawfulLog N C L] (nd nd' : RaftNode N C L) : Prop where
  same : SameVote nd nd'
  log : SameLog nd.log nd'.log
  commit : nd'.commitIndex = nd.commitIndex
  snap : nd'.lastSnapshotIndex = nd.lastSnapshotIndex
  bin : nd'.snapshotBin = nd.snapshotBin
  arrays : nd'.arrays = nd.arrays
  order : nd'.idOrder = nd.idOrder

section
variable [LawfulLog N C L]

variable (nd : RaftNode N C L) {b : ℕ} (fuel : ℕ) {w : List (LogEntry N C)} {P : L → Prop}

lemma Applies.refl : Applies nd nd :=
  ⟨SameVote.refl nd, SameLog.refl _, rfl, rfl, rfl, rfl, rfl⟩

lemma Applies.trans {a b c : RaftNode N C L} (h : Applies a b) (k : Applies b c) : Applies a c :=
  ⟨h.same.trans k.same, h.log.trans k.log, k.commit.trans h.commit, k.snap.trans h.snap, k.bin.trans h.bin,
    k.arrays.trans h.arrays, k.order.trans h.order⟩

lemma applyEntry_applies (e : LogEntry N C) : Applies nd (nd.applyEntry e) := by
  unfold applyEntry
  split
  · split
    · exact ⟨⟨rfl, fun _ => ⟨rfl, rfl, rfl, rfl⟩, rfl, rfl, rfl⟩, SameLog.refl _, rfl, rfl, rfl, rfl, rfl⟩
    · exact ⟨⟨rfl, fun _ => ⟨rfl, rfl, rfl, rfl⟩, rfl, rfl, rfl⟩, SameLog.refl _, rfl, rfl, rfl, rfl, rfl⟩
  · exact ⟨.of_view rfl, SameLog.refl _, rfl, rfl, rfl, rfl, rfl⟩

lemma flushApplyProgress_applies : Applies nd nd.flushApplyProgress := by
  unfold flushApplyProgress
  dsimp only
  split_ifs
  · exact ⟨.of_view rfl, ⟨flush_eq _, flush_whole _, flush_anchor _⟩, rfl, rfl, rfl, rfl, rfl⟩
  · exact ⟨.of_view rfl, SameLog.refl _, rfl, rfl, rfl, rfl, rfl⟩
  · exact ⟨.of_view rfl, SameLog.refl _, rfl, rfl, rfl, rfl, rfl⟩

lemma foldl_applyEntry_applies (es : List (LogEntry N C)) (nd : RaftNode N C L) :
    Applies nd (es.foldl applyEntry nd) := by
  induction es generalizing nd with
  | nil => exact Applies.refl nd
  | cons e _ ih => exact (applyEntry_applies nd e).trans (ih _)

lemma applyLoop_applies (nd : RaftNode N C L) : Applies nd (applyLoop fuel nd) := by
  induction fuel generalizing nd with
  | zero => exact Applies.refl nd
  | succ _ ih =>
    simp only [applyLoop]
    split_ifs
    · exact Applies.refl nd
    · exact (foldl_applyEntry_applies _ nd).trans ((flushApplyProgress_applies _).trans (ih _))
    · exact Applies.refl nd

lemma applyCommittedLogsLocked_applies : Applies nd nd.applyCommittedLogsLocked :=
  applyLoop_applies _ nd

lemma applyLoop_config (nd : RaftNode N C L) (h : ∀ e ∈ entries nd.log, isClient e) :
    (applyLoop fuel nd).clusterConfig = nd.clusterConfig ∧ (applyLoop fuel nd).configState = nd.configState ∧
    (applyLoop fuel nd).jointConfig = nd.jointConfig := by
  induction fuel generalizing nd with
  | zero => exact ⟨rfl, rfl, rfl⟩
  | succ _ ih =>
    simp only [applyLoop]
    split_ifs
    · exact ⟨rfl, rfl, rfl⟩
    · set es := getRange nd.log (nd.lastApplied + 1) (min applyBatchSize (nd.commitIndex - nd.lastApplied))
      have happ := (foldl_applyEntry_applies es nd).trans (flushApplyProgress_applies _)
      obtain ⟨a1, a2, a3⟩ := foldl_applyEntry_config es nd (fun e he => h e (mem_range _ _ _ e he))
      obtain ⟨b1, b2, b3⟩ := flushApplyProgress_config (es.foldl applyEntry nd)
      obtain ⟨c1, c2, c3⟩ := ih _ (by rw [happ.log.entries]; exact h)
      exact ⟨c1.trans (b1.trans a1), c2.trans (b2.trans a2), c3.trans (b3.trans a3)⟩
    · exact ⟨rfl, rfl, rfl⟩

lemma applyLoop_snapshotMeta (nd : RaftNode N C L) :
    (applyLoop fuel nd).snapshotMeta = nd.snapshotMeta := by
  induction fuel generalizing nd with
  | zero => rfl
  | succ _ ih =>
    simp only [applyLoop]
    split_ifs
    · rfl
    · set es := getRange nd.log (nd.lastApplied + 1) (min applyBatchSize (nd.commitIndex - nd.lastApplied))
      have hflush : (es.foldl applyEntry nd).flushApplyProgress.snapshotMeta =
        (es.foldl applyEntry nd).snapshotMeta := by
        unfold flushApplyProgress
        dsimp only
        split_ifs <;> rfl
      exact (ih _).trans (hflush.trans (foldl_applyEntry_kept es nd).2.2)
    · rfl

/-! ### What is applied -/

/-- logs of the class `P` give out the entries `w` from the index `b` on, and stay in it when they are flushed -/
structure Serves (P : L → Prop) (b : ℕ) (w : List (LogEntry N C)) : Prop where
  flush : ∀ l, P l → P (flush l)
  last : ∀ l, P l → lastIndex l = w.length
  range : ∀ l, P l → ∀ i k, b ≤ i → 0 < k → getRange l (i + 1) k = (w.drop i).take k
  index : ∀ i e, w[i]? = some e → e.index = i + 1

lemma serves_whole (w : List (LogEntry N C)) (h : ∀ i e, w[i]? = some e → e.index = i + 1) :
    Serves (fun l : L => Whole l ∧ entries l = w) 0 w where
  flush l hl := ⟨flush_whole l hl.1, (flush_eq l).trans hl.2⟩
  last l hl := by rw [lastIndex_eq l hl.1, hl.2]
  range l hl i k _ hk := by rw [getRange_eq l hl.1 i k hk, hl.2]
  index := h

lemma applyBatch_eq (hs : Serves P b w) (nd : RaftNode N C L)
    (p : P nd.log) (hb : b ≤ nd.lastApplied) (h1 : nd.lastApplied < nd.commitIndex) (h2 : nd.lastApplied < w.length) :
    ∃ m, nd.lastApplied < m ∧ m ≤ min nd.commitIndex w.length ∧
      getRange nd.log (nd.lastApplied + 1) (min applyBatchSize (nd.commitIndex - nd.lastApplied)) =
        (w.take m).drop nd.lastApplied ∧
      (((w.take m).drop nd.lastApplied).getLast?.map LogEntry.index) = some m := by
  set k := min applyBatchSize (nd.commitIndex - nd.lastApplied) with hk
  have hkpos : 0 < k := by rw [hk]; unfold applyBatchSize; omega
  refine ⟨min (nd.lastApplied + k) w.length, by omega, by omega, ?_, ?_⟩
  · rw [hs.range _ p _ _ hb hkpos, drop_take]
    rcases Nat.le_total (nd.lastApplied + k) w.length with hle | hle
    · rw [min_eq_left hle]; congr 1; omega
    · rw [min_eq_right hle, take_of_length_le (by simp; omega), take_of_length_le (by simp)]
  · set m := min (nd.lastApplied + k) w.length
    have hm : m ≤ w.length := by omega
    have hget : w[m - 1]? = some (w[m - 1]) := getElem?_eq_getElem (by omega)
    have hlast : ((w.take m).drop nd.lastApplied).getLast? = some (w[m - 1]) := by
      rw [getLast?_drop, if_neg (by simp; omega), getLast?_take]
      simp [hget, show m ≠ 0 by omega]
    rw [hlast, Option.map_some, hs.index _ _ hget]
    congr 1; omega

lemma applyBatch_next (hs : Serves P b w) (nd : RaftNode N C L)
    (p : P nd.log) {m : ℕ} (hl : (((w.take m).drop nd.lastApplied).getLast?.map LogEntry.index) = some m) :
    let nd' := (((w.take m).drop nd.lastApplied).foldl applyEntry nd).flushApplyProgress
    P nd'.log ∧ nd'.lastApplied = m ∧ nd'.commitIndex = nd.commitIndex := by
  intro nd'
  set es := (w.take m).drop nd.lastApplied with hes
  have hlog := (foldl_applyEntry_kept es nd).1
  refine ⟨?_, ?_, ((foldl_applyEntry_applies es nd).trans (flushApplyProgress_applies _)).commit⟩
  · rcases flushApplyProgress_log (es.foldl applyEntry nd) with h | h
    · rw [h, hlog]; exact p
    · rw [h, hlog]; exact hs.flush _ p
  · rw [(flushApplyProgress_sm _).2, (foldl_applyEntry_sm es nd).2, hl]
    rfl

lemma drop_take_append {α : Type} (l : List α) {a b c : ℕ} (hab : a ≤ b) (hbc : b ≤ c) (hb : b ≤ l.length) :
    (l.take b).drop a ++ (l.take c).drop b = (l.take c).drop a := by
  have h : l.take c = l.take b ++ (l.take c).drop b := by
    conv_lhs => rw [← take_append_drop b (l.take c)]
    rw [take_take, min_eq_left hbc]
  conv_rhs => rw [h]
  rw [drop_append_of_le_length (by simp; omega)]

lemma applyLoop_eq (hs : Serves P b w) (fuel : ℕ) (nd : RaftNode N C L) (p : P nd.log) (hb : b ≤ nd.lastApplied)
    (hf : min nd.commitIndex w.length ≤ nd.lastApplied + fuel) : P (applyLoop fuel nd).log ∧
    (applyLoop fuel nd).lastApplied = max nd.lastApplied (min nd.commitIndex w.length) ∧
    (applyLoop fuel nd).stateMachine = nd.stateMachine ++
      ((w.take (max nd.lastApplied (min nd.commitIndex w.length))).drop nd.lastApplied).filter isClient := by
  induction fuel generalizing nd with
  | zero =>
    have hm : max nd.lastApplied (min nd.commitIndex w.length) = nd.lastApplied := by omega
    rw [hm]
    exact ⟨p, rfl, by simp [applyLoop]⟩
  | succ _ ih =>
    simp only [applyLoop]
    rw [hs.last _ p]
    split_ifs with hlt hnil
    · -- a range that starts inside the log is not empty
      obtain ⟨m, -, -, hr, hl⟩ := applyBatch_eq hs nd p hb hlt.1 hlt.2
      rw [← hr, hnil] at hl; simp at hl
    · obtain ⟨m, h1, h2, hr, hl⟩ := applyBatch_eq hs nd p hb hlt.1 hlt.2
      rw [hr]
      set es := (w.take m).drop nd.lastApplied with hes
      obtain ⟨hnext, ha, hcommit⟩ := applyBatch_next hs nd p hl
      have hsm : (es.foldl applyEntry nd).flushApplyProgress.stateMachine = nd.stateMachine ++ es.filter isClient :=
        (flushApplyProgress_sm _).1.trans (foldl_applyEntry_sm es nd).1
      obtain ⟨g0, g1, g2⟩ := ih _ hnext (by rw [ha]; omega) (by rw [ha]; omega)
      rw [hcommit, ha] at g1 g2
      have hmax : max m (min nd.commitIndex w.length) = max nd.lastApplied (min nd.commitIndex w.length) := by omega
      rw [hmax] at g1 g2
      refine ⟨g0, g1, ?_⟩
      rw [g2, hsm, append_assoc, ← filter_append, drop_take_append _ h1.le (by omega) (by omega)]
    · have hm : max nd.lastApplied (min nd.commitIndex w.length) = nd.lastApplied := by omega
      rw [hm]
      exact ⟨p, rfl, by simp⟩

theorem applyCommittedLogsLocked_eq (p : Whole nd.log) :
    nd.applyCommittedLogsLocked.lastApplied = max nd.lastApplied (min nd.commitIndex (entries nd.log).length) ∧
    nd.applyCommittedLogsLocked.stateMachine = nd.stateMachine ++
      (((entries nd.log).take (max nd.lastApplied (min nd.commitIndex (entries nd.log).length))).drop
        nd.lastApplied).filter isClient :=
  (applyLoop_eq (serves_whole _ (index_eq _ p)) _ nd ⟨p, rfl⟩ (Nat.zero_le _) (by omega)).2

end

/-! ## Commit -/

lemma kthLargest_count {k c : ℕ} (h : kthLargest k l = some c) : k + 1 ≤ (l.filter (c ≤ ·)).length := by
  unfold kthLargest at h
  set m := l.insertionSort (· ≥ ·) with hm
  have hperm : m.Perm l := perm_insertionSort _ l
  have hsort : m.Pairwise (· ≥ ·) := pairwise_insertionSort _ l
  obtain ⟨hk, hget⟩ := List.getElem?_eq_some_iff.1 h
  have htake : ∀ x ∈ m.take (k + 1), c ≤ x := by
    intro x hx
    obtain ⟨i, hi, rfl⟩ := getElem_of_mem hx
    rw [getElem_take, ← hget]
    simp only [length_take] at hi
    rcases Nat.lt_or_ge i k with hlt | hge
    · exact pairwise_iff_getElem.1 hsort i k (by omega) hk hlt
    · have hik : i = k := by omega
      subst hik; exact le_rfl
  calc k + 1 = (m.take (k + 1)).length := by rw [length_take]; omega
    _ = ((m.take (k + 1)).filter (c ≤ ·)).length := by
        rw [filter_eq_self.2 (fun x hx => decide_eq_true (htake x hx))]
    _ ≤ (m.filter (c ≤ ·)).length := ((take_sublist _ _).filter _).length_le
    _ = (l.filter (c ≤ ·)).length := (hperm.filter _).length_eq

lemma le_kthLargest {k x : ℕ} (h : k + 1 ≤ (l.filter (x ≤ ·)).length) :
    ∃ c, kthLargest k l = some c ∧ x ≤ c := by
  set m := l.insertionSort (· ≥ ·) with hm
  have hperm : m.Perm l := perm_insertionSort _ l
  have hsort : m.Pairwise (· ≥ ·) := pairwise_insertionSort _ l
  rw [← (hperm.filter _).length_eq] at h
  have hk : k < m.length := lt_of_lt_of_le h (length_filter_le _ _)
  refine ⟨m[k], getElem?_eq_getElem hk, ?_⟩
  by_contra hlt
  -- then no value from place `k` on reaches `x`
  have hdrop : (m.drop k).filter (x ≤ ·) = [] := by
    rw [filter_eq_nil_iff]
    intro v hv
    obtain ⟨i, hi, rfl⟩ := getElem_of_mem hv
    rw [getElem_drop]
    simp only [length_drop] at hi
    have hle : m[k + i] ≤ m[k] := by
      rcases Nat.eq_zero_or_pos i with rfl | hpos
      · exact le_rfl
      · exact pairwise_iff_getElem.1 hsort k (k + i) hk (by omega) (by omega)
    simp only [decide_eq_true_eq]
    omega
  have hlen : (m.filter (x ≤ ·)).length ≤ k := by
    conv_lhs => rw [← take_append_drop k m]
    rw [filter_append, hdrop, append_nil]
    exact (length_filter_le _ _).trans (length_take_le _ _)
  omega

lemma commitTo_spec (c : ℕ) :
    nd.commitTo c = nd ∨
    (nd.commitTo c = { nd with commitIndex := c } ∧ nd.commitIndex < c ∧
      (getTerm nd.log c = 0 ∨ nd.term ≤ getTerm nd.log c)) := by
  unfold commitTo
  dsimp only
  split_ifs with h1 h2
  · exact Or.inl rfl
  · exact Or.inr ⟨rfl, h1, by omega⟩
  · exact Or.inl rfl

lemma maybeAutoFinalizeJointLocked_spec :
    nd.maybeAutoFinalizeJointLocked = nd ∨
    (nd.configState = .joint ∧ nd.maybeAutoFinalizeJointLocked =
      { nd with log := append nd.log ⟨nd.term, 0,
        .configChange nd.jointConfig.newConfig⟩ true, jointFinalizeAppended := true }) := by
  unfold maybeAutoFinalizeJointLocked
  split_ifs with h1 h2 h3
  · exact Or.inl rfl
  · exact Or.inl rfl
  · exact Or.inl rfl
  · push Not at h1; exact Or.inr ⟨h1.1, rfl⟩

lemma maybeAutoFinalizeJointLocked_stable (hs : nd.configState = .stable) : nd.maybeAutoFinalizeJointLocked = nd := by
  rcases maybeAutoFinalizeJointLocked_spec nd with h | ⟨h, -⟩
  · exact h
  · rw [hs] at h; cases h

lemma maybeAutoFinalizeJointLocked_same : SameVote nd nd.maybeAutoFinalizeJointLocked := by
  rcases maybeAutoFinalizeJointLocked_spec nd with h | ⟨-, h⟩
  · rw [h]; exact SameVote.refl nd
  · rw [h]; exact .of_view rfl

/-! ## The handlers: no votes -/

lemma commitIndex_same (c : ℕ) : SameVote nd { nd with commitIndex := c } := .of_view rfl

section
variable [LawfulLog N C L]

variable (nd : RaftNode N C L) (lc : ℕ) (req : AppendEntriesRequest N C)

lemma commitFromLeader_same : SameVote nd (nd.commitFromLeader lc) := by
  unfold commitFromLeader
  split_ifs
  · exact (commitIndex_same nd _).trans (applyCommittedLogsLocked_applies _).same
  · exact SameVote.refl nd

lemma commitFromLeader_log : SameLog nd.log (nd.commitFromLeader lc).log ∧
    (nd.commitFromLeader lc).lastSnapshotIndex = nd.lastSnapshotIndex := by
  unfold commitFromLeader
  split_ifs
  · have h := applyCommittedLogsLocked_applies { nd with commitIndex := min lc (lastIndex nd.log) }
    exact ⟨h.log, h.snap⟩
  · exact ⟨SameLog.refl _, rfl⟩

lemma commitFromLeader_arrays : (nd.commitFromLeader lc).arrays = nd.arrays := by
  unfold commitFromLeader
  split_ifs
  · exact (applyCommittedLogsLocked_applies _).arrays
  · rfl

lemma onAppendEntries_spec :
    (req.term < nd.term ∧ nd.onAppendEntries req = (nd, ⟨nd.term, false, lastIndex nd.log⟩)) ∨
    (nd.term ≤ req.term ∧
      ((∃ hint, nd.onAppendEntries req = (nd.observe req.term, ⟨req.term, false, hint⟩)) ∨
       (req.prevLogIndex ≤ lastIndex nd.log ∧
        (0 < req.prevLogIndex → getTerm nd.log req.prevLogIndex = req.prevLogTerm) ∧
        ∃ log, (appendLoop nd.log (req.entries.take maxAppendBatch) = (log, true) ∧
            nd.onAppendEntries req = ({ nd.observe req.term with log := log }, ⟨req.term, false, lastIndex log⟩)) ∨
          (appendLoop nd.log (req.entries.take maxAppendBatch) = (log, false) ∧
            nd.onAppendEntries req =
              (({ nd.observe req.term with log := truncateTail log req.entries }).commitFromLeader req.leaderCommit,
                ⟨req.term, true, lastIndex (truncateTail log req.entries)⟩))))) := by
  by_cases h1 : req.term < nd.term
  · left; refine ⟨h1, ?_⟩; unfold onAppendEntries; rw [if_pos h1]
  refine Or.inr ⟨by omega, ?_⟩
  have hlog : (nd.observe req.term).log = nd.log := (observe_data nd req.term).log
  have hterm : (nd.observe req.term).term = req.term := by rw [observe_term]; omega
  unfold onAppendEntries
  rw [if_neg h1]
  simp only [← observe.eq_def nd req.term]
  rw [hlog, hterm]
  by_cases h2 : lastIndex nd.log < req.prevLogIndex
  · rw [if_pos h2]; exact Or.inl ⟨_, rfl⟩
  rw [if_neg h2]
  by_cases h3 : 0 < req.prevLogIndex ∧ getTerm nd.log req.prevLogIndex ≠ req.prevLogTerm
  · rw [if_pos h3]; exact Or.inl ⟨_, rfl⟩
  rw [if_neg h3]
  refine Or.inr ⟨by omega, fun h0 => by_contra fun hne => h3 ⟨h0, hne⟩, ?_⟩
  rcases happ : appendLoop nd.log (req.entries.take maxAppendBatch) with ⟨log, b⟩
  refine ⟨log, ?_⟩
  cases b with
  | true => exact Or.inl ⟨rfl, rfl⟩
  | false =>
    refine Or.inr ⟨rfl, Prod.ext rfl ?_⟩
    have hs := (commitFromLeader_same
      { nd.observe req.term with log := truncateTail log req.entries } req.leaderCommit).term.trans hterm
    exact congrArg (fun t => (⟨t, true, lastIndex (truncateTail log req.entries)⟩ : AppendEntriesResponse)) hs

lemma onAppendEntries_quiet : Quiet nd (nd.onAppendEntries req).1 := by
  have hq := (observe_kept nd req.term).quiet
  have hlog : ∀ log, SameVote (nd.observe req.term) { nd.observe req.term with log := log } :=
    fun log => .of_view rfl
  rcases onAppendEntries_spec nd req with ⟨-, h⟩ | ⟨-, ⟨hint, h⟩ | ⟨-, -, log, ⟨-, h⟩ | ⟨-, h⟩⟩⟩
  · rw [h]; exact Quiet.refl nd
  · rw [h]; exact hq
  · rw [h]; exact hq.trans (hlog log).quiet
  · rw [h]; exact hq.trans ((hlog _).trans (commitFromLeader_same _ _)).quiet

lemma onAppendEntries_arrays : (nd.onAppendEntries req).1.arrays = nd.arrays := by
  have hobs := (observe_kept nd req.term).arrays
  rcases onAppendEntries_spec nd req with ⟨-, h⟩ | ⟨-, ⟨hint, h⟩ | ⟨-, -, log, ⟨-, h⟩ | ⟨-, h⟩⟩⟩
  · rw [h]
  · rw [h]; exact hobs
  · rw [h]; exact hobs
  · rw [h]; exact (commitFromLeader_arrays _ _).trans hobs

lemma onHeartbeat_quiet (req : HeartbeatRequest N) : Quiet nd (nd.onHeartbeat req).1 := by
  unfold onHeartbeat
  split_ifs with h1 h2
  · exact Quiet.refl nd
  · dsimp only
    refine (becomeFollowerLocked_quiet nd req.term).trans ?_
    split_ifs
    · exact ((commitIndex_same (nd.becomeFollowerLocked req.term) _).trans
        (applyCommittedLogsLocked_applies _).same).quiet
    · exact Quiet.refl _
  · exact Quiet.refl nd

lemma onHeartbeat_arrays (req : HeartbeatRequest N) : (nd.onHeartbeat req).1.arrays = nd.arrays := by
  have hfollow := (becomeFollowerLocked_kept nd req.term).arrays
  unfold onHeartbeat
  split_ifs
  · rfl
  · dsimp only
    split_ifs
    · exact (applyCommittedLogsLocked_applies _).arrays.trans hfollow
    · exact hfollow
  · rfl

end

lemma onInstallSnapshot_quiet (req : InstallSnapshotRequest N C) : Quiet nd (nd.onInstallSnapshot req).1 := by
  unfold onInstallSnapshot
  by_cases h1 : req.term < nd.term
  · rw [if_pos h1]; exact Quiet.refl nd
  rw [if_neg h1]
  refine ((observe_kept nd req.term).quiet).trans (SameVote.quiet ?_)
  exact .of_view rfl

/-! ## The answers: no votes -/

variable [DecidableEq N] (ps : List (N × ℕ)) (isLoop : Bool)

lemma advanceCommitIndexLocked_eq :
    ∃ c, nd.advanceCommitIndexLocked = { nd with commitIndex := c } := by
  have hto : ∀ c, ∃ d, nd.commitTo c = { nd with commitIndex := d } := by
    intro c
    rcases commitTo_spec nd c with h | ⟨h, -⟩
    · exact ⟨nd.commitIndex, h⟩
    · exact ⟨c, h⟩
  unfold advanceCommitIndexLocked advanceCommitIndexJointLocked
  split
  · exact hto _
  · split
    · exact ⟨nd.commitIndex, rfl⟩
    · exact hto _

lemma advanceCommitIndexLocked_stable (hs : nd.configState = .stable) :
    nd.advanceCommitIndexLocked = nd ∨ ∃ c,
      kthLargest ((nd.clusterConfig.voters.ids.length + 1) / 2) (lastIndex nd.log :: nd.peerLastLogIndex) = some c ∧
      nd.advanceCommitIndexLocked = { nd with commitIndex := c } ∧ nd.commitIndex < c ∧
      (getTerm nd.log c = 0 ∨ nd.term ≤ getTerm nd.log c) := by
  cases hk : kthLargest ((nd.clusterConfig.voters.ids.length + 1) / 2) (lastIndex nd.log :: nd.peerLastLogIndex) with
  | none => left; simp only [advanceCommitIndexLocked, hs, hk]
  | some c =>
    have he : nd.advanceCommitIndexLocked = nd.commitTo c := by simp only [advanceCommitIndexLocked, hs, hk]
    rw [he]
    rcases commitTo_spec nd c with h | ⟨h, h1, h2⟩
    · exact Or.inl h
    · exact Or.inr ⟨c, rfl, h, h1, h2⟩

lemma commitAndApply_stable (hs : nd.configState = .stable) :
    nd.advanceCommitIndexLocked.maybeAutoFinalizeJointLocked.applyCommittedLogsLocked =
      nd.advanceCommitIndexLocked.applyCommittedLogsLocked := by
  obtain ⟨c, h⟩ := advanceCommitIndexLocked_eq nd
  rw [maybeAutoFinalizeJointLocked_stable _ (by rw [h]; exact hs)]

lemma advanceCommitIndexLocked_same : SameVote nd nd.advanceCommitIndexLocked := by
  obtain ⟨c, h⟩ := advanceCommitIndexLocked_eq nd
  rw [h]; exact commitIndex_same nd c

def refreshPeers (nd : RaftNode N C L) : RaftNode N C L :=
  { nd.resizePeerArraysLocked nd.getPeerIdsLocked.length with lastPeerIds := nd.getPeerIdsLocked }

lemma refreshPeers_only : OnlyPeers nd nd.refreshPeers :=
  ⟨.of_view rfl, .of_view rfl⟩

lemma foldl_recordHeartbeatAck_kept (nd : RaftNode N C L) :
    (ps.foldl recordHeartbeatAck nd).peerNextIndex = nd.peerNextIndex ∧
    (ps.foldl recordHeartbeatAck nd).transferCtx = nd.transferCtx := by
  induction ps generalizing nd with
  | nil => exact ⟨rfl, rfl⟩
  | cons p _ ih =>
    have hone : (nd.recordHeartbeatAck p).peerNextIndex = nd.peerNextIndex ∧
        (nd.recordHeartbeatAck p).transferCtx = nd.transferCtx := by
      unfold recordHeartbeatAck
      dsimp only
      split_ifs <;> exact ⟨rfl, rfl⟩
    exact ⟨(ih _).1.trans hone.1, (ih _).2.trans hone.2⟩

lemma recordHeartbeatAcks_only : OnlyPeers nd (nd.recordHeartbeatAcks ps) := by
  refine OnlyPeers.trans ?_ (foldl_recordHeartbeatAck_only ps _)
  exact ⟨.of_view rfl, .of_view rfl⟩

lemma transferTick_kept : Kept nd nd.transferTick.1 := by
  have hcheck : Kept nd nd.checkTransferTimeoutLocked := by
    unfold checkTransferTimeoutLocked
    split_ifs
    · exact cancelTransferLocked_kept nd
    · exact Kept.refl nd
  unfold transferTick
  split_ifs
  · dsimp only
    refine hcheck.trans ?_
    split_ifs
    · split
      · exact Kept.refl _
      · split_ifs
        · exact .of_view rfl rfl rfl
        · exact Kept.refl _
    · exact Kept.refl _
  · exact Kept.refl nd

lemma heartbeatFinish_spec (epoch ackCount : ℕ) (rspLastLog : List (N × ℕ)) (maxPeerTerm : ℕ) :
    (nd.heartbeatFinish isLoop epoch ackCount rspLastLog maxPeerTerm).1 = nd ∨
    (nd.term < maxPeerTerm ∧
      (nd.heartbeatFinish isLoop epoch ackCount rspLastLog maxPeerTerm).1 = nd.becomeFollowerLocked maxPeerTerm) ∨
    (¬ (isLoop ∧ nd.heartbeatEpoch ≠ epoch) ∧ nd.role = .leader ∧
      Kept (nd.recordHeartbeatAcks rspLastLog).advanceCommitIndexLocked
        (nd.heartbeatFinish isLoop epoch ackCount rspLastLog maxPeerTerm).1) := by
  unfold heartbeatFinish
  split_ifs with h1 h2 h3
  · exact Or.inl rfl
  · exact Or.inl rfl
  · exact Or.inr (Or.inl ⟨h3, rfl⟩)
  · refine Or.inr (Or.inr ⟨h1, not_not.1 h2, ?_⟩)
    generalize (nd.recordHeartbeatAcks rspLastLog).advanceCommitIndexLocked = mid
    dsimp only
    split_ifs
    · refine Kept.trans ?_ (transferTick_kept _)
      exact .of_view rfl rfl rfl
    · exact stepDownLocked_kept mid
    · exact transferTick_kept mid

lemma heartbeatFinish_quiet (epoch ackCount : ℕ) (rspLastLog : List (N × ℕ))
    (maxPeerTerm : ℕ) : Quiet nd (nd.heartbeatFinish isLoop epoch ackCount rspLastLog maxPeerTerm).1 := by
  rcases heartbeatFinish_spec nd isLoop epoch ackCount rspLastLog maxPeerTerm with h | ⟨-, h⟩ | ⟨-, -, h⟩
  · rw [h]; exact Quiet.refl nd
  · rw [h]; exact becomeFollowerLocked_quiet nd _
  · exact ((recordHeartbeatAcks_only nd rspLastLog).same.trans (advanceCommitIndexLocked_same _)).quiet.trans h.quiet

lemma replicateFinish_spec (currentTerm : ℕ) (rsps : List (PeerReq N C × PeerRsp)) :
    (nd.replicateFinish currentTerm rsps).1 = nd ∨
    (∃ t, nd.term < t ∧ (nd.replicateFinish currentTerm rsps).1 = nd.becomeFollowerLocked t) ∨
    (nd.role = .leader ∧ nd.term = currentTerm ∧ (nd.replicateFinish currentTerm rsps).1 =
    (rsps.foldl recordPeerRsp nd).advanceCommitIndexLocked.maybeAutoFinalizeJointLocked.applyCommittedLogsLocked) := by
  unfold replicateFinish
  dsimp only
  split_ifs with h1 h2
  · exact Or.inr (Or.inl ⟨_, h1, rfl⟩)
  · exact Or.inl rfl
  · push Not at h2; exact Or.inr (Or.inr ⟨h2.1, h2.2, rfl⟩)

section
variable [LawfulLog N C L]

lemma commitAndApply_same (nd : RaftNode N C L) :
    SameVote nd nd.advanceCommitIndexLocked.maybeAutoFinalizeJointLocked.applyCommittedLogsLocked :=
  (advanceCommitIndexLocked_same nd).trans
    ((maybeAutoFinalizeJointLocked_same _).trans (applyCommittedLogsLocked_applies _).same)

lemma commitAndApply_arrays (nd : RaftNode N C L) :
    nd.advanceCommitIndexLocked.maybeAutoFinalizeJointLocked.applyCommittedLogsLocked.arrays = nd.arrays := by
  obtain ⟨c, hc⟩ := advanceCommitIndexLocked_eq nd
  rw [(applyCommittedLogsLocked_applies _).arrays, hc]
  rcases maybeAutoFinalizeJointLocked_spec { nd with commitIndex := c } with h | ⟨-, h⟩
  · rw [h]; rfl
  · rw [h]; rfl

lemma replicateFinish_quiet (nd : RaftNode N C L) (currentTerm : ℕ) (rsps : List (PeerReq N C × PeerRsp)) :
    Quiet nd (nd.replicateFinish currentTerm rsps).1 := by
  rcases replicateFinish_spec nd currentTerm rsps with h | ⟨t, -, h⟩ | ⟨-, -, h⟩
  · rw [h]; exact Quiet.refl nd
  · rw [h]; exact becomeFollowerLocked_quiet nd t
  · rw [h]; exact ((foldl_recordPeerRsp_only rsps nd).same.trans (commitAndApply_same _)).quiet

lemma replicateAlone_quiet (nd : RaftNode N C L) : Quiet nd nd.replicateAlone := by
  unfold replicateAlone
  split_ifs
  · exact Quiet.refl nd
  · exact (commitAndApply_same nd).quiet

end

lemma buildPeerReq_id (id : N) (i : ℕ) : (nd.buildPeerReq id i).id = id ∧ (nd.buildPeerReq id i).idx = i := by
  unfold buildPeerReq
  dsimp only
  split_ifs <;> exact ⟨rfl, rfl⟩

lemma replicateStart_spec : nd.replicateStart = (nd, none) ∨
    (nd.role = .leader ∧ nd.replicateStart.1 = nd.refreshPeers ∧
      ∃ order : List ℕ, (∀ i ∈ order, i < nd.getPeerIdsLocked.length) ∧ nd.replicateStart.2 =
        some (nd.term, nd.clusterConfig.voters.ids.length / 2 + 1, lastIndex nd.log,
          order.filterMap (fun i => (nd.getPeerIdsLocked[i]?).map (fun id => nd.refreshPeers.buildPeerReq id i)))) := by
  unfold replicateStart
  split_ifs with h
  · exact Or.inl rfl
  · refine Or.inr ⟨not_not.1 h, rfl, nd.refreshPeers.sendOrder nd.getPeerIdsLocked.length, ?_, rfl⟩
    intro i hi
    simp only [sendOrder, mem_append, mem_filter, mem_range] at hi
    omega

lemma readIndexFinish_kept (currentTerm successCount maxPeerTerm : ℕ) :
    Kept nd (nd.readIndexFinish currentTerm successCount maxPeerTerm).1 := by
  unfold readIndexFinish
  split_ifs
  · exact becomeFollowerLocked_kept nd _
  · exact Kept.refl nd
  · exact Kept.refl nd
  · exact .of_view rfl rfl rfl

lemma readIndexStart_kept : Kept nd nd.readIndexStart.1 := by
  unfold readIndexStart
  split_ifs
  · exact Kept.refl nd
  · exact Kept.refl nd
  · exact .of_view rfl rfl rfl

lemma startTransfer_kept (target : N) : Kept nd (nd.startTransfer target).1 := by
  unfold startTransfer
  split_ifs
  · exact Kept.refl nd
  · exact .of_view rfl rfl rfl

lemma transferCheck_kept (target : N) : Kept nd (nd.transferCheck target).1 := by
  unfold transferCheck
  split_ifs
  · exact Kept.refl nd
  · exact .of_view rfl rfl rfl
  · exact .of_view rfl rfl rfl

lemma timeoutNowFinish_kept (accepted : Bool) : Kept nd (nd.timeoutNowFinish accepted) := by
  unfold timeoutNowFinish
  split_ifs
  · exact Kept.refl nd
  · exact Kept.refl nd
  · exact cancelTransferLocked_kept nd

lemma onTimeoutNow_kept (req : TimeoutNowRequest N) : Kept nd (nd.onTimeoutNow req).1 := by
  unfold onTimeoutNow
  split_ifs
  · exact Kept.refl nd
  · exact becomeFollowerLocked_kept nd _
  · exact Kept.refl nd

lemma submitAppend_spec (command : Command N C) :
    nd.submitAppend command = (nd, none) ∨
    (nd.role = .leader ∧ nd.submitAppend command =
      ({ nd with log := append nd.log ⟨nd.term, 0, command⟩ false },
        some (lastIndex (append nd.log ⟨nd.term, 0, command⟩ false)))) := by
  unfold submitAppend
  split_ifs with h
  · exact Or.inl rfl
  · exact Or.inr ⟨not_not.1 h, rfl⟩

lemma beginConfigChange_quiet (target : ClusterConfig N) : Quiet nd (nd.beginConfigChange target).1 := by
  unfold beginConfigChange
  split_ifs
  · exact Quiet.refl nd
  · split
    · dsimp only
      split_ifs
      · exact Quiet.refl nd
      · exact SameVote.quiet (.of_view rfl)
    · exact SameVote.quiet (.of_view rfl)

lemma createSnapshotIfNeeded_same : SameVote nd nd.createSnapshotIfNeeded := by
  unfold createSnapshotIfNeeded createSnapshot
  dsimp only
  split_ifs <;> exact .of_view rfl

end MaxRedis.Raft.RaftNode

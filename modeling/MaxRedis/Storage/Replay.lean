/-
A node crashes and starts again: the recovered state machine against the entries the node has appended.

The node runs in a cluster on `SegmentLogStorage`, applies what is committed, writes `apply.meta` and takes snapshots.
-/
import MaxRedis.Raft.Restart
import MaxRedis.Storage.Compaction
import MaxRedis.Storage.Durability

namespace MaxRedis.Storage

open Bytes Raft WalEntry RaftNode List

variable {N C : Type} [DecidableEq N] [CommandText N C]

abbrev DiskNode (N C : Type) : Type := RaftNode N C (SegmentLog (LogEntry N C))

abbrev DiskCluster (N C : Type) : Type := Cluster N C (SegmentLog (LogEntry N C))

/-! ## What a node has of its log -/

structure Recoverable (nd : DiskNode N C) (gs : List (Segment (LogEntry N C))) (d : ℕ) (w : List (LogEntry N C)) :
    Prop where
  kept : Kept nd.log gs d w
  base : nd.log.baseIndex ≤ nd.lastApplied
  applied : nd.lastApplied ≤ w.length
  sm : nd.stateMachine = (w.take nd.lastApplied).filter isClient
  snap : nd.snapshotMeta.index = nd.log.baseIndex
  bin : 0 < nd.log.baseIndex → nd.snapshotBin = some ((w.take nd.log.baseIndex).filter isClient)

structure Forward (nd nd' : DiskNode N C) (w w' : List (LogEntry N C)) : Prop where
  base : nd'.log.baseIndex = nd.log.baseIndex
  applied : nd.lastApplied ≤ nd'.lastApplied
  agree : w'.take nd.lastApplied = w.take nd.lastApplied

section Moves
variable {nd nd' mid : DiskNode N C} {gs gs' : List (Segment (LogEntry N C))} {d : ℕ} {w w' v : List (LogEntry N C)}

lemma Forward.refl (nd : DiskNode N C) (w : List (LogEntry N C)) : Forward nd nd w w := ⟨rfl, le_rfl, rfl⟩

lemma take_of_take {α : Type} {xs ys : List α} {a b : ℕ} (hab : a ≤ b) (h : xs.take b = ys.take b) :
    xs.take a = ys.take a := by
  have := congrArg (take a) h
  rwa [take_take, take_take, min_eq_left hab] at this

lemma Forward.trans (h : Forward nd mid w v) (k : Forward mid nd' v w') : Forward nd nd' w w' :=
  ⟨k.base.trans h.base, h.applied.trans k.applied, (take_of_take h.applied k.agree).trans h.agree⟩

variable {l : SegmentLog (LogEntry N C)}

lemma Recoverable.relog (h : Recoverable nd gs d w) (hk : Kept l gs' d w')
    (hb : l.baseIndex = nd.log.baseIndex) (ha : nd.lastApplied ≤ w'.length)
    (ht : w'.take nd.lastApplied = w.take nd.lastApplied) :
    Recoverable { nd with log := l } gs' d w' ∧ Forward nd { nd with log := l } w w' := by
  have hbase : l.baseIndex ≤ nd.lastApplied := hb.le.trans h.base
  refine ⟨⟨hk, hbase, ha, ?_, h.snap.trans hb.symm, fun hpos => ?_⟩, hb, le_rfl, ht⟩
  · rw [ht]; exact h.sm
  · have hpos' : 0 < nd.log.baseIndex := by rw [← hb]; exact hpos
    rw [hb, take_of_take h.base ht]
    exact h.bin hpos'

lemma serves_kept (h : Kept l gs d w) : Serves (fun l' => l' = l) l.baseIndex w where
  flush l' hl := by subst hl; exact h.flush_eq
  last l' hl := by subst hl; exact h.last
  range l' hl i k hi hk := by subst hl; exact h.getRange hi hk
  index := h.numbered

lemma Recoverable.apply (h : Recoverable nd gs d w) :
    Recoverable nd.applyCommittedLogsLocked gs d w ∧ Forward nd nd.applyCommittedLogsLocked w w := by
  have happ := applyCommittedLogsLocked_applies nd
  obtain ⟨hlog, hla, hsm⟩ := applyLoop_eq (serves_kept h.kept) (nd.commitIndex + 1) nd rfl h.base (by omega)
  have hmeta := applyLoop_snapshotMeta (nd.commitIndex + 1) nd
  change nd.applyCommittedLogsLocked.log = nd.log at hlog
  change nd.applyCommittedLogsLocked.lastApplied = _ at hla
  change nd.applyCommittedLogsLocked.stateMachine = _ at hsm
  change nd.applyCommittedLogsLocked.snapshotMeta = _ at hmeta
  have hle := h.applied
  have hge : nd.lastApplied ≤ nd.applyCommittedLogsLocked.lastApplied := by rw [hla]; exact le_max_left _ _
  refine ⟨⟨by rw [hlog]; exact h.kept, by rw [hlog]; exact h.base.trans hge, by rw [hla]; omega, ?_,
    by rw [hmeta, hlog]; exact h.snap, by rw [hlog, happ.bin]; exact h.bin⟩, by rw [hlog], hge, rfl⟩
  rw [← hla] at hsm
  calc nd.applyCommittedLogsLocked.stateMachine
      = (w.take nd.lastApplied).filter isClient ++
          ((w.take nd.applyCommittedLogsLocked.lastApplied).drop nd.lastApplied).filter isClient := by rw [hsm, h.sm]
    _ = (w.take nd.lastApplied ++ (w.take nd.applyCommittedLogsLocked.lastApplied).drop nd.lastApplied).filter
      isClient := by
        rw [filter_append]
    _ = (w.take nd.applyCommittedLogsLocked.lastApplied).filter isClient := by
        have htake : w.take nd.lastApplied = (w.take nd.applyCommittedLogsLocked.lastApplied).take nd.lastApplied := by
          rw [take_take, min_eq_left hge]
        rw [htake, take_append_drop]

lemma settle_recoverable (hm : Settle nd nd') (h : Recoverable nd gs d w) :
    Recoverable nd' gs d w ∧ Forward nd nd' w w := by
  cases hm with
  | keep hs =>
    refine ⟨⟨by rw [hs.log]; exact h.kept, by rw [hs.log, hs.applied]; exact h.base,
      by rw [hs.applied]; exact h.applied,
      by rw [hs.sm, hs.applied]; exact h.sm, by rw [hs.snapMeta, hs.log]; exact h.snap, ?_⟩, by rw [hs.log],
        hs.applied.ge, rfl⟩
    rw [hs.log, hs.bin]; exact h.bin
  | commit => exact ⟨⟨h.kept, h.base, h.applied, h.sm, h.snap, h.bin⟩, rfl, le_rfl, rfl⟩
  | persist =>
    have hp : LogStorage.persist nd.log = nd.log := h.kept.persist_eq
    rw [hp]
    exact ⟨h, Forward.refl nd w⟩
  | apply => exact h.apply

lemma move_recoverable (hm : Move nd nd') (h : Recoverable nd gs d w) :
    ∃ gs' w', Recoverable nd' gs' d w' ∧ Forward nd nd' w w' := by
  cases hm with
  | settle hm => exact ⟨gs, w, settle_recoverable hm h⟩
  | append e f =>
    obtain ⟨gs', hk, hb⟩ := h.kept.append e f
    refine ⟨gs', _, h.relog hk hb ?_ ?_⟩
    · rw [length_append]; exact h.applied.trans (Nat.le_add_right _ _)
    · rw [take_append_of_le_length h.applied]

lemma moves_recoverable (hm : Moves nd nd') (h : Recoverable nd gs d w) :
    ∃ gs' w', Recoverable nd' gs' d w' ∧ Forward nd nd' w w' := by
  induction hm with
  | refl => exact ⟨gs, w, h, Forward.refl nd w⟩
  | tail _ hlast ih =>
    obtain ⟨gs1, w1, h1, f1⟩ := ih
    obtain ⟨gs2, w2, h2, f2⟩ := move_recoverable hlast h1
    exact ⟨gs2, w2, h2, f1.trans f2⟩

/-! ## AppendEntries and snapshots -/

lemma Kept.cut (h : Kept l gs d w) {n : ℕ} (hn : l.baseIndex = 0 ∨ l.baseIndex < n) (hw : n ≤ w.length) :
    ∃ gs', Kept (l.truncateFrom n) gs' d (w.take n) ∧ (l.truncateFrom n).baseIndex = l.baseIndex := by
  rcases Nat.lt_or_ge l.baseIndex n with hlt | hge
  · exact h.truncate hlt hw
  · have hb : l.baseIndex = 0 := hn.resolve_right (Nat.not_lt.2 hge)
    have hn0 : n = 0 := by omega
    have hd : d = 0 := by have := h.dropped; omega
    subst hn0 hd
    rw [SegmentLog.truncateFrom, if_pos hge, hb, take_zero]
    exact ⟨[], h.clear⟩

lemma appendLoop_kept (es : List (LogEntry N C)) (h : Kept l gs d w) {a : ℕ}
    (ha : a ≤ w.length) (hinc : es.Pairwise (fun x y => x.index < y.index))
    (hes : ∀ e ∈ es, e.index ≤ w.length → (l.get e.index).map LogEntry.term = some e.term ∨
      (a < e.index ∧ (l.baseIndex = 0 ∨ l.baseIndex + 1 < e.index))) :
    ∃ gs' w', Kept (appendLoop l es).1 gs' d w' ∧ (appendLoop l es).1.baseIndex = l.baseIndex ∧ a ≤ w'.length ∧
      w'.take a = w.take a := by
  induction es generalizing l gs w with
  | nil => exact ⟨gs, w, h, rfl, ha, rfl⟩
  | cons e es ih =>
    obtain ⟨hlt, hinc⟩ := pairwise_cons.1 hinc
    have hlast : LogStorage.lastIndex l = w.length := h.last
    -- after an append of `e` the remaining entries are all beyond the log
    have happ : ∀ {l1 : SegmentLog (LogEntry N C)} {gs1 w1}, Kept l1 gs1 d w1 → l1.baseIndex = l.baseIndex →
      a ≤ w1.length →
        w1.take a = w.take a → w1.length + 1 = e.index →
        ∃ gs' w', Kept (appendLoop (LogStorage.append l1 e true) es).1 gs' d w' ∧
          (appendLoop (LogStorage.append l1 e true) es).1.baseIndex = l.baseIndex ∧ a ≤ w'.length ∧
          w'.take a = w.take a := by
      intro l1 gs1 w1 h1 hb1 ha1 ht1 hlen
      obtain ⟨gs2, h2, hb2⟩ := h1.append e true
      have ha2 : a ≤ (w1 ++ [withIndex e (w1.length + 1)]).length := by
        rw [length_append]; exact ha1.trans (Nat.le_add_right _ _)
      have hbeyond : ∀ x ∈ es, ¬ x.index ≤ (w1 ++ [withIndex e (w1.length + 1)]).length := by
        intro x hx
        have := hlt x hx
        rw [length_append, length_singleton]
        omega
      obtain ⟨gs', w', h3, hb3, ha3, ht3⟩ := ih h2 ha2 hinc (fun x hx hle => absurd hle (hbeyond x hx))
      refine ⟨gs', w', h3, hb3.trans (hb2.trans hb1), ha3, ht3.trans ?_⟩
      rw [take_append_of_le_length ha1, ht1]
    rw [appendLoop, hlast]
    by_cases hin : e.index ≤ w.length
    · rw [if_pos hin]
      by_cases hterm : (LogStorage.get l e.index).map LogEntry.term = some e.term
      · rw [if_pos hterm]
        exact ih h ha hinc (fun x hx => hes x (mem_cons_of_mem _ hx))
      · rw [if_neg hterm]
        obtain ⟨hgt, hbase⟩ := (hes e mem_cons_self hin).resolve_left hterm
        obtain ⟨gs1, h1, hb1⟩ := h.cut (n := e.index - 1) (hbase.imp_right (fun hlt' => by omega)) (by omega)
        refine happ h1 hb1 ?_ ?_ ?_
        · rw [length_take]; omega
        · rw [take_take, min_eq_left (by omega)]
        · rw [length_take]; omega
    · rw [if_neg hin]
      by_cases hnext : e.index = w.length + 1
      · rw [if_pos hnext]
        exact happ h rfl ha rfl hnext.symm
      · rw [if_neg hnext]
        exact ⟨gs, w, h, rfl, ha, rfl⟩

omit [DecidableEq N] in
lemma truncateTail_kept (h : Kept l gs d w) {a : ℕ} (ha : a ≤ w.length)
    {es : List (LogEntry N C)} (hes : ∀ last, es.getLast? = some last → a ≤ last.index ∧ l.baseIndex < last.index) :
    ∃ gs' w', Kept (truncateTail l es) gs' d w' ∧ (truncateTail l es).baseIndex = l.baseIndex ∧ a ≤ w'.length ∧
      w'.take a = w.take a := by
  unfold truncateTail
  split
  · exact ⟨gs, w, h, rfl, ha, rfl⟩
  · rename_i last hl
    obtain ⟨hal, hbl⟩ := hes last hl
    have hlast : LogStorage.lastIndex l = w.length := h.last
    rw [hlast]
    split_ifs with hcut
    · obtain ⟨gs', h', hb'⟩ := h.truncate hbl hcut.le
      refine ⟨gs', _, h', hb', ?_, ?_⟩
      · rw [length_take]; omega
      · rw [take_take, min_eq_left hal]
    · exact ⟨gs, w, h, rfl, ha, rfl⟩

/-- an AppendEntries request that leaves what the node has applied: its entries are numbered upwards from above the
base; each is beyond the log, or is one of the log, or replaces an entry that has not been applied and is not the first
one after a compaction; and the last one is not below what has been applied -/
def leavesApplied (nd : DiskNode N C) (req : AppendEntriesRequest N C) : Bool :=
  decide (req.entries.Pairwise (fun x y => x.index < y.index)) &&
  req.entries.all (fun e => nd.log.baseIndex < e.index &&
    (nd.log.lastIndex < e.index || ((nd.log.get e.index).map LogEntry.term == some e.term) ||
      (nd.lastApplied < e.index && (nd.log.baseIndex == 0 || nd.log.baseIndex + 1 < e.index)))) &&
  req.entries.getLast?.all (fun last => nd.lastApplied ≤ last.index)

lemma observe_recoverable (h : Recoverable nd gs d w) (t : ℕ) :
    Recoverable (nd.observe t) gs d w ∧ Forward nd (nd.observe t) w w :=
  settle_recoverable (.keep (observe_data nd t).sameState) h

lemma onAppendEntries_recoverable (h : Recoverable nd gs d w) (req : AppendEntriesRequest N C)
    (hok : nd.term ≤ req.term → leavesApplied nd req = true) :
    ∃ gs' w', Recoverable (nd.onAppendEntries req).1 gs' d w' ∧ Forward nd (nd.onAppendEntries req).1 w w' := by
  obtain ⟨hobs, fobs⟩ := observe_recoverable h req.term
  have hdata := observe_data nd req.term
  rcases onAppendEntries_spec nd req with ⟨-, heq⟩ | ⟨hterm, hcases⟩
  · rw [heq]; exact ⟨gs, w, h, Forward.refl nd w⟩
  have hleaves := hok hterm
  simp only [leavesApplied, Bool.and_eq_true, decide_eq_true_eq, all_eq_true, Bool.or_eq_true,
    beq_iff_eq] at hleaves
  obtain ⟨⟨hinc, hes⟩, hend⟩ := hleaves
  have hlast : nd.log.lastIndex = w.length := h.kept.last
  -- the log after the loop has all that was applied
  obtain ⟨gs1, w1, h1, hb1, ha1, ht1⟩ := appendLoop_kept (req.entries.take maxAppendBatch) h.kept h.applied
    (hinc.sublist (take_sublist _ _)) (fun e he hle => by
      obtain ⟨-, (hgt | hsame) | hnew⟩ := hes e (mem_of_mem_take he)
      · rw [hlast] at hgt; exact absurd hle (Nat.not_le.2 hgt)
      · exact Or.inl hsame
      · exact Or.inr hnew)
  rcases hcases with ⟨hint, heq⟩ | ⟨-, -, log, ⟨hl, heq⟩ | ⟨hl, heq⟩⟩
  · rw [heq]; exact ⟨gs, w, hobs, fobs⟩
  · rw [hl] at h1 hb1
    rw [heq]
    have hset := hobs.relog h1
      (by rw [hdata.log]; exact hb1) (by rw [hdata.applied]; exact ha1) (by rw [hdata.applied]; exact ht1)
    exact ⟨gs1, w1, hset.1, fobs.trans hset.2⟩
  · rw [hl] at h1 hb1
    have hkept : ∀ last, req.entries.getLast? = some last → nd.lastApplied ≤ last.index ∧
      log.baseIndex < last.index := by
      intro last hlast'
      rw [hlast'] at hend
      refine ⟨by simpa using hend, ?_⟩
      rw [hb1]
      exact (hes last (mem_of_getLast? hlast')).1
    obtain ⟨gs2, w2, h2, hb2, ha2, ht2⟩ := truncateTail_kept h1 ha1 hkept
    rw [heq]
    have hset := hobs.relog h2 (by rw [hdata.log]; exact hb2.trans hb1) (by rw [hdata.applied]; exact ha2)
      (by rw [hdata.applied]; exact ht2.trans ht1)
    obtain ⟨hset, fset⟩ := hset
    unfold commitFromLeader
    split_ifs
    · -- the commit index is not part of what is kept
      have hcommit : Recoverable { nd.observe req.term with
          log := truncateTail log req.entries,
            commitIndex := min req.leaderCommit (LogStorage.lastIndex (truncateTail log req.entries)) }
          gs2 d w2 := ⟨hset.kept, hset.base, hset.applied, hset.sm, hset.snap, hset.bin⟩
      obtain ⟨happ, fapp⟩ := hcommit.apply
      have fcommit : Forward nd { nd.observe req.term with
          log := truncateTail log req.entries,
            commitIndex := min req.leaderCommit (LogStorage.lastIndex (truncateTail log req.entries)) }
          w w2 := ⟨(fobs.trans fset).base, (fobs.trans fset).applied, (fobs.trans fset).agree⟩
      exact ⟨gs2, w2, happ, fcommit.trans fapp⟩
    · exact ⟨gs2, w2, hset, fobs.trans fset⟩

omit [DecidableEq N] in
lemma createSnapshotIfNeeded_recoverable (h : Recoverable nd gs d w)
    (hok : 0 < nd.lastApplied ∨ nd.log.lastIndex < nd.snapshotMeta.index + nd.logGap ∨ nd.log.lastIndex = 0) :
    ∃ gs' d', Recoverable nd.createSnapshotIfNeeded gs' d' w := by
  have hlast : LogStorage.lastIndex nd.log = w.length := h.kept.last
  have happlied := h.applied
  by_cases hdue : LogStorage.lastIndex nd.log < nd.snapshotMeta.index + nd.logGap
  · unfold createSnapshotIfNeeded
    rw [if_pos hdue]
    exact ⟨gs, d, h⟩
  have hbound : (if 0 < nd.lastApplied then min nd.lastApplied (LogStorage.lastIndex nd.log) else
      LogStorage.lastIndex nd.log) =
      nd.lastApplied := by
    rw [hlast]
    rcases hok with hpos | hnot | h0
    · rw [if_pos hpos, min_eq_left happlied]
    · exact absurd hnot hdue
    · have hw : w.length = 0 := hlast.symm.trans h0
      rw [if_neg (by omega)]; omega
  obtain ⟨gs', d', hk, hb, -⟩ := h.kept.compact
    (if nd.lastApplied =
    LogStorage.lastIndex nd.log then LogStorage.lastTerm nd.log else LogStorage.getTerm nd.log nd.lastApplied)
    h.base happlied
  have hsnap : nd.createSnapshot nd.lastApplied = { nd with
      snapshotBin := some nd.stateMachine
      snapshotMeta := ⟨nd.lastApplied, if nd.lastApplied = LogStorage.lastIndex nd.log then LogStorage.lastTerm nd.log
        else LogStorage.getTerm nd.log nd.lastApplied⟩
      log := nd.log.compactLogs nd.lastApplied
        (if nd.lastApplied = LogStorage.lastIndex nd.log then LogStorage.lastTerm nd.log
        else LogStorage.getTerm nd.log nd.lastApplied) } := by
    unfold createSnapshot
    dsimp only
    rw [hbound]
    rfl
  have hnew : Recoverable (nd.createSnapshot nd.lastApplied) gs' d' w := by
    rw [hsnap]
    refine ⟨hk, hb.le, happlied, h.sm, hb.symm, fun _ => ?_⟩
    rw [hb, h.sm]
  refine ⟨gs', d', ?_⟩
  unfold createSnapshotIfNeeded
  rw [if_neg hdue]
  dsimp only
  split_ifs
  · exact ⟨hnew.kept, hnew.base, hnew.applied, hnew.sm, hnew.snap, hnew.bin⟩
  · exact hnew

end Moves

/-! ## Runs -/

/-- the log that `w` becomes: what has been compacted, then what is in memory -/
def SegmentLog.history (l : SegmentLog (LogEntry N C)) (w : List (LogEntry N C)) : List (LogEntry N C) :=
  w.take l.baseIndex ++ l.entries

def fullLog (n : N) :
    List (LogEntry N C) → DiskCluster N C → List (Action N C (SegmentLog (LogEntry N C))) → List (LogEntry N C)
  | w, _, [] => w
  | w, s, a :: as => fullLog n (((s.step a).nodes n).log.history w) (s.step a) as

/-- the steps after which node `n` can be recovered: no snapshot before the first apply of a log that has entries,
requests that leave what has been applied, no installed snapshot and no earlier restart -/
def recovers (n : N) (s : DiskCluster N C) (a : Action N C (SegmentLog (LogEntry N C))) : Bool :=
  let nd := s.nodes n
  match s.delivered a with
  | some (dst, .appendEntries req) => dst ≠ n || req.term < nd.term || leavesApplied nd req
  | some (dst, .installSnapshot req) => dst ≠ n || req.term < nd.term
  | _ =>
    match a with
    | .call m .createSnapshotIfNeeded =>
      m ≠ n || 0 < nd.lastApplied || nd.log.lastIndex < nd.snapshotMeta.index + nd.logGap || nd.log.lastIndex = 0
    | .restart m _ => m ≠ n
    | _ => true

section Runs
variable {n : N} {s : DiskCluster N C} {a : Action N C (SegmentLog (LogEntry N C))}
variable {gs : List (Segment (LogEntry N C))} {d : ℕ} {w : List (LogEntry N C)}

omit [DecidableEq N] in
lemma Recoverable.history_eq {nd nd' : DiskNode N C} {gs' : List (Segment (LogEntry N C))} {d' : ℕ}
    {w' : List (LogEntry N C)} (h : Recoverable nd gs d w) (h' : Recoverable nd' gs' d' w') (hf : Forward nd nd' w w') :
      nd'.log.history w = w' := by
  have htake : w.take nd'.log.baseIndex = w'.take nd'.log.baseIndex := by
    rw [hf.base]
    exact (take_of_take h.base hf.agree).symm
  rw [SegmentLog.history, htake, h'.kept.entries, take_append_drop]

lemma step_recoverable (hok : recovers n s a = true) (h : Recoverable (s.nodes n) gs d w) :
    ∃ gs' d', Recoverable ((s.step a).nodes n) gs' d' (((s.step a).nodes n).log.history w) := by
  generalize hnd : (s.step a).nodes n = nd'
  have hstep := Cluster.step_nodeStep s a n
  rw [hnd] at hstep
  cases hstep with
  | turn ht =>
    obtain ⟨gs', w', h', hf⟩ := moves_recoverable ht.moves h
    rw [h.history_eq h' hf]
    exact ⟨gs', d, h'⟩
  | adopt req hd heq =>
    simp only [recovers, hd, Bool.or_eq_true, decide_eq_true_eq] at hok
    obtain ⟨gs', w', h', hf⟩ := onAppendEntries_recoverable h req (fun hterm => by
      rcases hok with (hne | hlt) | hext
      · exact absurd rfl hne
      · exact absurd hterm (Nat.not_le.2 hlt)
      · exact hext)
    rw [heq, h.history_eq h' hf]
    exact ⟨gs', d, h'⟩
  | install req hd heq =>
    simp only [recovers, hd, Bool.or_eq_true, decide_eq_true_eq] at hok
    have hlt : req.term < (s.nodes n).term := hok.resolve_left (fun hne => hne rfl)
    have hsame : nd' = s.nodes n := by
      rw [heq]
      unfold onInstallSnapshot
      rw [if_pos hlt]
    rw [hsame, h.history_eq h (Forward.refl _ w)]
    exact ⟨gs, d, h⟩
  | snapshot ha heq =>
    subst ha
    simp only [recovers, Cluster.delivered, Bool.or_eq_true, decide_eq_true_eq] at hok
    obtain ⟨gs', d', h'⟩ := createSnapshotIfNeeded_recoverable h (by
      rcases hok with ((hne | hpos) | hnot) | h0
      · exact absurd rfl hne
      · exact Or.inl hpos
      · exact Or.inr (Or.inl hnot)
      · exact Or.inr (Or.inr h0))
    refine ⟨gs', d', ?_⟩
    rw [heq, SegmentLog.history, h'.kept.entries, take_append_drop]
    exact h'
  | restart _ ha => subst ha; simp [recovers, Cluster.delivered] at hok

lemma run_recoverable (as : List (Action N C (SegmentLog (LogEntry N C))))
    (hok : Cluster.along (recovers n) s as = true) (h : Recoverable (s.nodes n) gs d w) :
    ∃ gs' d', Recoverable ((Cluster.run s as).nodes n) gs' d' (fullLog n w s as) := by
  induction as generalizing s gs d w with
  | nil => exact ⟨gs, d, h⟩
  | cons _ _ ih =>
    simp only [Cluster.along, Bool.and_eq_true] at hok
    obtain ⟨gs1, d1, h1⟩ := step_recoverable hok.1 h
    exact ih hok.2 h1

end Runs

/-! ## The restart -/

section Restart
variable {l : SegmentLog (LogEntry N C)} {d i : ℕ} {w : List (LogEntry N C)}

structure InMemory (l : SegmentLog (LogEntry N C)) (b : ℕ) (w : List (LogEntry N C)) : Prop where
  base : l.baseIndex = b
  entries : l.entries = w.drop b
  last : l.lastIndex = w.length

omit [DecidableEq N] in
lemma serves_inMemory {b : ℕ} (hw : ∀ i e, w[i]? = some e → index e = i + 1) :
    Serves (fun l : SegmentLog (LogEntry N C) => InMemory l b w) b w where
  flush l hl :=
    have h := SegmentLog.flush_same l
    ⟨h.base.trans hl.base, h.entries.trans hl.entries, h.last.trans hl.last⟩
  last l hl := hl.last
  range l hl i k hi hk :=
  SegmentLog.getRange_of (by rw [hl.base]; exact hl.entries) hl.last (by rw [hl.base]; exact hi) hk
  index := hw

omit [DecidableEq N] in
lemma dropWhile_numbered (hw : ∀ i e, w[i]? = some e → index e = i + 1) (hdi : d ≤ i) :
    (w.drop d).dropWhile (fun e => index e ≤ i) = w.drop i := by
  induction hk : i - d generalizing d with
  | zero =>
    have hd : d = i := by omega
    subst hd
    rcases Nat.lt_or_ge d w.length with hlt | hge
    · have hidx := hw d w[d] (getElem?_eq_getElem hlt)
      rw [drop_eq_getElem_cons hlt, dropWhile_cons, if_neg (by rw [hidx]; simp)]
    · rw [drop_eq_nil_of_le hge]; rfl
  | succ _ ih =>
    rcases Nat.lt_or_ge d w.length with hlt | hge
    · have hidx := hw d w[d] (getElem?_eq_getElem hlt)
      rw [drop_eq_getElem_cons hlt, dropWhile_cons, if_pos (by rw [hidx]; simp; omega)]
      exact ih (by omega) (by omega)
    · rw [drop_eq_nil_of_le hge, drop_eq_nil_of_le (by omega)]; rfl

lemma Kept.Reopened.pruned (h : Kept.Reopened l d w) (hw : ∀ i e, w[i]? = some e → index e = i + 1) (hdi : d ≤ i)
    (hpos : 0 < i) (t : ℕ) : ((l.setSnapshotAnchor i t).pruneCompacted).lastIndex ≤ i ∨
    InMemory ((l.setSnapshotAnchor i t).pruneCompacted) i w := by
  have hlast : ∀ x : SegmentLog (LogEntry N C), x.pruneCompacted.lastIndex = x.lastIndex := by
    intro x
    unfold SegmentLog.pruneCompacted
    split_ifs
    · rfl
    · split
      · rfl
      · rfl
      · split_ifs <;> rfl
  rcases Nat.lt_or_ge i w.length with hlt | hge
  · right
    have hd : d < w.length := by omega
    have hl : l.lastIndex = w.length := by rw [h.last, if_neg (by omega)]
    have hentries : l.entries = w[d] :: w.drop (d + 1) := by rw [h.entries, drop_eq_getElem_cons hd]
    have hidx := hw d w[d] (getElem?_eq_getElem hd)
    have hrest : l.entries.dropWhile (fun e => index e ≤ i) = w[i] :: w.drop (i + 1) := by
      rw [h.entries, dropWhile_numbered hw hdi, drop_eq_getElem_cons hlt]
    refine ⟨?_, ?_, (hlast _).trans hl⟩
    · unfold SegmentLog.pruneCompacted SegmentLog.setSnapshotAnchor
      dsimp only
      rw [if_neg (by omega), hrest, hentries]
      dsimp only
      split_ifs with hle
      · rfl
      · rw [hidx] at hle
        rw [h.base hd]; omega
    · unfold SegmentLog.pruneCompacted SegmentLog.setSnapshotAnchor
      dsimp only
      rw [if_neg (by omega), hrest, hentries]
      dsimp only
      split_ifs with hle
      · exact (drop_eq_getElem_cons hlt).symm
      · rw [hidx] at hle
        have hdi' : d = i := by omega
        subst hdi'
        exact (drop_eq_getElem_cons hd).symm
  · left
    rw [hlast]
    show l.lastIndex ≤ i
    rw [h.last]
    split_ifs <;> omega

lemma replay_applied (nd : DiskNode N C) (hw : ∀ i e, w[i]? = some e → index e = i + 1)
    (hi : nd.lastApplied ≤ w.length) (hsm : nd.stateMachine = (w.take nd.lastApplied).filter isClient)
    (hlog : nd.log.lastIndex ≤ nd.lastApplied ∨ InMemory nd.log nd.lastApplied w) :
    nd.replayUnappliedLogs.lastApplied ≤ w.length ∧
    nd.replayUnappliedLogs.stateMachine = (w.take nd.replayUnappliedLogs.lastApplied).filter isClient := by
  unfold replayUnappliedLogs
  dsimp only
  split_ifs with hidle hpeers
  · exact ⟨hi, hsm⟩
  · exact ⟨hi, hsm⟩
  · have hmem : InMemory nd.log nd.lastApplied w := hlog.resolve_left hidle
    have hlast : LogStorage.lastIndex nd.log = w.length := hmem.last
    obtain ⟨-, hla, hout⟩ :=
      applyLoop_eq (serves_inMemory hw) (w.length + 1) { nd with commitIndex := w.length } hmem le_rfl
      (by simp only; omega)
    have hmax : max nd.lastApplied (min w.length w.length) = w.length := by rw [min_self, max_eq_right hi]
    simp only [hmax] at hla hout
    rw [hlast]
    have happ : ({ nd with commitIndex := w.length } : DiskNode N C).applyCommittedLogsLocked =
        applyLoop (w.length + 1) { nd with commitIndex := w.length } := rfl
    rw [happ, hla, hout, hsm, take_length, ← filter_append, take_append_drop]
    exact ⟨le_rfl, rfl⟩

lemma replay_gap (nd : DiskNode N C) (hgap : nd.lastApplied + 1 < nd.log.firstIndex) :
    nd.replayUnappliedLogs.lastApplied = nd.lastApplied ∧ nd.replayUnappliedLogs.stateMachine = nd.stateMachine := by
  have hrange : ∀ k, LogStorage.getRange nd.log (nd.lastApplied + 1) k = [] := by
    intro k
    show SegmentLog.getRange _ _ _ = []
    unfold SegmentLog.getRange
    rw [if_pos (Or.inl hgap)]
  unfold replayUnappliedLogs
  dsimp only
  split_ifs
  · exact ⟨rfl, rfl⟩
  · exact ⟨rfl, rfl⟩
  · unfold applyCommittedLogsLocked
    simp only [applyLoop, hrange, if_true]
    split_ifs <;> exact ⟨rfl, rfl⟩

def recoverNode (nd : DiskNode N C) (id : N) (config : ClusterConfig N) : DiskNode N C :=
  restarted id config (SegmentLog.openDir (E := LogEntry N C) nd.log.dir) nd.files

lemma replay_reopened {m : DiskNode N C} {x : SegmentLog (LogEntry N C)} (hopen : Kept.Reopened x d w)
    (hlog : m.log = x) (hnum : ∀ i e, w[i]? = some e → WalEntry.index e = i + 1) (hla : m.lastApplied = 0)
    (hsm : m.stateMachine = []) : m.replayUnappliedLogs.lastApplied ≤ w.length ∧
    m.replayUnappliedLogs.stateMachine = (w.take m.replayUnappliedLogs.lastApplied).filter isClient := by
  subst hlog
  have hzero : m.lastApplied ≤ w.length ∧ m.stateMachine = (w.take m.lastApplied).filter isClient := by
    rw [hla, hsm]
    exact ⟨Nat.zero_le _, rfl⟩
  rcases Nat.lt_or_ge d w.length with hlt | hge
  · have hlast : m.log.lastIndex = w.length := by rw [hopen.last, if_neg (by omega)]
    rcases Nat.eq_zero_or_pos d with rfl | hd
    · refine replay_applied _ hnum hzero.1 hzero.2 (Or.inr ?_)
      rw [hla]
      exact ⟨hopen.base hlt, hopen.entries, hlast⟩
    · -- the first segments are gone: nothing is replayed
      have hne : w.drop d ≠ [] := fun hnil => by have := drop_eq_nil_iff.1 hnil; omega
      have hgap : m.lastApplied + 1 < m.log.firstIndex := by
        rw [hla, SegmentLog.firstIndex, hopen.entries, hopen.base hlt, hlast, if_neg hne, if_pos (by omega)]
        omega
      obtain ⟨hla', hsm'⟩ := replay_gap m hgap
      rw [hla', hsm']
      exact hzero
  · refine replay_applied _ hnum hzero.1 hzero.2 (Or.inl ?_)
    rw [hopen.last, if_pos hge]
    exact Nat.zero_le _

/-- **The restart of a recoverable node**, if `apply.meta` does not name more than the snapshot. -/
theorem Recoverable.restarts {nd : DiskNode N C} {gs : List (Segment (LogEntry N C))} (h : Recoverable nd gs d w)
    (hs : ∀ e ∈ w, Storable e) (hmeta : nd.files.applyMeta ≤ nd.files.snapshotIndex) (id : N)
    (config : ClusterConfig N) :
    let nd' := recoverNode nd id config
    nd'.lastApplied ≤ w.length ∧ nd'.stateMachine = (w.take nd'.lastApplied).filter isClient := by
  intro nd'
  have hopen : Kept.Reopened (SegmentLog.openDir nd.log.dir : SegmentLog (LogEntry N C)) d w :=
    h.kept.opened (fun e he => hs e (mem_of_mem_drop he))
  have hnum := h.kept.numbered
  obtain ⟨-, hla, hlog, -⟩ := setStoragePath_progress
    ({ nodeId := id, log := SegmentLog.openDir nd.log.dir, clusterConfig := config } : DiskNode N C) nd.files
  rw [max_eq_right hmeta] at hla
  cases hload : nd.files.load with
  | ok found data =>
    obtain ⟨hpos, hfound, hdata⟩ := RaftFiles.load_eq hload
    have hfi : found.index = nd.log.baseIndex := by rw [hfound]; exact h.snap
    have hbin : data = (w.take nd.log.baseIndex).filter isClient := by
      have := h.bin (by rw [← hfi]; exact hpos)
      rw [show nd.files.snapshotBin = nd.snapshotBin from rfl, this] at hdata
      exact (Option.some.inj hdata).symm
    have hidx : nd.files.snapshotIndex = nd.log.baseIndex := by
      unfold RaftFiles.snapshotIndex
      rw [hload]; exact hfi
    obtain ⟨hsm, -⟩ := setStoragePath_loaded
      ({ nodeId := id, log := SegmentLog.openDir nd.log.dir, clusterConfig := config } : DiskNode N C) hload
    rw [hidx] at hla
    rw [prunedLog, hload] at hlog
    refine replay_applied _ hnum ?_ ?_ ?_
    · rw [hla]; exact h.base.trans h.applied
    · rw [hsm, hla, hbin]
    · rw [hlog, hla]
      have hpr := hopen.pruned hnum (i := found.index) (by rw [hfi]; exact h.kept.dropped) hpos found.term
      rw [← hfi]
      exact hpr
  | noSnapshot | corrupted =>
    rw [prunedLog, hload] at hlog
    refine replay_reopened hopen hlog hnum ?_ ?_
    · rw [hla, RaftFiles.snapshotIndex, hload]
    · simp only [setStoragePath, recoverFromSnapshot, hload]

/-- a cluster with empty directories; `fsync`, `interval` and `gap` are the nodes' settings: whether an append syncs,
the flush interval of `apply.meta`, and the number of entries after which a snapshot is taken -/
def initStores (config : N → ClusterConfig N) (fsync : N → Bool) (interval gap : N → ℕ) : DiskCluster N C :=
  { nodes := fun n =>
      { nodeId := n, log := { fsyncPerAppend := fsync n }, clusterConfig := config n,
        applyMetaFlushIntervalMs := interval n
        logGap := gap n }
    groups := fun _ => {}, fibers := [], net := [] }

/-- **Crash recovery equals replay**, if `apply.meta` does not name more than the snapshot. In every run of a cluster
that can be recovered from, whatever the settings: node `n` crashes at its end with all its files and starts again,
alone or with peers. -/
theorem recovery_replays (config : N → ClusterConfig N) (fsync : N → Bool) (interval gap : N → ℕ) (n : N)
    (as : List (Action N C (SegmentLog (LogEntry N C))))
    (hok : Cluster.along (recovers n) (initStores config fsync interval gap) as = true)
    (hstore : ∀ e ∈ fullLog n [] (initStores config fsync interval gap) as, Storable e)
    (hmeta : ((Cluster.run (initStores config fsync interval gap) as).nodes n).files.applyMeta ≤
      ((Cluster.run (initStores config fsync interval gap) as).nodes n).files.snapshotIndex)
    (id : N) (config' : ClusterConfig N) :
    let nd := (Cluster.run (initStores config fsync interval gap) as).nodes n
    let nd' := recoverNode nd id config'
    nd'.lastApplied ≤ (fullLog n [] (initStores config fsync interval gap) as).length ∧
    nd'.stateMachine = ((fullLog n [] (initStores config fsync interval gap) as).take nd'.lastApplied).filter
      isClient := by
  have hstart : Recoverable ((initStores config fsync interval gap : DiskCluster N C).nodes n) [] 0 [] :=
    ⟨Kept.fresh (fsync n), le_rfl, le_rfl, rfl, rfl, fun h => absurd h (lt_irrefl 0)⟩
  obtain ⟨gs, d, h⟩ := run_recoverable as hok hstart
  exact h.restarts hstore hmeta id config'

def applyFirst : List (Action Unit Unit (SegmentLog (LogEntry Unit Unit))) :=
  [.call () .bootstrapSingleNode, .call () (.submitEntry (.client ()))] ++ submitSections

def appendSecond : List (Action Unit Unit (SegmentLog (LogEntry Unit Unit))) :=
  applyFirst ++ [.call () .createSnapshotIfNeeded, .call () (.submitEntry (.client ()))]

/-- the node crashes before the second entry is applied: the replay applies it -/
theorem recovery_replays_second :
    let s : DiskCluster Unit Unit := initStores (fun _ => {}) (fun _ => true) (fun _ => 0) (fun _ => 1)
    let nd' := recoverNode ((Cluster.run s appendSecond).nodes ()) () {}
    nd'.lastApplied ≤ (fullLog () [] s appendSecond).length ∧
    nd'.stateMachine = ((fullLog () [] s appendSecond).take nd'.lastApplied).filter isClient :=
  recovery_replays (fun _ => {}) (fun _ => true) (fun _ => 0) (fun _ => 1) () appendSecond (by decide +kernel)
    (by decide +kernel) (by decide +kernel) () {}

/-- **An applied entry after the snapshot is not replayed.** -/
theorem recovery_skips :
    let s : DiskCluster Unit Unit := initStores (fun _ => {}) (fun _ => true) (fun _ => 0) (fun _ => 1)
    let as := appendSecond ++ replicate 8 (.advance 1)
    let nd' := recoverNode ((Cluster.run s as).nodes ()) () {}
    nd'.lastApplied = 2 ∧ nd'.stateMachine = [⟨1, 1, .client ()⟩] ∧
    ((fullLog () [] s as).take 2).filter isClient = [⟨1, 1, .client ()⟩, ⟨1, 2, .client ()⟩] := by
  decide +kernel

end Restart

end MaxRedis.Storage

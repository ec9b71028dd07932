/-
Snapshots and progress: what AppendEntries and InstallSnapshot do to a node that has committed or installed something.
-/
import MaxRedis.Raft.NodeSteps

namespace MaxRedis.Raft

open LogStorage LawfulLog RaftNode List

variable {N C L : Type} [LogStorage N C L] [LawfulLog N C L]

/-! ## Snapshots of a node's own -/

namespace RaftNode

def unapplied : RaftNode ℕ ℕ (CommandLog ℕ ℕ) :=
  (({ nodeId := 0, log := {}, logGap := 1 } :
    RaftNode ℕ ℕ (CommandLog ℕ ℕ)).bootstrapSingleNode.submitAppend (.client 10)).1

lemma appendLoop_continues (es : List (LogEntry N C)) (l : L) (p : Whole l)
    (hes : ∀ k e, es[k]? = some e → e.index = (entries l).length + k + 1) :
    ∃ l', appendLoop l es = (l', false) ∧ Whole l' ∧ entries l' = entries l ++ es := by
  induction es generalizing l with
  | nil => exact ⟨l, rfl, p, (append_nil _).symm⟩
  | cons e _ ih =>
    have hidx : e.index = (entries l).length + 1 := hes 0 e rfl
    have hwritten : ({ e with index := (entries l).length + 1 } : LogEntry N C) = e := by rw [← hidx]
    have happ : entries (append l e true) = entries l ++ [e] := by rw [append_eq l e true p, hwritten]
    obtain ⟨l', hloop, hp', hent⟩ := ih (append l e true) (append_whole l e true p) (fun k x hx => by
      rw [hes (k + 1) x hx, happ, length_append, length_singleton]; omega)
    refine ⟨l', ?_, hp', by rw [hent, happ, append_assoc]; rfl⟩
    rw [appendLoop, lastIndex_eq l p, if_neg (by omega), if_pos hidx, hloop]

lemma truncateTail_eq (l : L) {es : List (LogEntry N C)}
    (h : ∀ last, es.getLast? = some last → lastIndex l ≤ last.index) : truncateTail l es = l := by
  unfold truncateTail
  split
  · rfl
  · rename_i last hl
    rw [if_neg (Nat.not_lt.2 (h last hl))]

lemma onInstallSnapshot_eq (nd : RaftNode N C L) (req : InstallSnapshotRequest N C) (h : nd.term ≤ req.term) :
    (nd.onInstallSnapshot req).1 = { nd.observe req.term with
      snapshotBin := some req.data, stateMachine := req.data, lastApplied := req.lastIncludedIndex
      commitIndex := max (nd.observe req.term).commitIndex req.lastIncludedIndex
      lastSnapshotIndex := req.lastIncludedIndex, lastSnapshotTerm := req.lastIncludedTerm
      applyProgress := (nd.observe req.term).applyProgress.update req.lastIncludedIndex
      log := setSnapshotAnchor (clear (nd.observe req.term).log) req.lastIncludedIndex req.lastIncludedTerm } := by
  unfold onInstallSnapshot
  rw [if_neg (Nat.not_lt.2 h)]
  rfl

lemma onInstallSnapshot_term (nd : RaftNode N C L) (req : InstallSnapshotRequest N C) (h : nd.term ≤ req.term) :
    (nd.onInstallSnapshot req).1.term = req.term := by
  rw [onInstallSnapshot_eq nd req h]
  show (nd.observe req.term).term = req.term
  rw [observe_term]
  omega

/-- after a snapshot at index 0 the follower accepts the entries that follow, and each is then at its own index -/
lemma accepts_after_snapshot (nd : RaftNode N C L) (snap : InstallSnapshotRequest N C)
    (req : AppendEntriesRequest N C) (hterm : nd.term ≤ snap.term) (hsame : req.term = snap.term)
    (hprev : req.prevLogIndex = snap.lastIncludedIndex)
    (hes : ∀ k e, req.entries[k]? = some e → e.index = snap.lastIncludedIndex + k + 1) (hlen : req.entries.length ≤ 128)
    (hzero : snap.lastIncludedIndex = 0) : (nd.onInstallSnapshot snap).2.success = true ∧
    ((nd.onInstallSnapshot snap).1.onAppendEntries req).2.success = true ∧
    (∀ e ∈ req.entries, get ((nd.onInstallSnapshot snap).1.onAppendEntries req).1.log e.index = some e) ∧
    lastIndex ((nd.onInstallSnapshot snap).1.onAppendEntries req).1.log =
    snap.lastIncludedIndex + req.entries.length := by
  set nd1 := (nd.onInstallSnapshot snap).1 with hnd1
  have hlog : nd1.log =
    setSnapshotAnchor (clear (nd.observe snap.term).log) snap.lastIncludedIndex snap.lastIncludedTerm := by
    rw [hnd1, onInstallSnapshot_eq nd snap hterm]
  have hwhole : Whole nd1.log := by rw [hlog]; exact clear_whole _ _ _
  have hempty : entries nd1.log = [] := by rw [hlog]; exact clear_eq _ _ _
  have hterm1 : nd1.term = req.term := by rw [onInstallSnapshot_term nd snap hterm, hsame]
  have hbatch : req.entries.take maxAppendBatch = req.entries := take_of_length_le hlen
  -- the loop appends all entries
  obtain ⟨l', hloop, hp', hent⟩ := appendLoop_continues req.entries nd1.log hwhole (fun k e he => by
    rw [hes k e he, hempty, hzero, length_nil])
  rw [hempty, nil_append] at hent
  have hcut : truncateTail l' req.entries = l' := by
    refine truncateTail_eq l' (fun last hl => ?_)
    have hl' : req.entries[req.entries.length - 1]? = some last := by rw [← getLast?_eq_getElem?]; exact hl
    rw [lastIndex_eq l' hp', hent, hes _ last hl']
    omega
  have haccept : nd1.onAppendEntries req =
      (({ nd1.observe req.term with log := l' }).commitFromLeader req.leaderCommit,
      ⟨req.term, true, lastIndex l'⟩) := by
    rcases onAppendEntries_spec nd1 req with ⟨hlt, -⟩ | ⟨-, ⟨hint, heq⟩ | ⟨-, -, log, ⟨h, -⟩ | ⟨h, heq⟩⟩⟩
    · omega
    · -- the request is not refused: there is nothing before its first entry
      unfold onAppendEntries at heq
      rw [if_neg (by omega), if_neg (by omega), if_neg (by omega), if_neg (by omega), hbatch, hloop] at heq
      simp at heq
    · rw [hbatch, hloop] at h; simp at h
    · rw [hbatch, hloop] at h
      obtain rfl : l' = log := (Prod.mk.inj h).1
      rw [heq, hcut]
  have hsl := (commitFromLeader_log { nd1.observe req.term with log := l' } req.leaderCommit).1
  have hpost : Whole (nd1.onAppendEntries req).1.log := by rw [haccept]; exact hsl.whole hp'
  have hentries : entries (nd1.onAppendEntries req).1.log = req.entries := by rw [haccept, ← hent]; exact hsl.entries
  refine ⟨?_, by rw [haccept], fun e he => ?_, by rw [lastIndex_eq _ hpost, hentries, hzero, Nat.zero_add]⟩
  · unfold onInstallSnapshot
    rw [if_neg (Nat.not_lt.2 hterm)]
  · obtain ⟨k, hk⟩ := mem_iff_getElem?.1 he
    rw [hes k e hk, hzero, Nat.zero_add, get_eq _ hpost, hentries]
    exact hk

/-- a snapshot at a positive index leaves a log that ends at 0, and no predecessor there is found -/
lemma refuses_after_snapshot (nd : RaftNode N C L) (snap : InstallSnapshotRequest N C)
    (req : AppendEntriesRequest N C) (hterm : nd.term ≤ snap.term) (hsame : req.term = snap.term)
    (hprev : req.prevLogIndex = snap.lastIncludedIndex) (hpos : 0 < snap.lastIncludedIndex) :
    ((nd.onInstallSnapshot snap).1.onAppendEntries req).2.success = false := by
  have hterm1 : (nd.onInstallSnapshot snap).1.term = req.term := by rw [onInstallSnapshot_term nd snap hterm, hsame]
  have hlast : lastIndex (nd.onInstallSnapshot snap).1.log = 0 := by
    have hlog : (nd.onInstallSnapshot snap).1.log =
      setSnapshotAnchor (clear (nd.observe snap.term).log) snap.lastIncludedIndex snap.lastIncludedTerm := by
      rw [onInstallSnapshot_eq nd snap hterm]
    rw [hlog, lastIndex_eq _ (clear_whole _ _ _), clear_eq, length_nil]
  have hno : ¬(nd.onInstallSnapshot snap).1.term < req.term := by omega
  unfold onAppendEntries
  rw [if_neg (by omega)]
  simp only [if_neg hno]
  rw [if_pos (by omega)]

/-- **A follower continues after a snapshot** exactly if the snapshot's index is 0, whatever state it was in and
whatever terms the two requests give for that index. -/
theorem continue_after_snapshot (nd : RaftNode N C L) (snap : InstallSnapshotRequest N C)
    (req : AppendEntriesRequest N C) (hterm : nd.term ≤ snap.term) (hsame : req.term = snap.term)
    (hprev : req.prevLogIndex = snap.lastIncludedIndex)
    (hes : ∀ k e, req.entries[k]? = some e → e.index = snap.lastIncludedIndex + k + 1)
      (hlen : req.entries.length ≤ 128) :
    ((nd.onInstallSnapshot snap).2.success = true ∧
      ((nd.onInstallSnapshot snap).1.onAppendEntries req).2.success = true ∧
      (∀ e ∈ req.entries, get ((nd.onInstallSnapshot snap).1.onAppendEntries req).1.log e.index = some e) ∧
      lastIndex ((nd.onInstallSnapshot snap).1.onAppendEntries req).1.log =
        snap.lastIncludedIndex + req.entries.length) ↔ snap.lastIncludedIndex = 0 := by
  constructor
  · rintro ⟨-, hok, -⟩
    by_contra hpos
    rw [refuses_after_snapshot nd snap req hterm hsame hprev (Nat.pos_of_ne_zero hpos)] at hok
    cases hok
  · exact accepts_after_snapshot nd snap req hterm hsame hprev hes hlen

def follower : RaftNode ℕ ℕ (CommandLog ℕ ℕ) :=
  (({ nodeId := 1, log := {} } : RaftNode ℕ ℕ (CommandLog ℕ ℕ)).onHeartbeat ⟨1, 0, 0⟩).1

/-- with a snapshot at index 0 the follower goes on, with one at index 1 it does not -/
theorem continue_after_snapshot_both :
    let go := fun i => (follower.onInstallSnapshot ⟨1, 0, i, i, []⟩).1.onAppendEntries ⟨1, 0, i, i,
      [⟨1, i + 1, .client 10⟩], 0⟩
    ((go 0).2.success = true ∧ get (go 0).1.log 1 = some ⟨1, 1, .client 10⟩) ∧
      ¬((go 1).2.success = true ∧ get (go 1).1.log 2 = some ⟨1, 2, .client 10⟩ ∧ lastIndex (go 1).1.log = 2) := by
  have hes : ∀ i k e, ([⟨1, i + 1, .client 10⟩] : List (LogEntry ℕ ℕ))[k]? = some e → e.index = i + k + 1 := by
    intro i k e he
    match k with
    | 0 => cases he; rfl
    | k + 1 => simp at he
  have h0 := (continue_after_snapshot follower ⟨1, 0, 0, 0, []⟩ ⟨1, 0, 0, 0, [⟨1, 1, .client 10⟩],
      0⟩ (by decide) rfl rfl
    (hes 0) (by decide)).2 rfl
  refine ⟨⟨h0.2.1, h0.2.2.1 _ mem_cons_self⟩, fun h1 => ?_⟩
  have h := (continue_after_snapshot follower ⟨1, 0, 1, 1, []⟩ ⟨1, 0, 1, 1, [⟨1, 2, .client 10⟩], 0⟩ (by decide) rfl rfl
    (hes 1) (by decide)).1 ⟨by decide, h1.1, by simpa using h1.2.1, h1.2.2⟩
  cases h

/-- **After a snapshot at index 1 nothing is accepted.** -/
theorem snapshot_blocks_append : (follower.onInstallSnapshot ⟨1, 0, 1, 1, [⟨1, 1, .client 10⟩]⟩).2.success = true ∧
    follower.lastApplied ≤ 1 ∧
    ((follower.onInstallSnapshot ⟨1, 0, 1, 1, [⟨1, 1, .client 10⟩]⟩).1.onAppendEntries
      ⟨1, 0, 1, 1, [⟨1, 2, .client 20⟩], 1⟩).2.success = false := by
  decide +kernel

end RaftNode

/-! ## Progress -/

namespace RaftNode

variable {c : ℕ}

structure Sane (nd : RaftNode N C L) : Prop where
  whole : Whole nd.log
  snap : nd.lastSnapshotIndex ≤ nd.commitIndex
  applied : nd.lastApplied ≤ nd.commitIndex

structure Onward (nd nd' : RaftNode N C L) : Prop where
  applied : nd.lastApplied ≤ nd'.lastApplied
  commit : nd.commitIndex ≤ nd'.commitIndex
  snap : nd.lastSnapshotIndex ≤ nd'.lastSnapshotIndex
  kept : ∀ i e, get nd.log (i + 1) = some e → i + 1 ≤ nd.commitIndex → nd'.lastSnapshotIndex < i + 1 →
    get nd'.log (i + 1) = some e

lemma Onward.refl (nd : RaftNode N C L) : Onward nd nd := ⟨le_rfl, le_rfl, le_rfl, fun _ _ h _ _ => h⟩

lemma Onward.trans {a b c : RaftNode N C L} (h : Onward a b) (k : Onward b c) : Onward a c := by
  refine ⟨h.applied.trans k.applied, h.commit.trans k.commit, h.snap.trans k.snap, fun i e he hc hs => ?_⟩
  have hb := h.kept i e he hc (lt_of_le_of_lt k.snap hs)
  exact k.kept i e hb (hc.trans h.commit) hs

structure Agrees (c : ℕ) (l l' : L) : Prop where
  whole : Whole l'
  le : c ≤ (entries l').length
  take : (entries l').take c = (entries l).take c

lemma Agrees.get {l l' : L} (h : Agrees c l l') (p : Whole l) {i : ℕ} (hi : i ≤ c) :
    LogStorage.get l' i = LogStorage.get l i := by
  cases i with
  | zero => rw [get_zero l' h.whole, get_zero l p]
  | succ i =>
    have hget := congrArg (fun es => es[i]?) h.take
    simp only [getElem?_take_of_lt (Nat.lt_of_succ_le hi)] at hget
    rw [get_eq l' h.whole, get_eq l p, hget]

lemma Agrees.append {l : L} (p : Whole l) (hc : c ≤ (entries l).length) (e : LogEntry N C) (f : Bool) :
    Agrees c l (append l e f) := by
  refine ⟨append_whole l e f p, ?_, ?_⟩
  · rw [append_eq l e f p, length_append]; omega
  · rw [append_eq l e f p, take_append_of_le_length hc]

lemma Agrees.truncate {c k : ℕ} {l : L} (p : Whole l) (hc : c ≤ k) (hk : k ≤ (entries l).length) :
    Agrees c l (truncateFrom l k) := by
  refine ⟨truncate_whole l k p hk, ?_, ?_⟩
  · rw [truncate_eq l k p hk, length_take]; omega
  · rw [truncate_eq l k p hk, take_take, min_eq_left hc]

lemma Agrees.trans {a b d : L} (h : Agrees c a b) (k : Agrees c b d) : Agrees c a d :=
  ⟨k.whole, k.le, k.take.trans h.take⟩

lemma appendLoop_agrees (es : List (LogEntry N C)) (l : L) (p : Whole l) (hc : c ≤ (entries l).length)
    (hes : ∀ e ∈ es, e.index ≤ c → (LogStorage.get l e.index).map LogEntry.term = some e.term) :
    Agrees c l (appendLoop l es).1 := by
  induction es generalizing l with
  | nil => exact ⟨p, hc, rfl⟩
  | cons e es ih =>
    -- the rest of the loop, after a change that keeps the first `c` entries
    have hrest : ∀ l1 : L, Agrees c l l1 → Agrees c l (appendLoop l1 es).1 := by
      intro l1 h1
      refine h1.trans (ih l1 h1.whole h1.le (fun x hx hxc => ?_))
      rw [h1.get p hxc]
      exact hes x (mem_cons_of_mem _ hx) hxc
    rw [appendLoop, lastIndex_eq l p]
    by_cases hin : e.index ≤ (entries l).length
    · rw [if_pos hin]
      by_cases hterm : (LogStorage.get l e.index).map LogEntry.term = some e.term
      · rw [if_pos hterm]; exact hrest l ⟨p, hc, rfl⟩
      · rw [if_neg hterm]
        -- the conflict is above `c`
        have hgt : c < e.index := by
          by_contra hle
          exact hterm (hes e mem_cons_self (by omega))
        have ht : Agrees c l (truncateFrom l (e.index - 1)) := Agrees.truncate p (by omega) (by omega)
        exact hrest _ (ht.trans (Agrees.append ht.whole ht.le e true))
    · rw [if_neg hin]
      by_cases hnext : e.index = (entries l).length + 1
      · rw [if_pos hnext]; exact hrest _ (Agrees.append p hc e true)
      · rw [if_neg hnext]; exact ⟨p, hc, rfl⟩

lemma truncateTail_agrees (l : L) (p : Whole l) (hc : c ≤ (entries l).length) {es : List (LogEntry N C)}
    (h : ∀ last, es.getLast? = some last → c ≤ last.index) : Agrees c l (truncateTail l es) := by
  unfold truncateTail
  split
  · exact ⟨p, hc, rfl⟩
  · rename_i last hl
    rw [lastIndex_eq l p]
    split_ifs with hcut
    · exact Agrees.truncate p (h last hl) hcut.le
    · exact ⟨p, hc, rfl⟩

/-- an AppendEntries request that only extends what the node has committed: it repeats the committed entries it holds,
it reaches as far as they do, and its `leader_commit` is no news or the node has all it has committed -/
def onlyExtends (nd : RaftNode N C L) (req : AppendEntriesRequest N C) : Bool :=
  let c := min nd.commitIndex (lastIndex nd.log)
  req.entries.all (fun e => c < e.index || ((LogStorage.get nd.log e.index).map LogEntry.term == some e.term)) &&
  (req.entries.getLast?.all (fun last => c ≤ last.index)) &&
  (req.leaderCommit ≤ nd.commitIndex || nd.commitIndex ≤ lastIndex nd.log)

variable {nd : RaftNode N C L}

lemma apply_onward (h : Sane nd) : Sane nd.applyCommittedLogsLocked ∧ Onward nd nd.applyCommittedLogsLocked := by
  have happ := applyCommittedLogsLocked_applies nd
  have heq := (applyCommittedLogsLocked_eq nd h.whole).1
  have hsnap := h.snap
  have happlied := h.applied
  refine ⟨⟨happ.log.whole h.whole, by rw [happ.snap, happ.commit]; exact hsnap, by rw [happ.commit]; omega⟩, ?_⟩
  refine ⟨by rw [heq]; exact le_max_left _ _, happ.commit.ge, happ.snap.ge, fun i e he _ _ => ?_⟩
  rw [get_eq _ h.whole] at he
  rw [get_eq _ (happ.log.whole h.whole), happ.log.entries]
  exact he

lemma settle_onward {nd nd' : RaftNode N C L} (hm : Settle nd nd') (h : Sane nd) : Sane nd' ∧ Onward nd nd' := by
  have hsnap := h.snap
  have happlied := h.applied
  cases hm with
  | keep hs =>
    refine ⟨⟨by rw [hs.log]; exact h.whole, by rw [hs.snap, hs.commit]; exact hsnap,
      by rw [hs.applied, hs.commit]; exact happlied⟩, hs.applied.ge, hs.commit.ge, hs.snap.ge, fun i e he _ _ => ?_⟩
    rw [hs.log]; exact he
  | commit _ hc =>
    exact ⟨⟨h.whole, hsnap.trans hc.le, happlied.trans hc.le⟩, le_rfl, hc.le, le_rfl, fun _ _ he _ _ => he⟩
  | persist =>
    refine ⟨⟨persist_whole _ h.whole, hsnap, happlied⟩, le_rfl, le_rfl, le_rfl, fun i x hx _ _ => ?_⟩
    rw [get_eq _ h.whole] at hx
    rw [get_eq _ (persist_whole _ h.whole), persist_eq]
    exact hx
  | apply => exact apply_onward h

lemma move_onward {nd nd' : RaftNode N C L} (hm : Move nd nd') (h : Sane nd) : Sane nd' ∧ Onward nd nd' := by
  cases hm with
  | settle hm => exact settle_onward hm h
  | append e f =>
    refine ⟨⟨append_whole _ e f h.whole, h.snap, h.applied⟩, le_rfl, le_rfl, le_rfl, fun i x hx _ _ => ?_⟩
    have hlt : i < (entries nd.log).length := by
      rw [get_eq _ h.whole] at hx; exact (List.getElem?_eq_some_iff.1 hx).1
    exact ((Agrees.append h.whole le_rfl e f).get h.whole hlt).trans hx

lemma moves_onward {nd nd' : RaftNode N C L} (hm : Moves nd nd') (h : Sane nd) : Sane nd' ∧ Onward nd nd' := by
  induction hm with
  | refl => exact ⟨h, Onward.refl nd⟩
  | tail _ hlast ih =>
    obtain ⟨h1, h2⟩ := move_onward hlast ih.1
    exact ⟨h1, ih.2.trans h2⟩

lemma commitFromLeader_onward (h : Sane nd) (l : L) (lc : ℕ)
    (hl : Agrees (min nd.commitIndex (entries nd.log).length) nd.log l)
    (hlc : lc ≤ nd.commitIndex ∨ nd.commitIndex ≤ (entries nd.log).length) :
    Sane (({ nd with log := l }).commitFromLeader lc) ∧ Onward nd (({ nd with log := l }).commitFromLeader lc) := by
  have hsnap := h.snap
  have happlied := h.applied
  have hset : Sane { nd with log := l } ∧ Onward nd { nd with log := l } := by
    refine ⟨⟨hl.whole, hsnap, happlied⟩, le_rfl, le_rfl, le_rfl, fun i e he hc _ => ?_⟩
    have hlt : i < (entries nd.log).length := by
      rw [get_eq _ h.whole] at he; exact (List.getElem?_eq_some_iff.1 he).1
    exact (hl.get h.whole (by omega)).trans he
  unfold commitFromLeader
  split_ifs with hlt
  · -- the commit index moves to the leader's, as far as the log reaches
    have hle := hl.le
    have hup : nd.commitIndex ≤ min lc (lastIndex l) := by
      rw [lastIndex_eq l hl.whole]
      have hlt' : nd.commitIndex < lc := hlt
      omega
    obtain ⟨h1, h2⟩ := moves_onward (Settles.commit { nd with log := l } hup).moves hset.1
    obtain ⟨h3, h4⟩ := apply_onward h1
    exact ⟨h3, (hset.2.trans h2).trans h4⟩
  · exact hset

lemma observe_onward (h : Sane nd) (t : ℕ) : Sane (nd.observe t) ∧ Onward nd (nd.observe t) :=
  settle_onward (.keep (observe_data nd t).sameState) h

lemma onAppendEntries_onward (h : Sane nd) (req : AppendEntriesRequest N C)
    (hok : nd.term ≤ req.term → nd.onlyExtends req = true) :
    Sane (nd.onAppendEntries req).1 ∧ Onward nd (nd.onAppendEntries req).1 := by
  have hobs := observe_onward h req.term
  have hdata := observe_data nd req.term
  rcases onAppendEntries_spec nd req with ⟨-, heq⟩ | ⟨hterm, hcases⟩
  · rw [heq]; exact ⟨h, Onward.refl nd⟩
  have hext := hok hterm
  simp only [onlyExtends, Bool.and_eq_true, all_eq_true, Bool.or_eq_true, decide_eq_true_eq, beq_iff_eq] at hext
  obtain ⟨⟨hes, hlast⟩, hlc⟩ := hext
  rw [lastIndex_eq _ h.whole] at hes hlast hlc
  set c := min nd.commitIndex (entries nd.log).length with hc
  have hlast' : ∀ last, req.entries.getLast? = some last → c ≤ last.index := by
    intro last hl
    rw [hl] at hlast
    simpa using hlast
  have hloop : Agrees c nd.log (appendLoop nd.log (req.entries.take maxAppendBatch)).1 := by
    refine appendLoop_agrees _ nd.log h.whole (min_le_right _ _) (fun e he hec => ?_)
    rcases hes e (mem_of_mem_take he) with hgt | ht
    · exact absurd hec (Nat.not_le.2 hgt)
    · exact ht
  rcases hcases with ⟨hint, heq⟩ | ⟨-, -, log, ⟨hl, heq⟩ | ⟨hl, heq⟩⟩
  · rw [heq]; exact hobs
  · -- left through the gap branch: the log may have changed, the commit index has not
    rw [hl] at hloop
    rw [heq]
    refine ⟨⟨hloop.whole, hobs.1.snap, hobs.1.applied⟩, hobs.2.applied, hobs.2.commit, hobs.2.snap,
      fun i e he hci _ => ?_⟩
    have hlt : i < (entries nd.log).length := by
      rw [get_eq _ h.whole] at he; exact (List.getElem?_eq_some_iff.1 he).1
    exact (hloop.get h.whole (by omega)).trans he
  · rw [hl] at hloop
    have hcut := hloop.trans (truncateTail_agrees log hloop.whole hloop.le hlast')
    rw [heq]
    have hfin := commitFromLeader_onward hobs.1 (truncateTail log req.entries) req.leaderCommit
      (by rw [hdata.commit, hdata.log]; exact hcut) (by rw [hdata.commit, hdata.log]; exact hlc)
    exact ⟨hfin.1, hobs.2.trans hfin.2⟩

lemma onInstallSnapshot_onward (h : Sane nd) (req : InstallSnapshotRequest N C)
    (hok : nd.term ≤ req.term → nd.commitIndex ≤ req.lastIncludedIndex) :
    Sane (nd.onInstallSnapshot req).1 ∧ Onward nd (nd.onInstallSnapshot req).1 := by
  rcases Nat.lt_or_ge req.term nd.term with hlt | hge
  · have heq : (nd.onInstallSnapshot req).1 = nd := by unfold onInstallSnapshot; rw [if_pos hlt]
    rw [heq]; exact ⟨h, Onward.refl nd⟩
  have hle := hok hge
  have hdata := observe_data nd req.term
  have hsnap := h.snap
  have happlied := h.applied
  rw [onInstallSnapshot_eq nd req hge]
  refine ⟨⟨clear_whole _ _ _, le_max_right _ _, le_max_right _ _⟩, happlied.trans hle, ?_, hsnap.trans hle, ?_⟩
  · rw [hdata.commit]; exact le_max_left _ _
  · intro i e _ hc hs
    have hs' : req.lastIncludedIndex < i + 1 := hs
    omega

end RaftNode

namespace Cluster

variable [DecidableEq N] {s : Cluster N C L}

def initGap (config : N → ClusterConfig N) (gap : N → ℕ) : Cluster N C L :=
  { nodes := fun n => { nodeId := n, log := empty, clusterConfig := config n, logGap := gap n }
    groups := fun _ => {}, fibers := [], net := [] }

/-- the steps that keep the progress of node `n`: AppendEntries requests that only extend what it has committed,
snapshots that reach at least as far as it has committed; the node takes no snapshot of its own and is not restarted -/
def keepsProgress (n : N) (s : Cluster N C L) (a : Action N C L) : Bool :=
  match s.delivered a with
  | some (dst, .appendEntries req) => dst ≠ n || req.term < (s.nodes n).term || (s.nodes n).onlyExtends req
  | some (dst, .installSnapshot req) =>
    dst ≠ n || req.term < (s.nodes n).term || (s.nodes n).commitIndex ≤ req.lastIncludedIndex
  | _ =>
    match a with
    | .call m .createSnapshotIfNeeded => m ≠ n
    | .restart m _ => m ≠ n
    | _ => true

lemma step_onward {n : N} {a : Action N C L} (hok : keepsProgress n s a = true)
    (h : Sane (s.nodes n)) : Sane ((s.step a).nodes n) ∧ Onward (s.nodes n) ((s.step a).nodes n) := by
  generalize hnd : (s.step a).nodes n = nd'
  have hstep := step_nodeStep s a n
  rw [hnd] at hstep
  cases hstep with
  | turn ht => exact moves_onward ht.moves h
  | adopt req hd heq =>
    rw [heq]
    refine onAppendEntries_onward h req (fun hterm => ?_)
    simp only [keepsProgress, hd, Bool.or_eq_true, decide_eq_true_eq] at hok
    rcases hok with (hne | hlt) | hext
    · exact absurd rfl hne
    · omega
    · exact hext
  | install req hd heq =>
    rw [heq]
    refine onInstallSnapshot_onward h req (fun hterm => ?_)
    simp only [keepsProgress, hd, Bool.or_eq_true, decide_eq_true_eq] at hok
    rcases hok with (hne | hlt) | hle
    · exact absurd rfl hne
    · omega
    · exact hle
  | snapshot ha | restart _ ha => subst ha; simp [keepsProgress, delivered] at hok

lemma run_onward {n : N} (as : List (Action N C L)) (hok : along (keepsProgress n) s as = true)
    (h : Sane (s.nodes n)) : Sane ((run s as).nodes n) ∧ Onward (s.nodes n) ((run s as).nodes n) := by
  induction as generalizing s with
  | nil => exact ⟨h, Onward.refl _⟩
  | cons _ _ ih =>
    simp only [along, Bool.and_eq_true] at hok
    obtain ⟨h1, h2⟩ := step_onward hok.1 h
    obtain ⟨h3, h4⟩ := ih hok.2 h1
    exact ⟨h3, h2.trans h4⟩

/-- **Progress never goes back.** -/
theorem progress_monotone (config : N → ClusterConfig N) (gap : N → ℕ) (n : N) (as bs : List (Action N C L))
    (hok : along (keepsProgress n) (initGap config gap) (as ++ bs) = true) :
    let nd := (run (initGap config gap) as).nodes n
    let nd' := (run (initGap config gap) (as ++ bs)).nodes n
    nd.lastApplied ≤ nd'.lastApplied ∧ nd.commitIndex ≤ nd'.commitIndex ∧
    ∀ i e, get nd.log (i + 1) = some e → i + 1 ≤ nd.commitIndex → nd'.lastSnapshotIndex < i + 1 →
      get nd'.log (i + 1) = some e := by
  rw [along_append, Bool.and_eq_true] at hok
  have hinit : Sane ((initGap config gap : Cluster N C L).nodes n) := ⟨whole_empty, le_rfl, le_rfl⟩
  obtain ⟨hmid, -⟩ := run_onward as hok.1 hinit
  obtain ⟨-, hon⟩ := run_onward bs hok.2 hmid
  rw [run_append]
  exact ⟨hon.applied, hon.commit, hon.kept⟩

/-- node 0 leads and appends two entries. The first is committed with node 1 and a snapshot is taken at index 1; a round
of node 0 has captured this snapshot for node 2; then the second entry is committed with node 1, too. -/
def snapshotRound : List (Action (Fin 3) ℕ (CommandLog (Fin 3) ℕ)) :=
  electZero ++ ([.call 0 (.submitEntry (.client 10)), .advance 1, .advance 1, .advance 1, .advance 1,
    .call 0 (.submitEntry (.client 20)), .call 0 (.replicateLog true), .advance 3,
    .deliver 1, .recv 1, .advance 1, .advance 1, .call 0 .createSnapshotIfNeeded,
    .call 0 (.replicateLog true), .advance 4, .advance 4, .fail 4,
    .advance 3, .deliver 3, .recv 3, .advance 3, .advance 3] : Steps3)

def secondSnapshot : List (Action (Fin 3) ℕ (CommandLog (Fin 3) ℕ)) :=
  snapshotRound ++ ([.advance 4, .fail 4, .call 0 .createSnapshotIfNeeded, .call 0 (.replicateLog true), .advance 5,
    .advance 5, .fail 5, .advance 5] : Steps3)

theorem progress_monotone_secondSnapshot :
    let nd := (run (initGap (othersConfig 3) (fun _ => 1)) secondSnapshot).nodes 2
    let nd' := (run (initGap (othersConfig 3) (fun _ => 1)) (secondSnapshot ++ [.deliver 5])).nodes 2
    nd.lastApplied ≤ nd'.lastApplied ∧ nd.commitIndex ≤ nd'.commitIndex ∧
    ∀ i e, get nd.log (i + 1) = some e → i + 1 ≤ nd.commitIndex → nd'.lastSnapshotIndex < i + 1 →
      get nd'.log (i + 1) = some e :=
  progress_monotone (othersConfig 3) (fun _ => 1) 2 secondSnapshot [.deliver 5] (by decide +kernel)

/-- **A late snapshot takes the apply index back.** -/
theorem late_snapshot_rewinds :
    let s := run (initGap (othersConfig 3) (fun _ => 1)) (secondSnapshot ++ [.deliver 5])
    s.delivered (.deliverLate 1) = some (2, .installSnapshot ⟨1, 0, 1, 1, [⟨1, 1, .client 10⟩]⟩) ∧
    (s.nodes 2).term = 1 ∧ (s.nodes 2).lastApplied = 2 ∧ ((s.step (.deliverLate 1)).nodes 2).lastApplied = 1 := by
  decide +kernel

end Cluster

end MaxRedis.Raft

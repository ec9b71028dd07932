/-
AppendEntries requests after a compaction.

A request names the entry before the first one it sends. That entry may be in the log; at the compaction point it is
gone, and only the snapshot anchor has its term.
-/
import MaxRedis.Storage.Refinement

namespace MaxRedis.Storage

open Raft LogStorage RaftNode List

variable {N C L : Type}

/-! ## Logs and what they have held -/

def termAt (w : List (LogEntry N C)) : ℕ → ℕ
  | 0 => 0
  | i + 1 => ((w[i]?).map LogEntry.term).getD 0

variable {w : List (LogEntry N C)} {i b : ℕ} {Rep : L → BaseLog (LogEntry N C) → Prop} {anchor : L → SnapshotMeta}

lemma termAt_eq (hi : 0 < i) : termAt w i = ((w[i - 1]?).map LogEntry.term).getD 0 := by
  obtain ⟨j, rfl⟩ := Nat.exists_eq_succ_of_ne_zero hi.ne'
  rfl

/-- a log that is read as `Rep` says and has the entries `w`, of which those up to `b` have been compacted; the anchor
is the last of these -/
structure CompactedTo (Rep : L → BaseLog (LogEntry N C) → Prop) (anchor : L → SnapshotMeta) (l : L) (b : ℕ)
    (w : List (LogEntry N C)) : Prop where
  rep : Rep l ⟨b, w.drop b⟩
  le : b ≤ w.length
  anchor : 0 < b → anchor l = ⟨b, termAt w b⟩

def AnchorFirst [LogStorage N C L] (anchor : L → SnapshotMeta) : Prop :=
  ∀ (l : L) (i : ℕ), getTerm l i =
    if i = (anchor l).index ∧ 0 < (anchor l).index then (anchor l).term else ((get l i).map LogEntry.term).getD 0

lemma CompactedTo.getTerm_eq [LogStorage N C L] (hread : LogReading Rep) (hfirst : AnchorFirst anchor) {l : L}
    (h : CompactedTo Rep anchor l b w) (hi : b ≤ i) : LogStorage.getTerm l i = termAt w i := by
  have href := hread.refines h.rep
  rcases hi.eq_or_lt with rfl | hlt
  · rcases Nat.eq_zero_or_pos b with rfl | hb
    · rw [hfirst, if_neg (by omega)]
      rcases href.low 0 le_rfl with hget | hget <;> rw [hget] <;> rfl
    · rw [hfirst, h.anchor hb, if_pos ⟨rfl, hb⟩]
  · rw [href.getTerm i hlt, termAt_eq (by omega), BaseLog.get, if_neg (by dsimp only; omega), getElem?_drop]
    rw [show b + (i - b - 1) = i - 1 by omega]

/-! ## The request -/

section Request
variable [LogStorage N C L]

/-- the request for a peer whose next index is `n`, and what is noted of its log when it succeeds -/
structure NamesPredecessor (nd : RaftNode N C L) (w : List (LogEntry N C)) (id : N) (i n : ℕ) : Prop where
  request : ∀ (later : RaftNode N C L) (t : ℕ), Cluster.buildRequest later t (nd.buildPeerReq id i) =
    some (.appendEntries
      ⟨t, later.nodeId, n - 1, termAt w (n - 1), (w.drop (n - 1)).take maxAppendBatch, later.commitIndex⟩)
  consecutive : ∀ j e, ((w.drop (n - 1)).take maxAppendBatch)[j]? = some e → e.index = n + j
  recorded : ∀ (rsp : AppendEntriesResponse) (later : RaftNode N C L), rsp.success →
    i < later.peerLastLogIndex.length →
    (later.recordPeerRsp (nd.buildPeerReq id i, (nd.buildPeerReq id i).onAppend rsp)).peerLastLogIndex[i]? =
      some ((((w.drop (n - 1)).take maxAppendBatch).getLast?.map LogEntry.index).getD (n - 1))

lemma last_index {es : List (LogEntry N C)} {n : ℕ} (hn : 0 < n) (h : ∀ j e, es[j]? = some e → e.index = n + j) :
    (es.getLast?.map LogEntry.index).getD (n - 1) = n - 1 + es.length := by
  rcases eq_nil_or_concat es with rfl | ⟨pre, e, rfl⟩
  · rfl
  · rw [concat_eq_append] at *
    have he := h pre.length e (by simp)
    simp only [getLast?_concat, Option.map_some, Option.getD_some, length_append, length_singleton]
    omega

/-- a leader whose snapshot ends at `b`, with next index `n` for the peer at `i`: above the snapshot and at most one
past the log -/
structure Asks (nd : RaftNode N C L) (b i n : ℕ) : Prop where
  snapshot : nd.lastSnapshotIndex = b
  next : nd.peerNextIndex[i]? = some n
  above : b < n
  within : n ≤ lastIndex nd.log + 1

section Parts
variable {Rep : L → BaseLog (LogEntry N C) → Prop} {anchor : L → SnapshotMeta} {l : L} {b n : ℕ}
  {w : List (LogEntry N C)}

section
variable (hread : LogReading Rep)
include hread

section
variable (h : CompactedTo Rep anchor l b w)
include h

lemma CompactedTo.lastIndex_eq : lastIndex l = w.length := by
  have hble := h.le
  rw [(hread.refines h.rep).lastIndex]
  simp only [BaseLog.lastIndex, length_drop]
  omega

lemma CompactedTo.getRange_eq (hn : b < n) :
    getRange l n maxAppendBatch = (w.drop (n - 1)).take maxAppendBatch := by
  have hdrop : (w.drop b).drop (n - b - 1) = w.drop (n - 1) := by
    rw [drop_drop]
    congr 1; omega
  rw [(hread.refines h.rep).getRange n maxAppendBatch hn trivial, if_neg (by decide), BaseLog.since, hdrop]

lemma CompactedTo.get_eq (hn : b < n) (hle : n ≤ w.length) : ∃ c, get l n = some ⟨termAt w n, n, c⟩ := by
  have href := hread.refines h.rep
  have hin : n - 1 < w.length := by omega
  have hget : get l n = some w[n - 1] := by
    rw [href.get _ hn, BaseLog.get, if_neg (by dsimp only; omega), getElem?_drop, ← getElem?_eq_getElem hin]
    congr 1
    dsimp only
    omega
  have hterm : termAt w n = w[n - 1].term := by
    rw [termAt_eq (by omega), getElem?_eq_getElem hin]
    rfl
  have hidx := href.own _ _ hn hget
  refine ⟨w[n - 1].command, ?_⟩
  rw [hget, hterm]
  generalize w[n - 1] = e at hidx
  obtain ⟨term, index, command⟩ := e
  subst hidx
  rfl

lemma CompactedTo.predecessor (hn : b < n)
    (hle : n ≤ w.length + 1) (hbase : n = b + 1 → 0 < b → get l b = none ∧ getTerm l b = termAt w b) :
    ∃ c, (if 1 < n then (get l (n - 1)).getD ⟨getTerm l (n - 1), n - 1, .empty⟩ else .blank) =
      ⟨termAt w (n - 1), n - 1, c⟩ := by
  split_ifs with h1
  · rcases Nat.lt_or_ge b (n - 1) with hlt | hge
    · -- it is in the log
      obtain ⟨c, hget⟩ := h.get_eq hread hlt (by omega)
      exact ⟨c, by rw [hget, Option.getD_some]⟩
    · -- it is the last entry compacted
      obtain ⟨hnone, hterm⟩ := hbase (by omega) (by omega)
      obtain rfl : b = n - 1 := by omega
      exact ⟨.empty, by rw [hnone, Option.getD_none, hterm]⟩
  · obtain rfl : n = 1 := by omega
    exact ⟨_, rfl⟩

end

end

lemma numbered_from (hnum : (⟨b, w.drop b⟩ : BaseLog (LogEntry N C)).Numbered LogEntry.index) (hn : b < n) :
    ∀ j e, ((w.drop (n - 1)).take maxAppendBatch)[j]? = some e → e.index = n + j := by
  intro j e he
  rw [getElem?_take] at he
  split_ifs at he
  rw [getElem?_drop] at he
  have hidx := hnum (n - 1 + j - b) e (by rw [getElem?_drop]; rw [← he]; congr 1; omega)
  dsimp only at hidx
  omega

end Parts

/-- **The request after a compaction**, if nothing is read at the compaction point. -/
theorem CompactedTo.namesPredecessor {Rep : L → BaseLog (LogEntry N C) → Prop} {anchor : L → SnapshotMeta}
    (hread : LogReading Rep) {nd : RaftNode N C L} {b : ℕ} {w : List (LogEntry N C)}
    (h : CompactedTo Rep anchor nd.log b w) (hnum : (⟨b, w.drop b⟩ : BaseLog (LogEntry N C)).Numbered LogEntry.index)
    {i n : ℕ} (hask : Asks nd b i n)
    (hbase : n = b + 1 → 0 < b → get nd.log b = none ∧ getTerm nd.log b = termAt w b) (id : N) :
    NamesPredecessor nd w id i n := by
  obtain ⟨hsnap, hnext, hn, hle⟩ := hask
  rw [h.lastIndex_eq hread] at hle
  have hmax : max ((nd.peerNextIndex[i]?).getD 0) 1 = n := by
    rw [hnext, Option.getD_some]; omega
  have hinstall : shouldInstallSnapshot n nd.lastSnapshotIndex = false := by
    rw [hsnap]
    exact decide_eq_false (by omega)
  obtain ⟨c, hprev⟩ := h.predecessor hread hn hle hbase
  have hreq : nd.buildPeerReq id i = {
      id := id, idx := i, next := n, prev := ⟨termAt w (n - 1), n - 1, c⟩
      entries := (w.drop (n - 1)).take maxAppendBatch } := by
    unfold buildPeerReq
    dsimp only
    rw [hmax, hinstall, h.getRange_eq hread hn, hprev]
    rfl
  have hconsec := numbered_from hnum hn
  refine ⟨fun later t => by rw [hreq]; rfl, hconsec, fun rsp later hok hi => ?_⟩
  rw [hreq, last_index (by omega) hconsec]
  simp only [PeerReq.onAppend, hok, if_true, recordPeerRsp]
  rw [getElem?_set_self hi]

end Request

/-! ## The two storages -/

section Storages

variable [CommandText N C]

lemma segmentLog_anchorFirst : AnchorFirst (L := SegmentLog (LogEntry N C)) SegmentLog.anchor := fun _ _ => rfl

/-- The sentinel of a compacted `CommandLog` has index 0, and the request for the first index above it says so. -/
lemma CommandLogRep.not_namesPredecessor {nd : RaftNode N C (CommandLog N C)} {a : BaseLog (LogEntry N C)}
    (h : CommandLogRep nd.log a) (hpos : 0 < a.base) {i : ℕ} (hask : Asks nd a.base i (a.base + 1))
    (w : List (LogEntry N C)) (id : N) : ¬ NamesPredecessor nd w id i (a.base + 1) := by
  intro hnames
  obtain ⟨hsnap, hnext, -, -⟩ := hask
  have hget : LogStorage.get nd.log a.base = some .blank := by
    show CommandLog.get nd.log a.base = some .blank
    unfold CommandLog.get
    rw [h.base, h.lastIndex, if_neg (by unfold BaseLog.lastIndex; omega), if_pos rfl]
  have hreq := hnames.request nd 0
  unfold buildPeerReq at hreq
  dsimp only at hreq
  rw [hnext, hsnap, Option.getD_some, max_eq_left (by omega), shouldInstallSnapshot, decide_eq_false (by omega),
    if_pos (by omega : 1 < a.base + 1), Nat.add_sub_cancel, hget] at hreq
  simp [Cluster.buildRequest, LogEntry.blank] at hreq
  omega

end Storages

end MaxRedis.Storage

/-
One accepted `AppendEntries` request, on a log without compaction.

`Raft.Conflict` compares the receiver's log with the whole log of the leader.
-/
import MaxRedis.Raft.Conflict

namespace MaxRedis.Raft

open LogStorage LawfulLog RaftNode List

variable {N C L : Type} [LogStorage N C L] [LawfulLog N C L] (nd : RaftNode N C L)

def NumberedFrom (k : ℕ) (es : List (LogEntry N C)) : Prop := ∀ i e, es[i]? = some e → e.index = k + i + 1

def Coherent (E es : List (LogEntry N C)) : Prop := ∀ x ∈ E, ∀ y ∈ es, x.index = y.index → x.term = y.term → x = y

section Entries
variable {k : ℕ} {e : LogEntry N C} {es E : List (LogEntry N C)}

lemma NumberedFrom.head (h : NumberedFrom k (e :: es)) : e.index = k + 1 := h 0 e rfl

lemma NumberedFrom.tail (h : NumberedFrom k (e :: es)) : NumberedFrom (k + 1) es := by
  intro i x hx
  have := h (i + 1) x (by simpa using hx)
  omega

lemma NumberedFrom.lt (h : NumberedFrom k es) (he : e ∈ es) : k < e.index := by
  obtain ⟨i, hi⟩ := getElem?_of_mem he
  have := h i e hi
  omega

lemma NumberedFrom.getLast (h : NumberedFrom k es) (hl : es.getLast? = some e) : e.index = k + es.length := by
  have hpos : 0 < es.length := length_pos_iff.2 (by rintro rfl; simp at hl)
  rw [getLast?_eq_getElem?] at hl
  have := h _ e hl
  omega

lemma Coherent.of_below (h : NumberedFrom k es) (hE : ∀ x ∈ E, x.index ≤ k) : Coherent E es := by
  intro x hx y hy heq _
  have h1 := hE x hx
  have h2 := h.lt hy
  omega

end Entries

/-! ## The loop -/

theorem appendLoop_cut (es : List (LogEntry N C)) (l : L) (k : ℕ) (hp : Plain l) (hk : k ≤ (entries l).length)
    (hidx : NumberedFrom k es) (hc : Coherent (entries l) es) :
    ∃ l', appendLoop l es = (l', false) ∧ Plain l' ∧ (entries l).take k ++ es <+: entries l' := by
  induction es generalizing l k with
  | nil => exact ⟨l, rfl, hp, by rw [append_nil]; exact take_prefix _ _⟩
  | cons e es ih =>
    have hei : e.index = k + 1 := hidx.head
    -- once the entry has been written, it is the last one
    have hwrite : ∀ l1 : L, Plain l1 → entries l1 = (entries l).take k ++ [e] →
        ∃ l', appendLoop l1 es = (l', false) ∧ Plain l' ∧ (entries l).take k ++ e :: es <+: entries l' := by
      intro l1 hp1 he1
      have hlen : (entries l1).length = k + 1 := by rw [he1]; simp [hk]
      have hbelow : ∀ x ∈ entries l1, x.index ≤ k + 1 := by
        intro x hx
        obtain ⟨i, hi⟩ := getElem?_of_mem hx
        have h1 := index_eq l1 hp1.whole i x hi
        have h2 := (List.getElem?_eq_some_iff.1 hi).1
        omega
      obtain ⟨l', h1, h2, h3⟩ := ih l1 (k + 1) hp1 hlen.ge hidx.tail (.of_below hidx.tail hbelow)
      refine ⟨l', h1, h2, ?_⟩
      rw [take_of_length_le hlen.le, he1, append_assoc] at h3
      exact h3
    have hwritten : ({ e with index := k + 1 } : LogEntry N C) = e := by rw [← hei]
    simp only [appendLoop]
    rw [lastIndex_eq l hp.whole, hei]
    by_cases hin : k + 1 ≤ (entries l).length
    · have hget : (entries l)[k]? = some (entries l)[k] := getElem?_eq_getElem hin
      rw [if_pos hin, get_eq l hp.whole, hget, Option.map_some]
      by_cases hterm : ((entries l)[k]).term = e.term
      · -- the entry is there already
        rw [if_pos (by rw [hterm])]
        have hxi : ((entries l)[k]).index = e.index := by rw [index_eq l hp.whole k _ hget, hei]
        have hxe : (entries l)[k] = e := hc _ (getElem_mem hin) e mem_cons_self hxi hterm
        obtain ⟨l', h1, h2, h3⟩ :=
          ih l (k + 1) hp hin hidx.tail (fun x hx y hy => hc x hx y (mem_cons_of_mem _ hy))
        refine ⟨l', h1, h2, ?_⟩
        rw [take_succ_of_getElem? (hget.trans (congrArg some hxe)), append_assoc] at h3
        exact h3
      · rw [if_neg (by simpa using hterm)]
        have hpt := truncate_plain l k hp hk
        refine hwrite _ (append_plain _ _ _ hpt) ?_
        rw [Nat.add_sub_cancel, append_eq _ _ _ hpt.whole, truncate_eq l k hp.whole hk, length_take,
          Nat.min_eq_left hk, hwritten]
    · have hlen : (entries l).length = k := by omega
      rw [if_neg hin, if_pos (by rw [hlen])]
      refine hwrite _ (append_plain _ _ _ hp) ?_
      rw [append_eq _ _ _ hp.whole, hlen, hwritten, take_of_length_le hlen.le]

lemma appendLoop_there (es : List (LogEntry N C)) (l : L)
    (h : ∀ e ∈ es, e.index ≤ lastIndex l ∧ (get l e.index).map LogEntry.term = some e.term) :
    appendLoop l es = (l, false) := by
  induction es with
  | nil => rfl
  | cons e _ ih =>
    obtain ⟨hle, hterm⟩ := h e mem_cons_self
    simp only [appendLoop]
    rw [if_pos hle, if_pos hterm]
    exact ih (fun x hx => h x (mem_cons_of_mem _ hx))

lemma truncateTail_cut {es w : List (LogEntry N C)} {l : L} (hp : Plain l) (hne : es ≠ [])
    (hidx : NumberedFrom w.length es) (hpre : w ++ es <+: entries l) : entries (truncateTail l es) = w ++ es := by
  obtain ⟨last, hlast⟩ : ∃ last, es.getLast? = some last := ⟨_, getLast?_eq_some_getLast hne⟩
  have hli := hidx.getLast hlast
  have hle := truncateTail_length l hp hlast
  obtain ⟨-, he | ⟨last', hlast', hlt, he⟩⟩ := truncateTail_spec l hp es
  · rw [he] at hle ⊢
    exact (hpre.eq_of_length_le (by rw [length_append]; omega)).symm
  · rw [hlast] at hlast'
    obtain rfl := Option.some.inj hlast'
    rw [he, hli, ← length_append]
    exact (prefix_iff_eq_take.1 hpre).symm

/-! ## Committing twice -/

lemma applyCommittedLogsLocked_done
    (h : nd.commitIndex ≤ nd.lastApplied ∨ lastIndex nd.log ≤ nd.lastApplied) : nd.applyCommittedLogsLocked = nd := by
  unfold applyCommittedLogsLocked
  rw [applyLoop, if_neg (by omega)]

theorem commitFromLeader_again (lc : ℕ) (hw : Whole nd.log) :
    (nd.commitFromLeader lc).commitFromLeader lc = nd.commitFromLeader lc := by
  by_cases hlt : nd.commitIndex < lc
  · set mid : RaftNode N C L := { nd with commitIndex := min lc (lastIndex nd.log) } with hmid
    have he : nd.commitFromLeader lc = mid.applyCommittedLogsLocked := by unfold commitFromLeader; rw [if_pos hlt]
    have happ := applyCommittedLogsLocked_applies mid
    have hwhole : Whole mid.applyCommittedLogsLocked.log := happ.log.whole hw
    have hlast : lastIndex mid.applyCommittedLogsLocked.log = lastIndex nd.log := by
      rw [lastIndex_eq _ hwhole, happ.log.entries, lastIndex_eq _ hw]
    have hdone : mid.applyCommittedLogsLocked.lastApplied =
      max nd.lastApplied (min (min lc (lastIndex nd.log)) (entries nd.log).length) :=
      (applyCommittedLogsLocked_eq mid hw).1
    have hcommit : mid.applyCommittedLogsLocked.commitIndex = min lc (lastIndex nd.log) := happ.commit
    unfold commitFromLeader
    split_ifs with hagain
    · have hsame : ({ mid.applyCommittedLogsLocked with
          commitIndex := min lc (lastIndex mid.applyCommittedLogsLocked.log) } : RaftNode N C L) =
          mid.applyCommittedLogsLocked := by
        rw [hlast, ← hcommit]
      rw [hsame]
      refine applyCommittedLogsLocked_done _ (Or.inl ?_)
      rw [hcommit, hdone, lastIndex_eq _ hw]
      omega
    · rfl
  · have he : nd.commitFromLeader lc = nd := by unfold commitFromLeader; rw [if_neg hlt]
    rw [he, he]

/-! ## The request -/

lemma onAppendEntries_there {nd : RaftNode N C L} {req : AppendEntriesRequest N C} {w : List (LogEntry N C)}
    (hp : Plain nd.log) (hterm : nd.term = req.term) (hlen : req.entries.length ≤ maxAppendBatch)
    (hne : req.entries ≠ []) (hw : w.length = req.prevLogIndex) (hidx : NumberedFrom req.prevLogIndex req.entries)
    (hlog : entries nd.log = w ++ req.entries)
    (hprev : 0 < req.prevLogIndex → getTerm nd.log req.prevLogIndex = req.prevLogTerm) :
    nd.onAppendEntries req = (nd.commitFromLeader req.leaderCommit, ⟨req.term, true, lastIndex nd.log⟩) := by
  have hlast : lastIndex nd.log = req.prevLogIndex + req.entries.length := by
    rw [lastIndex_eq _ hp.whole, hlog, length_append, hw]
  have hloop : appendLoop nd.log (req.entries.take maxAppendBatch) = (nd.log, false) := by
    rw [take_of_length_le hlen]
    refine appendLoop_there _ _ (fun e he => ?_)
    obtain ⟨i, hi⟩ := getElem?_of_mem he
    have hlt := (List.getElem?_eq_some_iff.1 hi).1
    have hget : get nd.log (req.prevLogIndex + i + 1) = some e := by
      rw [get_eq _ hp.whole, hlog, getElem?_append_right (by omega), hw, Nat.add_sub_cancel_left, hi]
    rw [hidx i e hi, hget]
    exact ⟨by omega, rfl⟩
  have htail : truncateTail nd.log req.entries = nd.log := by
    unfold truncateTail
    rw [getLast?_eq_some_getLast hne]
    dsimp only
    rw [if_neg (by rw [hidx.getLast (getLast?_eq_some_getLast hne)]; omega)]
  unfold onAppendEntries
  rw [if_neg (by omega)]
  simp only [if_neg (show ¬ nd.term < req.term by omega)]
  rw [if_neg (by omega), if_neg (fun h => h.2 (hprev h.1)), hloop]
  dsimp only
  rw [htail, (commitFromLeader_same nd req.leaderCommit).term, hterm]

/-- **An accepted request, delivered twice.** -/
theorem accepted_append (nd : RaftNode N C L) (req : AppendEntriesRequest N C) (hp : Plain nd.log)
    (hlen : req.entries.length ≤ maxAppendBatch) (hidx : NumberedFrom req.prevLogIndex req.entries)
    (hc : Coherent (entries nd.log) req.entries) (hne : req.entries ≠ [])
    (hok : (nd.onAppendEntries req).2.success = true) :
    entries (nd.onAppendEntries req).1.log = (entries nd.log).take req.prevLogIndex ++ req.entries ∧
    (nd.onAppendEntries req).2.lastLogIndex = lastIndex (nd.onAppendEntries req).1.log ∧
    (nd.onAppendEntries req).1.onAppendEntries req = nd.onAppendEntries req := by
  have htake : req.entries.take maxAppendBatch = req.entries := take_of_length_le hlen
  rcases onAppendEntries_spec nd req with ⟨-, h⟩ | ⟨hterm, ⟨hint, h⟩ | ⟨hprev, hprevTerm, log, ⟨-, h⟩ | ⟨hloop, h⟩⟩⟩
  · rw [h] at hok; cases hok
  · rw [h] at hok; cases hok
  · rw [h] at hok; cases hok
  rw [htake] at hloop
  have hk : req.prevLogIndex ≤ (entries nd.log).length := by rw [← lastIndex_eq _ hp.whole]; exact hprev
  have hw : ((entries nd.log).take req.prevLogIndex).length = req.prevLogIndex := by rw [length_take]; omega
  obtain ⟨l', hl', hp', hpre⟩ := appendLoop_cut req.entries nd.log _ hp hk hidx hc
  obtain rfl : l' = log := by rw [hl'] at hloop; exact congrArg Prod.fst hloop
  have hcut := truncateTail_cut hp' hne (by rw [hw]; exact hidx) hpre
  have hplain := (truncateTail_spec l' hp' req.entries).1
  set cut := truncateTail l' req.entries with hcutdef
  set mid : RaftNode N C L := { nd.observe req.term with log := cut } with hmid
  have hlog : SameLog cut (mid.commitFromLeader req.leaderCommit).log := (commitFromLeader_log mid req.leaderCommit).1
  have hplain' := hlog.plain hplain
  have hentries : entries (mid.commitFromLeader req.leaderCommit).log =
    (entries nd.log).take req.prevLogIndex ++ req.entries :=
    hlog.entries.trans hcut
  have hlast : lastIndex (mid.commitFromLeader req.leaderCommit).log = lastIndex cut := by
    rw [lastIndex_eq _ hplain'.whole, hlog.entries, lastIndex_eq _ hplain.whole]
  have hnewTerm : (mid.commitFromLeader req.leaderCommit).term = req.term := by
    rw [(commitFromLeader_same mid req.leaderCommit).term]
    show (nd.observe req.term).term = req.term
    rw [observe_term]; omega
  rw [h]
  refine ⟨hentries, hlast.symm, ?_⟩
  -- the second time everything is there
  have hprevTerm' : 0 < req.prevLogIndex →
    getTerm (mid.commitFromLeader req.leaderCommit).log req.prevLogIndex = req.prevLogTerm := by
    intro hpos
    rw [← hprevTerm hpos]
    obtain ⟨i, hi⟩ : ∃ i, req.prevLogIndex = i + 1 := ⟨req.prevLogIndex - 1, by omega⟩
    rw [hi, getTerm_eq _ hplain', getTerm_eq _ hp, hentries, getElem?_append_left (by rw [hw]; omega),
      getElem?_take_of_lt (by omega)]
  rw [onAppendEntries_there hplain' hnewTerm hlen hne hw hidx hentries hprevTerm',
    commitFromLeader_again mid req.leaderCommit hplain.whole, hlast]

def lateFollower : RaftNode (Fin 2) ℕ (CommandLog (Fin 2) ℕ) where
  nodeId := 1
  log := [4, 5, 6].foldl (fun l c => append l ⟨1, 0, .client c⟩ true) empty
  storage := { currentTerm := 1 }

def rewriteTail : AppendEntriesRequest (Fin 2) ℕ := ⟨2, 0, 1, 1, [⟨1, 2, .client 5⟩, ⟨2, 3, .client 7⟩], 2⟩

theorem accepted_append_rewriteTail : entries (lateFollower.onAppendEntries rewriteTail).1.log =
      [⟨1, 1, .client 4⟩, ⟨1, 2, .client 5⟩, ⟨2, 3, .client 7⟩] ∧
    (lateFollower.onAppendEntries rewriteTail).1.onAppendEntries rewriteTail =
    lateFollower.onAppendEntries rewriteTail := by
  have hp : Plain lateFollower.log := append_plain _ _ _ (append_plain _ _ _ (append_plain _ _ _ plain_empty))
  have hidx : NumberedFrom rewriteTail.prevLogIndex rewriteTail.entries := by
    intro i e he
    rcases i with _ | _ | i
    · obtain rfl := Option.some.inj he; rfl
    · obtain rfl := Option.some.inj he; rfl
    · cases he
  have hc : Coherent (entries lateFollower.log) rewriteTail.entries := by unfold Coherent; decide +kernel
  obtain ⟨h1, -, h3⟩ := accepted_append lateFollower rewriteTail hp (by decide) hidx hc (by decide) (by decide +kernel)
  exact ⟨h1, h3⟩

end MaxRedis.Raft

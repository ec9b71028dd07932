/-
The transfer of `snapshot.bin` in chunks (`snapshot_sender.cc`, `snapshot_receiver.cc`).
-/
import Mathlib.Tactic

namespace MaxRedis.Snapshot

open List

structure InstallSnapshotRequest where
  term : ℕ
  lastIncludedIndex : ℕ
  lastIncludedTerm : ℕ
  offset : ℕ
  done : Bool
  data : List UInt8
  deriving DecidableEq, Repr

structure InstallSnapshotResponse where
  term : ℕ := 0
  success : Bool := false
  deriving DecidableEq, Repr

/-! ## The receiver -/

structure SnapshotReceiver where
  tmp : Option (List UInt8) := none
  bin : Option (List UInt8) := none
  deriving DecidableEq, Repr

namespace SnapshotReceiver

def init (r : SnapshotReceiver) : SnapshotReceiver := { r with tmp := none }

def stale (r : SnapshotReceiver) : List UInt8 := r.tmp.getD []

def handleChunk (r : SnapshotReceiver) (request : InstallSnapshotRequest) :
    SnapshotReceiver × InstallSnapshotResponse :=
  -- opened with "ab": `request.offset` is sought and the write still goes to the end
  let tmp := r.stale ++ request.data
  -- the final chunk renames the file
  (if request.done then { tmp := none, bin := some tmp } else { r with tmp := some tmp }, ⟨request.term, true⟩)

end SnapshotReceiver

/-! ## The sender -/

/-- what becomes of a chunk: it never arrives, the node refuses it and answers with its term, the receiver handles it
and the answer is lost, or the answer arrives -/
inductive Fate where
  | lost
  | refused (term : ℕ)
  | unanswered
  | answered
  deriving DecidableEq, Repr

def sendInstallSnapshot (fate : Fate) (r : SnapshotReceiver) (req : InstallSnapshotRequest) :
    SnapshotReceiver × InstallSnapshotResponse :=
  match fate with
  | .lost => (r, {})
  | .refused term => (r, ⟨term, false⟩)
  | .unanswered => ((r.handleChunk req).1, {})
  | .answered => r.handleChunk req

def chunkSize : ℕ := 65536

/-- a call of `SendSnapshot`: the file as it is when it is opened, the arguments, and the fates of the chunks -/
structure Transfer where
  file : List UInt8
  term : ℕ
  lastIncludedIndex : ℕ
  lastIncludedTerm : ℕ
  fates : List Fate

namespace Transfer

def chunk (t : Transfer) (offset : ℕ) : InstallSnapshotRequest :=
  let toRead := if t.file.length < offset + chunkSize then t.file.length - offset else chunkSize
  let data := (t.file.drop offset).take toRead
  ⟨t.term, t.lastIncludedIndex, t.lastIncludedTerm, offset, t.file.length ≤ offset + data.length, data⟩

def sendFrom (t : Transfer) : List Fate → ℕ → SnapshotReceiver → Bool × SnapshotReceiver
  | fates, offset, r =>
    if t.file.length ≤ offset then (true, r)
    else
      match fates with
      | [] => (false, r)
      | fate :: fates =>
        let (r, rsp) := sendInstallSnapshot fate r (t.chunk offset)
        if t.term < rsp.term then (false, r)
        else if !rsp.success then (false, r)
        else t.sendFrom fates (offset + (t.chunk offset).data.length) r

def sendSnapshot (t : Transfer) (r : SnapshotReceiver) : Bool × SnapshotReceiver := t.sendFrom t.fates 0 r

end Transfer

inductive Event where
  | transfer (t : Transfer)
  | init

def SnapshotReceiver.after (r : SnapshotReceiver) (history : List Event) : SnapshotReceiver :=
  history.foldl (fun r e => match e with
    | .transfer t => (t.sendSnapshot r).2
    | .init => r.init) r

lemma SnapshotReceiver.after_transfer (r : SnapshotReceiver) (t : Transfer) :
    r.after [.transfer t] = (t.sendSnapshot r).2 := rfl

/-! ## What a completed transfer leaves -/

namespace Transfer

variable (t : Transfer) {offset : ℕ} {fates : List Fate} {r r' : SnapshotReceiver}

lemma length_chunk (offset : ℕ) : (t.chunk offset).data.length = min chunkSize (t.file.length - offset) := by
  unfold chunk
  split_ifs with h
  · rw [length_take, length_drop]; omega
  · rw [length_take, length_drop]

lemma chunk_data (offset : ℕ) :
    t.file.drop offset = (t.chunk offset).data ++ t.file.drop (offset + (t.chunk offset).data.length) := by
  have hlen := t.length_chunk offset
  have hdata : (t.chunk offset).data = (t.file.drop offset).take (t.chunk offset).data.length := by
    unfold chunk
    rw [length_take, ← take_take, take_take, length_drop]
    split_ifs with h
    · simp
    · simp only [take_eq_take_iff, length_drop]; omega
  conv_lhs => rw [← take_append_drop (t.chunk offset).data.length (t.file.drop offset), ← hdata, drop_drop]

lemma chunk_done (offset : ℕ) :
    (t.chunk offset).done = decide (t.file.length ≤ offset + (t.chunk offset).data.length) := rfl

lemma sendFrom_end (h : t.file.length ≤ offset) (fates : List Fate) (r : SnapshotReceiver) :
    t.sendFrom fates offset r = (true, r) := by
  cases fates <;> rw [sendFrom, if_pos h]

lemma sendFrom_answered (ho : offset < t.file.length) (fates : List Fate) (r : SnapshotReceiver) :
    t.sendFrom (.answered :: fates) offset r =
      t.sendFrom fates (offset + (t.chunk offset).data.length) (r.handleChunk (t.chunk offset)).1 := by
  have hterm : ¬t.term < (r.handleChunk (t.chunk offset)).2.term := lt_irrefl t.term
  rw [sendFrom, if_neg (by omega)]
  dsimp only [sendInstallSnapshot]
  rw [if_neg hterm, if_neg (by simp [SnapshotReceiver.handleChunk])]

lemma sendFrom_cons {fate : Fate} (h : t.sendFrom (fate :: fates) offset r = (true, r')) (ho : offset < t.file.length) :
    t.sendFrom fates (offset + (t.chunk offset).data.length) (r.handleChunk (t.chunk offset)).1 = (true, r') := by
  cases fate with
  | answered => rwa [t.sendFrom_answered ho] at h
  | lost | refused | unanswered => rw [sendFrom, if_neg (by omega)] at h; simp [sendInstallSnapshot] at h

lemma sendFrom_bin (ho : offset < t.file.length)
    (h : t.sendFrom fates offset r = (true, r')) : r'.bin = some (r.stale ++ t.file.drop offset) := by
  induction fates generalizing offset r with
  | nil => rw [sendFrom, if_neg (by omega)] at h; simp at h
  | cons _ _ ih =>
    have hnext := t.sendFrom_cons h ho
    have hsplit := t.chunk_data offset
    by_cases hdone : t.file.length ≤ offset + (t.chunk offset).data.length
    · -- the final chunk: the file is renamed and the loop ends
      have hend : t.file.drop (offset + (t.chunk offset).data.length) = [] := drop_eq_nil_of_le hdone
      have hr' : r' = (r.handleChunk (t.chunk offset)).1 := by
        rw [t.sendFrom_end hdone] at hnext
        exact (Prod.mk.inj hnext).2.symm
      rw [hend, append_nil] at hsplit
      rw [hr', SnapshotReceiver.handleChunk, if_pos (by rw [chunk_done]; simpa using hdone), hsplit]
    · have hbin := ih (by omega) hnext
      rw [hbin, hsplit, SnapshotReceiver.handleChunk, if_neg (by rw [chunk_done]; simpa using hdone)]
      simp [SnapshotReceiver.stale, ← hsplit]

/-- **A completed transfer** leaves the temporary file's bytes followed by the sender's file. -/
theorem sendSnapshot_bin (r : SnapshotReceiver) (hne : t.file ≠ []) (h : (t.sendSnapshot r).1 = true) :
    (t.sendSnapshot r).2.bin = some (r.stale ++ t.file) := by
  have hpos : 0 < t.file.length := length_pos_of_ne_nil hne
  have hsend : t.sendFrom t.fates 0 r = (true, (t.sendSnapshot r).2) := Prod.ext h rfl
  simpa using t.sendFrom_bin hpos hsend

end Transfer

/-- **Transfers are exact** when the receiver's temporary file is absent or empty, and only then, whatever happened
before. -/
theorem transfer_exact (r : SnapshotReceiver) (history : List Event) (t : Transfer) (hne : t.file ≠ [])
    (h : (t.sendSnapshot (r.after history)).1 = true) :
    (t.sendSnapshot (r.after history)).2.bin = some t.file ↔ (r.after history).stale = [] := by
  rw [t.sendSnapshot_bin _ hne h]
  simp

/-- a transfer of one chunk whose answer is lost, and a second attempt -/
theorem transfer_exact_again : (Transfer.sendSnapshot ⟨[7], 1, 1, 1, [.answered]⟩
      (SnapshotReceiver.after {} [.transfer ⟨[5, 6], 1, 1, 1, [.unanswered]⟩])).2.bin = some [7] :=
  (transfer_exact {} [.transfer ⟨[5, 6], 1, 1, 1, [.unanswered]⟩] ⟨[7], 1, 1, 1, [.answered]⟩ (by decide) (by decide)).2
    (by decide)

lemma Transfer.cut_after_first (t : Transfer) (r : SnapshotReceiver) (hlong : chunkSize < t.file.length)
    (hf : t.fates = [.answered, .lost]) : (t.sendSnapshot r).2.stale = r.stale ++ t.file.take chunkSize := by
  have hpos : 0 < t.file.length := by omega
  have hdata : (t.chunk 0).data = t.file.take chunkSize := by
    unfold chunk
    rw [if_neg (by omega), drop_zero]
  have hlen : (t.chunk 0).data.length = chunkSize := by rw [hdata, length_take]; omega
  have hmore : (t.chunk 0).done = false := by rw [chunk_done, hlen]; simpa using hlong
  rw [sendSnapshot, hf, t.sendFrom_answered hpos, hlen, sendFrom, if_neg (by omega)]
  simp [sendInstallSnapshot, SnapshotReceiver.handleChunk, SnapshotReceiver.stale, hmore, hdata]

def cutOff : Transfer := ⟨List.replicate (chunkSize + 1) 0, 1, 1, 1, [.answered, .lost]⟩

/-- **The chunks of a transfer that was cut off stay in front.** -/
theorem stale_chunk_kept :
    (Transfer.sendSnapshot ⟨[7], 1, 1, 1, [.answered]⟩ (SnapshotReceiver.after {} [.transfer cutOff])).1 = true ∧
    (Transfer.sendSnapshot ⟨[7], 1, 1, 1, [.answered]⟩ (SnapshotReceiver.after {} [.transfer cutOff])).2.bin ≠
      some [7] := by
  have hok : ∀ r, (Transfer.sendSnapshot ⟨[7], 1, 1, 1, [.answered]⟩ r).1 = true := by
    intro r
    simp [Transfer.sendSnapshot, Transfer.sendFrom, Transfer.chunk, chunkSize, sendInstallSnapshot,
      SnapshotReceiver.handleChunk]
  have hlen : cutOff.file.length = chunkSize + 1 := by rw [cutOff, length_replicate]
  have hstale : (SnapshotReceiver.after {} [.transfer cutOff]).stale.length = chunkSize := by
    rw [SnapshotReceiver.after_transfer,
      cutOff.cut_after_first {} (by omega) rfl, length_append, length_take, hlen]
    simp [SnapshotReceiver.stale]
  refine ⟨hok _, ?_⟩
  rw [Transfer.sendSnapshot_bin _ _ (by simp) (hok _)]
  intro h
  have hone := congrArg length (Option.some.inj h)
  rw [length_append, hstale] at hone
  simp [chunkSize] at hone

end MaxRedis.Snapshot

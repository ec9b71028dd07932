/-
The writer of a segment when writes fail.

`Flush` and `WriteNoSync` hand the buffer to `fwrite` and clear it only if everything after that succeeds.
-/
import MaxRedis.Core.Run
import MaxRedis.Storage.Wal

namespace MaxRedis.Storage

open Bytes WalEntry List

/-- what the operating system reports of one write: the bytes that `fwrite` accepts, and the success of `fflush` and
`fdatasync` -/
structure IoReport where
  written : ℕ
  flushed : Bool
  synced : Bool
  deriving DecidableEq

namespace WalWriter

/-- a write with errors, and what it returns; `sync` is whether `fdatasync` is called -/
def writeWith (sync : Bool) (w : WalWriter) (f : SegFile) (io : IoReport) : (WalWriter × SegFile) × Bool :=
  if w.buf = [] then ((w, f), true)
  else
    let written := min io.written w.buf.length
    let f := { f with bytes := f.bytes ++ w.buf.take written }
    if written ≠ w.buf.length then ((w, f), false)
    else
      -- from here on the bytes count as written, but the buffer is cleared at the end only
      let w := { w with fileSize := w.fileSize + written }
      if !io.flushed then ((w, f), false)
      else if sync && !io.synced then ((w, f), false)
      else (({ w with buf := [] }, if sync then { f with synced := f.bytes.length } else f), true)

def flushWith (w : WalWriter) (f : SegFile) (io : IoReport) : (WalWriter × SegFile) × Bool := writeWith true w f io

def writeNoSyncWith (w : WalWriter) (f : SegFile) (io : IoReport) : (WalWriter × SegFile) × Bool :=
  writeWith false w f io

def allOrNothing (sync : Bool) (w : WalWriter) (io : IoReport) : Bool :=
  w.buf = [] ∨ io.written = 0 ∨ w.buf.length ≤ io.written ∧ io.flushed ∧ (sync → io.synced)

lemma writeWith_cases {sync : Bool} {w : WalWriter} {f : SegFile} {io : IoReport} (h : allOrNothing sync w io) :
    ((writeWith sync w f io).1.1 = w ∧ (writeWith sync w f io).1.2.bytes = f.bytes) ∨
    ((writeWith sync w f io).1.1 = ⟨w.fileSize + w.buf.length, []⟩ ∧
      (writeWith sync w f io).1.2.bytes = f.bytes ++ w.buf) := by
  rw [allOrNothing, decide_eq_true_eq] at h
  unfold writeWith
  by_cases hbuf : w.buf = []
  · rw [if_pos hbuf]
    exact Or.inl ⟨rfl, rfl⟩
  have hpos := length_pos_iff.2 hbuf
  rw [if_neg hbuf]
  rcases h with hnil | hzero | ⟨hall, hflush, hsync⟩
  · exact absurd hnil hbuf
  · rw [hzero, Nat.zero_min, if_pos (by omega)]
    exact Or.inl ⟨rfl, by simp⟩
  · have hsync' : (sync && !io.synced) = false := by
      cases sync with
      | false => rfl
      | true => rw [hsync rfl]; rfl
    rw [Nat.min_eq_right hall, if_neg (not_not.2 rfl), hflush, hsync', take_length]
    cases sync with
    | false | true => exact Or.inr ⟨rfl, rfl⟩

end WalWriter

section Calls
variable {E : Type} [WalEntry E] {t : WalWriter × SegFile} {es : List E}

inductive IoCall (E : Type) where
  | append (e : E)
  | flush (io : IoReport)
  | writeNoSync (io : IoReport)

namespace IoCall

def on (t : WalWriter × SegFile) : IoCall E → WalWriter × SegFile
  | .append e => (t.1.append e, t.2)
  | .flush io => (t.1.flushWith t.2 io).1
  | .writeNoSync io => (t.1.writeNoSyncWith t.2 io).1

def entry : IoCall E → List E
  | .append e => [e]
  | .flush _ => []
  | .writeNoSync _ => []

def clean (t : WalWriter × SegFile) : IoCall E → Bool
  | .append _ => true
  | .flush io => WalWriter.allOrNothing true t.1 io
  | .writeNoSync io => WalWriter.allOrNothing false t.1 io

end IoCall

/-- the file and the buffer behind it are the records of the entries, and `file_size_` is the size of the file -/
structure Exact (t : WalWriter × SegFile) (es : List E) : Prop where
  bytes : t.2.bytes ++ t.1.buf = writeAll record es
  size : t.1.fileSize = t.2.bytes.length

lemma Exact.write (h : Exact t es) {sync : Bool} {io : IoReport}
    (hio : WalWriter.allOrNothing sync t.1 io) : Exact (WalWriter.writeWith sync t.1 t.2 io).1 es := by
  rcases WalWriter.writeWith_cases (f := t.2) hio with ⟨hw, hf⟩ | ⟨hw, hf⟩
  · exact ⟨by rw [hw, hf, h.bytes], by rw [hw, hf, h.size]⟩
  · exact ⟨by rw [hw, hf, append_nil, h.bytes], by rw [hw, hf, h.size, length_append]⟩

lemma step_exact (h : Exact t es) (c : IoCall E) (hc : c.clean t) :
    Exact (c.on t) (es ++ c.entry) := by
  cases c with
  | append e =>
    refine ⟨?_, h.size⟩
    show t.2.bytes ++ (t.1.buf ++ record e) = writeAll record (es ++ [e])
    rw [← append_assoc, h.bytes, writeAll_append, writeAll_cons, writeAll_nil, append_nil]
  | flush | writeNoSync =>
    rw [IoCall.entry, append_nil]
    exact h.write hc

lemma run_exact (h : Exact t es) {cs : List (IoCall E)}
    (hcs : Run.along IoCall.on IoCall.clean t cs) : Exact (Run.run IoCall.on t cs) (es ++ cs.flatMap IoCall.entry) := by
  induction cs generalizing t es with
  | nil => simpa [Run.run] using h
  | cons c _ ih =>
    obtain ⟨hc, hrest⟩ := Bool.and_eq_true_iff.1 hcs
    rw [flatMap_cons, ← append_assoc]
    exact ih (step_exact h c hc) hrest

lemma Exact.next (h : Exact t es) (e : E) :
    ∃ before, ((t.1.append e).flush t.2).2.bytes = before ++ record e ∧ before.length = t.1.nextWriteOffset := by
  have hne : t.1.buf ++ record e ≠ [] := by
    have := record_pos e
    intro hnil
    rw [(append_eq_nil_iff.1 hnil).2] at this
    exact absurd this (by simp)
  refine ⟨t.2.bytes ++ t.1.buf, ?_, ?_⟩
  · unfold WalWriter.flush WalWriter.append
    rw [if_neg hne, append_assoc]
  · rw [length_append, WalWriter.nextWriteOffset, h.size]

/-- **Write errors do no harm if each write does all or nothing.** -/
theorem write_errors_harmless (cs : List (IoCall E)) (h : Run.along IoCall.on IoCall.clean ({}, {}) cs) :
    (Run.run IoCall.on ({}, {}) cs).2.bytes <+: writeAll record (cs.flatMap IoCall.entry) ∧
    ∀ e : E, ∃ before, (((Run.run IoCall.on ({}, {}) cs).1.append e).flush (Run.run IoCall.on ({}, {}) cs).2).2.bytes =
        before ++ record e ∧ before.length = (Run.run IoCall.on ({}, {}) cs).1.nextWriteOffset := by
  have hexact : Exact (Run.run IoCall.on ({}, {}) cs) ([] ++ cs.flatMap IoCall.entry) := run_exact ⟨rfl, rfl⟩ h
  rw [nil_append] at hexact
  exact ⟨⟨_, hexact.bytes⟩, hexact.next⟩

end Calls

/-- the first write is refused as a whole, the second one succeeds -/
theorem write_errors_harmless_refused :
    (Run.run IoCall.on ({}, {}) [.append (⟨1, 1, [65]⟩ : RawEntry), .flush ⟨0, true, true⟩,
      .writeNoSync ⟨25, true, true⟩]).2.bytes <+: writeAll record [(⟨1, 1, [65]⟩ : RawEntry)] :=
  (write_errors_harmless [.append (⟨1, 1, [65]⟩ : RawEntry), .flush ⟨0, true, true⟩, .writeNoSync ⟨25, true, true⟩]
    (by decide +kernel)).1

/-- **A short write repeats bytes**: `fwrite` accepts one byte of the record, and the next call writes the whole record
behind it. -/
theorem short_write_repeats :
    let t := Run.run IoCall.on ({}, {}) [.append (⟨1, 1, [65]⟩ : RawEntry), .writeNoSync ⟨1, true, true⟩,
      .flush ⟨25, true, true⟩]
    ¬ t.2.bytes <+: writeAll record [(⟨1, 1, [65]⟩ : RawEntry)] ∧ t.2.bytes.length = 26 ∧ t.1.nextWriteOffset = 25 := by
  decide +kernel

end MaxRedis.Storage

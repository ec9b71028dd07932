/-
Runs of a machine whose step is a function, and what holds along them.

`along step p s es`: every step of the run meets the condition `p`, which may look at the state before the step and at
the event.
-/
import Mathlib.Data.List.Basic

namespace MaxRedis.Run

variable {σ ε : Type} (step : σ → ε → σ)

def run (s : σ) (es : List ε) : σ := es.foldl step s

def along (p : σ → ε → Bool) : σ → List ε → Bool
  | _, [] => true
  | s, e :: es => p s e && along p (step s e) es

lemma along_run {p : σ → ε → Bool} {inv : σ → Prop} (hstep : ∀ s e, inv s → p s e → inv (step s e)) {s : σ}
    {es : List ε} (hs : inv s) (h : along step p s es) : inv (run step s es) := by
  induction es generalizing s with
  | nil => exact hs
  | cons e _ ih =>
    obtain ⟨he, hes⟩ := Bool.and_eq_true_iff.1 h
    exact ih (hstep s e hs he) hes

end MaxRedis.Run

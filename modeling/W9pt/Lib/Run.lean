import Mathlib

/-!
# Runs of a deterministic machine

A machine answers each input with an output and a next state. `trace` lists the steps of a run, and
the rules below reduce a statement about all steps, or about all ordered pairs of steps, to
statements about one step.

* `trace_forall`: what every step satisfies from a state satisfying an invariant;
* `trace_pairwise`: what a step leaves behind and every later step keeps, so a later step can rely
  on it.
-/

namespace W9pt.Lib

universe u

variable {σ ι ο : Type u}

structure Step (σ ι ο : Type u) where
  before : σ
  input : ι
  output : ο
  after : σ

def stepOf (machine : σ → ι → ο × σ) (s : σ) (i : ι) : Step σ ι ο :=
  ⟨s, i, (machine s i).1, (machine s i).2⟩

def trace (machine : σ → ι → ο × σ) : σ → List ι → List (Step σ ι ο)
  | _, [] => []
  | s, i :: is => stepOf machine s i :: trace machine (machine s i).2 is

def finalState (machine : σ → ι → ο × σ) (s : σ) (is : List ι) : σ :=
  is.foldl (fun s i => (machine s i).2) s

variable {machine : σ → ι → ο × σ}

theorem finalState_append (s : σ) (is js : List ι) :
    finalState machine s (is ++ js) = finalState machine (finalState machine s is) js :=
  List.foldl_append

theorem trace_append (s : σ) (is js : List ι) :
    trace machine s (is ++ js) = trace machine s is ++ trace machine (finalState machine s is) js := by
  induction is generalizing s with
  | nil => rfl
  | cons i is ih =>
    rw [List.cons_append, trace, trace, ih, List.cons_append]
    rfl

theorem input_mem_of_mem_trace {step : Step σ ι ο} {s : σ} {is : List ι}
    (h : step ∈ trace machine s is) : step.input ∈ is := by
  induction is generalizing s with
  | nil => cases h
  | cons i is ih =>
    rcases List.mem_cons.1 h with rfl | h
    · exact List.mem_cons_self
    · exact List.mem_cons_of_mem i (ih h)

/-- An invariant of every step holds of the state a run ends in. -/
theorem finalState_invariant {P : σ → Prop} (keep : ∀ s i, P s → P (machine s i).2) {s : σ}
    (hs : P s) (is : List ι) : P (finalState machine s is) := by
  induction is generalizing s with
  | nil => exact hs
  | cons i is ih => exact ih (keep s i hs)

/-- Every step of a run starts in a state satisfying the invariant. -/
theorem trace_forall {P : σ → Prop} {Q : Step σ ι ο → Prop}
    (keep : ∀ s i, P s → P (machine s i).2) (use : ∀ s i, P s → Q (stepOf machine s i)) {s : σ}
    (hs : P s) (is : List ι) : ∀ step ∈ trace machine s is, Q step := by
  induction is generalizing s with
  | nil => simp [trace]
  | cons i is ih =>
    intro step hstep
    rcases List.mem_cons.1 hstep with rfl | hstep
    · exact use s i hs
    · exact ih (keep s i hs) step hstep

/-- If a step from a state satisfying the invariant leaves `P` behind, every step keeps it and a step
from such a state satisfies `R`, then `R` relates each step of a run to every later one. -/
theorem trace_pairwise {I : σ → Prop} {P : Step σ ι ο → σ → Prop} {R : Step σ ι ο → Step σ ι ο → Prop}
    (invariant : ∀ s i, I s → I (machine s i).2)
    (leave : ∀ s i, I s → P (stepOf machine s i) (machine s i).2)
    (keep : ∀ a s i, I s → P a s → P a (machine s i).2)
    (use : ∀ a s i, I s → P a s → R a (stepOf machine s i)) {s : σ} (hs : I s) (is : List ι) :
    (trace machine s is).Pairwise R := by
  induction is generalizing s with
  | nil => exact List.Pairwise.nil
  | cons i is ih =>
    refine List.pairwise_cons.2 ⟨fun b hb => ?_, ih (invariant s i hs)⟩
    exact trace_forall (P := fun t => I t ∧ P (stepOf machine s i) t)
      (fun t j h => ⟨invariant t j h.1, keep _ t j h.1 h.2⟩) (fun t j h => use _ t j h.1 h.2)
      ⟨invariant s i hs, leave s i hs⟩ is b hb

end W9pt.Lib

import Mathlib

/-!
# Counters that hand out numbers

A dispenser has a next number and a relation saying which holder carries which number. `Continues`
is what a transition may do to it: the counter does not go back, and whoever carries a number
afterwards carried it before or took one that was not handed out yet. If, to begin with, every carried
number is below the counter and has one holder, then no number ever passes to another holder
(`Continues.holder_eq`), however many transitions lie between.
-/

namespace W9pt.Lib

universe u v

variable {σ : Type u} {ι : Type v}

/-- A counter that may be missing, and the numbers carried. -/
structure Dispenser (σ : Type u) (ι : Type v) where
  next : σ → Option ℕ
  holds : σ → ι → ℕ → Prop

namespace Dispenser

variable {d : Dispenser σ ι} {s t u : σ}

/-- One transition, or several. -/
def Continues (d : Dispenser σ ι) (s t : σ) : Prop :=
  ∀ n, d.next s = some n → ∃ n', d.next t = some n' ∧ n ≤ n' ∧
    ∀ i k, d.holds t i k → d.holds s i k ∨ n ≤ k

/-- Every carried number was handed out, to one holder. -/
structure Consistent (d : Dispenser σ ι) (s : σ) : Prop where
  below : ∀ i k, d.holds s i k → ∃ n, d.next s = some n ∧ k < n
  unique : ∀ i j k, d.holds s i k → d.holds s j k → i = j

theorem Continues.refl (s : σ) : d.Continues s s := fun n hn => ⟨n, hn, le_refl n, fun _ _ => .inl⟩

theorem Continues.trans (hst : d.Continues s t) (htu : d.Continues t u) : d.Continues s u := by
  intro n hn
  obtain ⟨n₁, hn₁, hle₁, hheld₁⟩ := hst n hn
  obtain ⟨n₂, hn₂, hle₂, hheld₂⟩ := htu n₁ hn₁
  refine ⟨n₂, hn₂, hle₁.trans hle₂, fun i k hk => ?_⟩
  rcases hheld₂ i k hk with hmid | hfresh
  · exact hheld₁ i k hmid
  · exact .inr (hle₁.trans hfresh)

/-- **No number passes to another holder.** -/
theorem Continues.holder_eq (h : d.Continues s t) (hs : d.Consistent s) {i j : ι} {k : ℕ}
    (hi : d.holds s i k) (hj : d.holds t j k) : j = i := by
  obtain ⟨n, hn, hlt⟩ := hs.below i k hi
  obtain ⟨-, -, -, hheld⟩ := h n hn
  rcases hheld j k hj with hj | hfresh
  · exact hs.unique j i k hj hi
  · omega

end Dispenser

end W9pt.Lib

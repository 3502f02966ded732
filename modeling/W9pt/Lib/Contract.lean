import W9pt.Lib.Fallible
import W9pt.Lib.Handler

/-!
# Programs and the contract of their queries

A `Contract` says of each query when it may be asked, how it can be answered and how it can fail, over a
state of what the program may rely on. `Meets c Q F p s`: started in `s`, the program `p` asks only what
it may ask, and ends with a value as `Q` says or with a failure as `F` says.

Where the queries are served by programs of the level below that keep to the contract, a program that
meets its postconditions there keeps them in every run (`Meets.handle`).
-/

namespace W9pt.Lib

/-! ## Failures of a computation -/

section Failures

variable {ε ε' α β : Type} {F : ε → Prop}

/-- If the computation fails, then as `F` says. -/
def OnlyFails (F : ε → Prop) (x : Except ε α) : Prop := ∀ e, x = .error e → F e

theorem onlyFails_ok {a : α} : OnlyFails F (.ok a) := fun _ h => by cases h

theorem onlyFails_error {e : ε} (h : F e) : OnlyFails F (.error e : Except ε α) := fun _ he => by
  cases he
  exact h

theorem onlyFails_ensure {c : Prop} [Decidable c] {e : ε} (h : F e) : OnlyFails F (ensure c e) := by
  unfold ensure
  split
  · exact onlyFails_ok
  · exact onlyFails_error h

theorem OnlyFails.bind {x : Except ε α} {f : α → Except ε β} (hx : OnlyFails F x)
    (hf : ∀ a, x = .ok a → OnlyFails F (f a)) : OnlyFails F (x >>= f) := by
  cases x with
  | ok a => exact hf a rfl
  | error e => exact onlyFails_error (hx e rfl)

theorem OnlyFails.mapErr {g : ε' → ε} {x : Except ε' α} (h : OnlyFails (fun e => F (g e)) x) :
    OnlyFails F (mapErr g x) := by
  cases x with
  | ok a => exact onlyFails_ok
  | error e => exact onlyFails_error (h e rfl)

end Failures

/-! ## Contracts -/

/-- When a query may be asked, its answers and its failures. -/
structure Contract (Q : Type) (A : Q → Type) (ε σ : Type) where
  permits : σ → Q → Prop
  answers : σ → (q : Q) → A q → σ → Prop
  fails : σ → Q → ε → σ → Prop

section Contract

variable {Q Q' : Type} {A : Q → Type} {A' : Q' → Type} {ε ε' α β γ σ τ : Type} {c : Contract Q A ε σ}

/-- Started in `s`, the program keeps to the contract and ends as `R` or `F` says. -/
def Meets (c : Contract Q A ε σ) (R : α → σ → Prop) (F : ε → σ → Prop) : Prog Q A ε α → σ → Prop
  | .done a, s => R a s
  | .fail e, s => F e s
  | .ask q k, s => c.permits s q ∧ (∀ x s', c.answers s q x s' → Meets c R F (k x) s') ∧
      ∀ e s', c.fails s q e s' → F e s'

variable {R R' : α → σ → Prop} {F F' : ε → σ → Prop} {p : Prog Q A ε α} {s : σ}

theorem Meets.mono (h : Meets c R F p s) (hR : ∀ a s, R a s → R' a s) (hF : ∀ e s, F e s → F' e s) :
    Meets c R' F' p s := by
  induction p generalizing s with
  | done a => exact hR a s h
  | fail e => exact hF e s h
  | ask q k ih => exact ⟨h.1, fun x s' hx => ih x (h.2.1 x s' hx), fun e s' he => hF e s' (h.2.2 e s' he)⟩

/-- The same failures, a weaker end. -/
theorem Meets.imp (h : Meets c R F p s) (hR : ∀ a s, R a s → R' a s) : Meets c R' F p s :=
  h.mono hR fun _ _ he => he

variable {f : α → Prog Q A ε β}

theorem Meets.bind {R : β → σ → Prop} (h : Meets c (fun a s' => Meets c R F (f a) s') F p s) :
    Meets c R F (p >>= f) s := by
  induction p generalizing s with
  | done a => exact h
  | fail e => exact h
  | ask q k ih => exact ⟨h.1, fun x s' hx => ih x (h.2.1 x s' hx), h.2.2⟩

variable {x : Except ε α}

theorem meets_lift (hok : ∀ a, x = .ok a → R a s) (herror : ∀ e, x = .error e → F e s) :
    Meets c R F (Prog.lift x) s := by
  cases x with
  | ok a => exact hok a rfl
  | error e => exact herror e rfl

theorem Meets.lift_bind {R : β → σ → Prop} (hok : ∀ a, x = .ok a → Meets c R F (f a) s)
    (herror : ∀ e, x = .error e → F e s) :
    Meets c R F (Prog.lift x >>= f) s :=
  (meets_lift (R := fun a s' => Meets c R F (f a) s') hok herror).bind

/-- A check that passes. -/
theorem Meets.ok_bind {R : β → σ → Prop} {a : α} (hx : x = .ok a) (h : Meets c R F (f a) s) :
    Meets c R F (Prog.lift x >>= f) s := by
  subst hx
  exact h

theorem meets_query {q : Q} {R : A q → σ → Prop} (hpermits : c.permits s q)
    (hanswers : ∀ x s', c.answers s q x s' → R x s') (hfails : ∀ e s', c.fails s q e s' → F e s') :
    Meets c R F (Prog.query q) s :=
  ⟨hpermits, hanswers, hfails⟩

/-- A loop over a list keeps what one iteration keeps of the part that is done. -/
theorem Meets.foldlM {l : List γ} {f : β → γ → Prog Q A ε β} {I : List γ → β → σ → Prop}
    (step : ∀ pre x post b s, l = pre ++ x :: post → I pre b s →
      Meets c (fun b' s' => I (pre ++ [x]) b' s') F (f b x) s)
    {b : β} (h : I [] b s) : Meets c (fun b' s' => I l b' s') F (l.foldlM f b) s := by
  suffices hrest : ∀ (rest pre : List γ) (b : β) (s : σ), l = pre ++ rest → I pre b s →
      Meets c (fun b' s' => I l b' s') F (rest.foldlM f b) s from hrest l [] b s rfl h
  intro rest
  induction rest with
  | nil =>
    intro pre b s hl hpre
    rw [List.append_nil] at hl
    exact hl ▸ hpre
  | cons x rest ih =>
    intro pre b s hl hpre
    rw [List.foldlM_cons]
    refine Meets.bind ((step pre x rest b s hl hpre).imp fun b' s' hb' => ?_)
    exact ih (pre ++ [x]) b' s' (by rw [hl, List.append_assoc, List.singleton_append]) hb'

/-- The end of a run in a world that agrees with a state of the postconditions. -/
def EndsIn (agree : σ → τ → Prop) (R : α → σ → Prop) (F : ε → σ → Prop) (r : Except ε α) (t : τ) : Prop :=
  match r with
  | .ok a => ∃ s, R a s ∧ agree s t
  | .error e => ∃ s, F e s ∧ agree s t

/-- **A handled program keeps its postconditions.** Every served query keeps to the contract: started in
a state of the world that agrees with `s`, it ends as the contract says of `s`. -/
theorem Meets.handle {world : τ → (q : Q') → A' q → τ → Prop} {rely guar : τ → τ → Prop}
    (agree : σ → τ → Prop) {serve : (q : Q) → Prog Q' A' ε (A q)} (refl : ∀ t, rely t t)
    (stable : ∀ {s t t'}, agree s t → rely t t' → agree s t')
    (served : ∀ {s t q}, c.permits s q → agree s t →
      Ensures world rely guar (EndsIn agree (c.answers s q) (c.fails s q)) (serve q) t)
    {t : τ} (h : Meets c R F p s) (ht : agree s t) :
    Ensures world rely guar (EndsIn agree R F) (p.handle serve) t := by
  induction p generalizing s t with
  | done a => exact fun t' hrely => ⟨s, h, stable ht hrely⟩
  | fail e => exact fun t' hrely => ⟨s, h, stable ht hrely⟩
  | ask q k ih =>
    obtain ⟨hpermits, hanswers, hfails⟩ := h
    refine Ensures.bind refl ((served hpermits ht).mono ?_)
    rintro (e | x) t' ⟨s', hs', ht'⟩
    · exact ⟨s', hfails e s' hs', ht'⟩
    · exact ih x (hanswers x s' hs') ht'

end Contract

end W9pt.Lib

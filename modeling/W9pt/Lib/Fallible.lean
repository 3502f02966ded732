import Mathlib

/-!
# Fallible code: `?`, guards and checked loops over `Except`

Rust's `expr?` is monadic bind, `if bad { return Err(e) }` is `ensure (¬ bad) e`, and a `for` loop
that may return early is `List.foldlM` (with an accumulator) or `List.forM` (without). The lemmas
turn "the whole computation returned `Ok`" into facts about its parts:

* `bind_eq_ok`, `ensure_eq_ok` peel one statement;
* `forM_eq_ok` / `foldlM_ok_forall`: every element was accepted;
* `foldlM_ok_split`: the loop around one of its iterations;
* `foldlM_ok_pairwise`: a loop that remembers what it has seen and rejects an element in
  conflict with something seen accepts only lists without conflicting pairs.
-/

namespace W9pt.Lib

universe u v

variable {ε : Type u} {α β σ : Type v}

/-- `if !c { return Err(e) }`. -/
def ensure (c : Prop) [Decidable c] (e : ε) : Except ε Unit :=
  if c then .ok () else .error e

@[simp] theorem ensure_eq_ok {c : Prop} [Decidable c] {e : ε} {x : Unit} :
    ensure c e = .ok x ↔ c := by
  unfold ensure
  split <;> simp_all

theorem ensure_of {c : Prop} [Decidable c] {e : ε} (h : c) : ensure c e = .ok () := by
  simp [h]

variable {x : Except ε α}

theorem bind_eq_ok {f : α → Except ε β} {b : β} :
    (x >>= f) = .ok b ↔ ∃ a, x = .ok a ∧ f a = .ok b := by
  cases x <;> simp [bind, Except.bind]

variable {a : α}

theorem pure_eq_ok {b : α} : (pure a : Except ε α) = .ok b ↔ a = b := by simp [pure, Except.pure]

theorem map_eq_ok {f : α → β} {b : β} :
    f <$> x = .ok b ↔ ∃ a, x = .ok a ∧ f a = b := by
  cases x <;> simp [Functor.map, Except.map]

@[simp] theorem ok_bind {f : α → Except ε β} : ((.ok a : Except ε α) >>= f) = f a := rfl

@[simp] theorem error_bind {e : ε} {f : α → Except ε β} :
    ((.error e : Except ε α) >>= f) = .error e := rfl

/-- `option.ok_or(e)?`. -/
def okOr (o : Option α) (e : ε) : Except ε α :=
  match o with
  | some a => .ok a
  | none => .error e

theorem toOption_eq_some : x.toOption = some a ↔ x = .ok a := by
  cases x <;> simp [Except.toOption]

@[simp] theorem okOr_eq_ok {o : Option α} {e : ε} : okOr o e = .ok a ↔ o = some a := by
  cases o <;> simp [okOr]

/-- `.map_err(f)`. -/
def mapErr {ε' : Type u} (f : ε → ε') (x : Except ε α) : Except ε' α :=
  match x with
  | .ok a => .ok a
  | .error e => .error (f e)

@[simp] theorem mapErr_eq_ok {ε' : Type u} {f : ε → ε'} :
    mapErr f x = .ok a ↔ x = .ok a := by
  cases x <;> simp [mapErr]

/-! ## Loops -/

theorem forM_eq_ok {α : Type} {f : α → Except ε Unit} {l : List α} {x : Unit} :
    l.forM f = .ok x ↔ ∀ a ∈ l, f a = .ok () := by
  induction l with
  | nil => simp [pure, Except.pure]
  | cons a l ih =>
    have hcons : (a :: l).forM f = (f a >>= fun _ => l.forM f) := rfl
    rw [hcons, bind_eq_ok, List.forall_mem_cons]
    exact ⟨fun ⟨(), ha, hl⟩ => ⟨ha, ih.1 hl⟩, fun ⟨ha, hl⟩ => ⟨(), ha, ih.2 hl⟩⟩

variable {f : σ → α → Except ε σ} {l : List α}

theorem foldlM_cons_eq_ok {s t : σ} :
    (a :: l).foldlM f s = .ok t ↔ ∃ s', f s a = .ok s' ∧ l.foldlM f s' = .ok t := by
  rw [List.foldlM_cons, bind_eq_ok]

section

variable {f : σ → α → Except ε σ} {l : List α} {s t : σ} (h : l.foldlM f s = .ok t)

include h

/-- Every element of an accepted list was accepted in some intermediate state. -/
theorem foldlM_ok_forall : ∀ a ∈ l, ∃ s₁ s₂, f s₁ a = .ok s₂ := by
  induction l generalizing s with
  | nil => simp
  | cons b l ih =>
    obtain ⟨s', hb, hl⟩ := foldlM_cons_eq_ok.1 h
    intro a ha
    rcases List.mem_cons.1 ha with rfl | ha
    · exact ⟨s, s', hb⟩
    · exact ih hl a ha

/-- The loop before, at and after one of its elements. -/
theorem foldlM_ok_split {a : α} (ha : a ∈ l) :
    ∃ l₁ l₂ s₁ s₂, l = l₁ ++ a :: l₂ ∧ l₁.foldlM f s = .ok s₁ ∧ f s₁ a = .ok s₂ ∧
      l₂.foldlM f s₂ = .ok t := by
  obtain ⟨l₁, l₂, rfl⟩ := List.append_of_mem ha
  rw [List.foldlM_append, bind_eq_ok] at h
  obtain ⟨s₁, h₁, h⟩ := h
  obtain ⟨s₂, h₂, h₃⟩ := foldlM_cons_eq_ok.1 h
  exact ⟨l₁, l₂, s₁, s₂, rfl, h₁, h₂, h₃⟩

end

/-- What every accepted step on an element of the list preserves, the loop preserves. -/
theorem foldlM_ok_invariant_mem {P : σ → Prop}
    (step : ∀ {s a s'}, a ∈ l → f s a = .ok s' → P s → P s') {s t : σ} (h : l.foldlM f s = .ok t)
    (hs : P s) : P t := by
  induction l generalizing s with
  | nil => cases h; exact hs
  | cons b l ih =>
    obtain ⟨s', hb, hl⟩ := foldlM_cons_eq_ok.1 h
    exact ih (fun ha => step (List.mem_cons_of_mem _ ha)) hl (step List.mem_cons_self hb hs)

/-- What every accepted step preserves, the loop preserves. -/
theorem foldlM_ok_invariant {P : σ → Prop} (step : ∀ {s a s'}, f s a = .ok s' → P s → P s')
    {s t : σ} (h : l.foldlM f s = .ok t) (hs : P s) : P t :=
  foldlM_ok_invariant_mem (fun _ => step) h hs

/-- A loop that records each element (`S`) and only accepts one that is `R`-compatible with
all recorded ones accepts only pairwise compatible lists. -/
theorem foldlM_ok_pairwise {R : α → α → Prop} {S : σ → α → Prop}
    (keep : ∀ {s a s' b}, f s a = .ok s' → S s b → S s' b)
    (add : ∀ {s a s'}, f s a = .ok s' → S s' a)
    (compat : ∀ {s a s' b}, f s a = .ok s' → S s b → R b a) {s t : σ} (h : l.foldlM f s = .ok t) :
    l.Pairwise R ∧ ∀ b, S s b → ∀ a ∈ l, R b a := by
  induction l generalizing s with
  | nil => simp
  | cons a l ih =>
    obtain ⟨s', ha, hl⟩ := foldlM_cons_eq_ok.1 h
    obtain ⟨hp, hseen⟩ := ih hl
    refine ⟨List.pairwise_cons.2 ⟨hseen a (add ha), hp⟩, fun b hb c hc => ?_⟩
    rcases List.mem_cons.1 hc with rfl | hc
    · exact compat ha hb
    · exact hseen b (keep ha hb) c hc

end W9pt.Lib

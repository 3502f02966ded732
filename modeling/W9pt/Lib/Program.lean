import Mathlib

/-!
# Programs that query a shared world

An asynchronous function is a tree of queries: `ask q k` suspends at an `.await` on `q` and goes on
with `k` applied to the answer, `done` and `fail` are `Ok` and `Err`. The world answers a query and
may change by doing so; between two queries of one program anybody else may change it.

* `Prog.Always`: what every value a program can return satisfies, whatever it is answered;
* `Exec`: one program runs to its end while the environment moves;
* `Prog.eval`: the run over a world that answers by a function, one of the executions of any world that
  simulates it (`Exec.of_eval`).
-/

namespace W9pt.Lib

/-- A program that asks queries `q : Q`, receives answers in `A q` and returns `α` or fails. -/
inductive Prog (Q : Type) (A : Q → Type) (ε α : Type) : Type where
  | done (a : α)
  | fail (e : ε)
  | ask (q : Q) (k : A q → Prog Q A ε α)

namespace Prog

variable {Q : Type} {A : Q → Type} {ε ε' α β : Type}

protected def bind : Prog Q A ε α → (α → Prog Q A ε β) → Prog Q A ε β
  | done a, f => f a
  | fail e, _ => fail e
  | ask q k, f => ask q fun x => (k x).bind f

instance : Monad (Prog Q A ε) where
  pure := done
  bind := Prog.bind

/-- `expr?` on a value that is not awaited. -/
def lift : Except ε α → Prog Q A ε α
  | .ok a => done a
  | .error e => fail e

/-- `expr.await`. -/
def query (q : Q) : Prog Q A ε (A q) := ask q done

/-- `.map_err(f)` on an awaited call. -/
def mapErr (f : ε → ε') : Prog Q A ε α → Prog Q A ε' α
  | done a => done a
  | fail e => fail (f e)
  | ask q k => ask q fun x => (k x).mapErr f

/-- The value of a program that has ended. -/
def result? : Prog Q A ε α → Option (Except ε α)
  | done a => some (.ok a)
  | fail e => some (.error e)
  | ask _ _ => none

@[simp] theorem pure_eq (a : α) : (pure a : Prog Q A ε α) = done a := rfl

@[simp] theorem done_bind (a : α) (f : α → Prog Q A ε β) : (done a >>= f) = f a := rfl

@[simp] theorem fail_bind (e : ε) (f : α → Prog Q A ε β) :
    ((fail e : Prog Q A ε α) >>= f) = fail e := rfl

@[simp] theorem ask_bind (q : Q) (k : A q → Prog Q A ε α) (f : α → Prog Q A ε β) :
    (ask q k >>= f) = ask q fun x => k x >>= f := rfl

variable {p : Prog Q A ε α}

theorem result?_eq_some {r : Except ε α} : p.result? = some r ↔ p = lift r := by
  cases p <;> cases r <;> simp [result?, lift]

/-! ## Returned values -/

/-- Every value the program can return satisfies `P`. -/
def Always (P : α → Prop) : Prog Q A ε α → Prop
  | done a => P a
  | fail _ => True
  | ask _ k => ∀ x, (k x).Always P

/-- Every failure of the program satisfies `P`. -/
def Fails (P : ε → Prop) : Prog Q A ε α → Prop
  | done _ => True
  | fail e => P e
  | ask _ k => ∀ x, (k x).Fails P

theorem always_bind {P : β → Prop} {R : α → Prop} {f : α → Prog Q A ε β} (hp : p.Always R)
    (hf : ∀ a, R a → (f a).Always P) : (p >>= f).Always P := by
  induction p with
  | done a => exact hf a hp
  | fail e => trivial
  | ask q k ih => exact fun x => ih x (hp x)

theorem always_true (p : Prog Q A ε α) : p.Always fun _ => True := by
  induction p with
  | done a => trivial
  | fail e => trivial
  | ask q k ih => exact ih

/-- The usual step through a program: whatever the first part returns, the rest is as claimed. -/
theorem always_bind_of_forall {P : β → Prop} {f : α → Prog Q A ε β} (hf : ∀ a, (f a).Always P) :
    (p >>= f).Always P :=
  always_bind p.always_true fun a _ => hf a

theorem always_lift {P : α → Prop} {x : Except ε α} (h : ∀ a, x = .ok a → P a) :
    (lift x : Prog Q A ε α).Always P := by
  cases x with
  | ok a => exact h a rfl
  | error e => trivial

theorem Always.mapErr {P : α → Prop} {f : ε → ε'} (h : p.Always P) :
    (p.mapErr f).Always P := by
  induction p with
  | done a => exact h
  | fail e => trivial
  | ask q k ih => exact fun x => ih x (h x)

theorem fails_true (p : Prog Q A ε α) : p.Fails fun _ => True := by
  induction p with
  | done a => trivial
  | fail e => trivial
  | ask q k ih => exact ih

/-- Mapped failures are what they are mapped to. -/
theorem fails_mapErr {P : ε' → Prop} {f : ε → ε'} (hf : ∀ e, P (f e)) (p : Prog Q A ε α) :
    (p.mapErr f).Fails P := by
  induction p with
  | done a => trivial
  | fail e => exact hf e
  | ask q k ih => exact ih

end Prog

/-! ## One program in a moving world -/

section Execution

variable {Q : Type} {A : Q → Type} {ε ε' α β : Type} {σ : Type}

/-- `Exec world env s p r s'`: started in `s`, the program ends with `r` and the world is in `s'`.
`world s q x s'` says that in `s` the query `q` can be answered `x`, leaving `s'`; `env s s'` is a
move of anybody else. -/
inductive Exec (world : σ → (q : Q) → A q → σ → Prop) (env : σ → σ → Prop) :
    σ → Prog Q A ε α → Except ε α → σ → Prop where
  | done (s : σ) (a : α) : Exec world env s (.done a) (.ok a) s
  | fail (s : σ) (e : ε) : Exec world env s (.fail e) (.error e) s
  | env {s s' s'' : σ} {p : Prog Q A ε α} {r : Except ε α} :
      env s s' → Exec world env s' p r s'' → Exec world env s p r s''
  | ask {s s' s'' : σ} {q : Q} {k : A q → Prog Q A ε α} {x : A q} {r : Except ε α} :
      world s q x s' → Exec world env s' (k x) r s'' → Exec world env s (.ask q k) r s''

variable {τ : Type} (serve : τ → (q : Q) → A q × τ)

/-- The run over a world that answers by a function. -/
def Prog.eval : Prog Q A ε α → τ → Except ε α × τ
  | .done a, t => (.ok a, t)
  | .fail e, t => (.error e, t)
  | .ask q k, t => (k (serve t q).1).eval (serve t q).2

variable {serve} {valid : τ → Prop}

/-- What is valid at the end was valid before. -/
theorem Prog.valid_of_eval (back : ∀ t q, valid (serve t q).2 → valid t) {p : Prog Q A ε α} {t : τ}
    (h : valid (p.eval serve t).2) : valid t := by
  induction p generalizing t with
  | done a => exact h
  | fail e => exact h
  | ask q k ih => exact back t q (ih _ h)

variable {world : σ → (q : Q) → A q → σ → Prop} {env : σ → σ → Prop} {R : τ → σ → Prop}

/-- A world that simulates the answers executes the program as it is evaluated. -/
theorem Exec.of_eval (back : ∀ t q, valid (serve t q).2 → valid t)
    (step : ∀ t s q, valid t → R t s → ∃ s', world s q (serve t q).1 s' ∧ R (serve t q).2 s')
    {p : Prog Q A ε α} {t : τ} {s : σ} (hvalid : valid (p.eval serve t).2) (hR : R t s) :
    ∃ s', Exec world env s p (p.eval serve t).1 s' ∧ R (p.eval serve t).2 s' := by
  induction p generalizing t s with
  | done a => exact ⟨s, .done s a, hR⟩
  | fail e => exact ⟨s, .fail s e, hR⟩
  | ask q k ih =>
    obtain ⟨s₁, hanswer, hR₁⟩ := step t s q (back t q (Prog.valid_of_eval back hvalid)) hR
    obtain ⟨s₂, hexec, hR₂⟩ := ih _ hvalid hR₁
    exact ⟨s₂, .ask hanswer hexec, hR₂⟩

end Execution

end W9pt.Lib

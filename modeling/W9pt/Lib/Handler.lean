import W9pt.Lib.Program

/-!
# Programs over an interface

`p.handle serve` runs a program whose queries are themselves answered by programs of the level below.
`p.replay oracle` is what `p` asks and how it ends when every query is answered by a fixed oracle: the
behaviour of `p` in a world that answers the same query in the same way each time.

`Ensures` is the rely-guarantee condition of a program that runs while others change the world:
between two of its queries the state moves by `rely`, each of its own queries moves it by `guar`, and
it ends as `post` says.
-/

namespace W9pt.Lib

namespace Prog

variable {Q Q' : Type} {A : Q → Type} {A' : Q' → Type} {ε α β : Type}

/-! ## Handlers -/

/-- The queries of `p` answered by `serve`. -/
def handle (serve : (q : Q) → Prog Q' A' ε (A q)) : Prog Q A ε α → Prog Q' A' ε α
  | done a => done a
  | fail e => fail e
  | ask q k => serve q >>= fun x => (k x).handle serve

variable {p : Prog Q A ε α}

theorem Always.handle {P : α → Prop} {serve : (q : Q) → Prog Q' A' ε (A q)} (hp : p.Always P) :
    (p.handle serve).Always P := by
  induction p with
  | done a => exact hp
  | fail e => trivial
  | ask q k ih => exact always_bind_of_forall fun x => ih x (hp x)

/-! ## The queries of a program -/

/-- Every query that the program can make satisfies `P`, whatever it is answered. -/
def Asks (P : Q → Prop) : Prog Q A ε α → Prop
  | done _ => True
  | fail _ => True
  | ask q k => P q ∧ ∀ x, (k x).Asks P

variable {P : Q → Prop}

theorem asks_lift (x : Except ε α) : (lift x : Prog Q A ε α).Asks P := by
  cases x <;> trivial

theorem asks_query {q : Q} (h : P q) : (query q : Prog Q A ε (A q)).Asks P :=
  ⟨h, fun _ => trivial⟩

variable {f : α → Prog Q A ε β}

theorem Asks.bind (hp : p.Asks P) (hf : ∀ a, (f a).Asks P) : (p >>= f).Asks P := by
  induction p with
  | done a => exact hf a
  | fail e => trivial
  | ask q k ih => exact ⟨hp.1, fun x => ih x (hp.2 x)⟩

theorem Asks.mapErr {ε' : Type} {f : ε → ε'} (hp : p.Asks P) :
    (p.mapErr f).Asks P := by
  induction p with
  | done a => trivial
  | fail e => trivial
  | ask q k ih => exact ⟨hp.1, fun x => ih x (hp.2 x)⟩

theorem Asks.handle {P' : Q' → Prop} {serve : (q : Q) → Prog Q' A' ε (A q)}
    (hserve : ∀ q, P q → (serve q).Asks P') (hp : p.Asks P) :
    (p.handle serve).Asks P' := by
  induction p with
  | done a => trivial
  | fail e => trivial
  | ask q k ih => exact (hserve q hp.1).bind fun x => ih x (hp.2 x)

/-! ## Replay -/

/-- The queries asked and the end reached when `oracle` answers. -/
def replay (oracle : (q : Q) → Except ε (A q)) : Prog Q A ε α → List Q × Except ε α
  | done a => ([], .ok a)
  | fail e => ([], .error e)
  | ask q k =>
    match oracle q with
    | .ok x => (q :: ((k x).replay oracle).1, ((k x).replay oracle).2)
    | .error e => ([q], .error e)

variable {oracle : (q : Q) → Except ε (A q)}

@[simp] theorem replay_done (a : α) : (done a : Prog Q A ε α).replay oracle = ([], .ok a) := rfl

@[simp] theorem replay_fail (e : ε) : (fail e : Prog Q A ε α).replay oracle = ([], .error e) := rfl

@[simp] theorem replay_lift (x : Except ε α) :
    (lift x : Prog Q A ε α).replay oracle = ([], x) := by
  cases x <;> rfl

theorem replay_ask_ok {q : Q} {k : A q → Prog Q A ε α} {x : A q} (h : oracle q = .ok x) :
    (ask q k).replay oracle = (q :: ((k x).replay oracle).1, ((k x).replay oracle).2) := by
  simp [replay, h]

theorem replay_ask_error {q : Q} {k : A q → Prog Q A ε α} {e : ε} (h : oracle q = .error e) :
    (ask q k).replay oracle = ([q], .error e) := by
  simp [replay, h]

theorem Always.replay {P : α → Prop} (hp : p.Always P) {a : α} (h : (p.replay oracle).2 = .ok a) :
    P a := by
  induction p with
  | done b =>
    cases h
    exact hp
  | fail e => cases h
  | ask q k ih =>
    cases hq : oracle q with
    | ok x =>
      rw [replay_ask_ok hq] at h
      exact ih x (hp x) h
    | error e =>
      rw [replay_ask_error hq] at h
      cases h

theorem Asks.replay (hp : p.Asks P) : ∀ q ∈ (p.replay oracle).1, P q := by
  induction p with
  | done a => simp
  | fail e => simp
  | ask q k ih =>
    cases hq : oracle q with
    | ok x =>
      rw [replay_ask_ok hq]
      exact List.forall_mem_cons.2 ⟨hp.1, ih x (hp.2 x)⟩
    | error e =>
      rw [replay_ask_error hq]
      simpa using hp.1

/-- A sequence asks what its first part asks and, if that does not fail, what its second part asks. -/
theorem replay_bind (p : Prog Q A ε α) (f : α → Prog Q A ε β) :
    (p >>= f).replay oracle =
      match (p.replay oracle).2 with
      | .ok a => ((p.replay oracle).1 ++ ((f a).replay oracle).1, ((f a).replay oracle).2)
      | .error e => ((p.replay oracle).1, .error e) := by
  induction p with
  | done a => simp
  | fail e => simp
  | ask q k ih =>
    rw [ask_bind]
    cases h : oracle q with
    | ok x =>
      rw [replay_ask_ok h, replay_ask_ok h, ih x]
      dsimp only
      split <;> simp
    | error e => rw [replay_ask_error h, replay_ask_error h]

/-- A sequence whose first part ends with a value. -/
theorem replay_bind_ok {a : α} (h : (p.replay oracle).2 = .ok a) :
    (p >>= f).replay oracle =
      ((p.replay oracle).1 ++ ((f a).replay oracle).1, ((f a).replay oracle).2) := by
  rw [replay_bind, h]

theorem Asks.replay_bind (hp : p.Asks P)
    (hf : ∀ a, (p.replay oracle).2 = .ok a → ∀ q ∈ ((f a).replay oracle).1, P q) :
    ∀ q ∈ ((p >>= f).replay oracle).1, P q := by
  rw [Prog.replay_bind]
  split
  · rename_i a ha
    exact List.forall_mem_append.2 ⟨hp.replay, hf a ha⟩
  · exact hp.replay

end Prog

/-! ## Rely and guarantee -/

section Rely

variable {Q Q' : Type} {A : Q → Type} {A' : Q' → Type} {ε α β σ : Type}
  {world : σ → (q : Q) → A q → σ → Prop} {rely guar : σ → σ → Prop}

/-- Run from `s` while others move by `rely`, the program moves by `guar` and ends as `post` says. -/
def Ensures (world : σ → (q : Q) → A q → σ → Prop) (rely guar : σ → σ → Prop)
    (post : Except ε α → σ → Prop) : Prog Q A ε α → σ → Prop
  | .done a, s => ∀ s', rely s s' → post (.ok a) s'
  | .fail e, s => ∀ s', rely s s' → post (.error e) s'
  | .ask q k, s => ∀ s₁, rely s s₁ → ∀ x s₂, world s₁ q x s₂ →
      guar s₁ s₂ ∧ Ensures world rely guar post (k x) s₂

variable {post : Except ε α → σ → Prop} {p : Prog Q A ε α} {s : σ}

theorem Ensures.mono {post' : Except ε α → σ → Prop} (h : ∀ r s, post r s → post' r s)
    (hp : Ensures world rely guar post p s) :
    Ensures world rely guar post' p s := by
  induction p generalizing s with
  | done a => exact fun s' hs => h _ _ (hp s' hs)
  | fail e => exact fun s' hs => h _ _ (hp s' hs)
  | ask q k ih => exact fun s₁ hs x s₂ hx => ⟨(hp s₁ hs x s₂ hx).1, ih x (hp s₁ hs x s₂ hx).2⟩

/-- A result whose value satisfies `R`, or whose failure satisfies `F`. -/
def EndsWith (R : α → Prop) (F : ε → Prop) : Except ε α → Prop
  | .ok a => R a
  | .error e => F e

/-- A program whose queries keep the guarantee ends as it always ends. -/
theorem Ensures.of_asks {P : Q → Prop} {R : α → Prop} {F : ε → Prop}
    (hguar : ∀ s q x s', P q → world s q x s' → guar s s') (hp : p.Asks P) (hr : p.Always R)
    (hf : p.Fails F) (s : σ) :
    Ensures world rely guar (fun r _ => EndsWith R F r) p s := by
  induction p generalizing s with
  | done a => exact fun _ _ => hr
  | fail e => exact fun _ _ => hf
  | ask q k ih =>
    exact fun s₁ _ x s₂ hx => ⟨hguar s₁ q x s₂ hp.1 hx, ih x (hp.2 x) (hr x) (hf x) s₂⟩

/-- What others do before the program starts is part of the rely. -/
theorem Ensures.stable (trans : ∀ a b c, rely a b → rely b c → rely a c) {s' : σ} (hs : rely s s')
    (hp : Ensures world rely guar post p s) : Ensures world rely guar post p s' := by
  cases p with
  | done a => exact fun t ht => hp t (trans _ _ _ hs ht)
  | fail e => exact fun t ht => hp t (trans _ _ _ hs ht)
  | ask q k => exact fun t ht => hp t (trans _ _ _ hs ht)

theorem Ensures.bind (refl : ∀ s, rely s s) {post : Except ε β → σ → Prop} {f : α → Prog Q A ε β}
    (hp : Ensures world rely guar (fun r s' => match r with
      | .ok a => Ensures world rely guar post (f a) s'
      | .error e => post (.error e) s') p s) : Ensures world rely guar post (p >>= f) s := by
  induction p generalizing s with
  | done a => exact hp s (refl s)
  | fail e => exact hp
  | ask q k ih => exact fun s₁ hs x s₂ hx => ⟨(hp s₁ hs x s₂ hx).1, ih x (hp s₁ hs x s₂ hx).2⟩

theorem Ensures.lift_bind {post : Except ε β → σ → Prop} {x : Except ε α} {f : α → Prog Q A ε β}
    (hok : ∀ a, x = .ok a → Ensures world rely guar post (f a) s)
    (herror : ∀ e, x = .error e → ∀ s', rely s s' → post (.error e) s') :
    Ensures world rely guar post (Prog.lift x >>= f) s := by
  cases x with
  | ok a => exact hok a rfl
  | error e => exact herror e rfl

theorem Ensures.query_bind {post : Except ε β → σ → Prop} {q : Q} {f : A q → Prog Q A ε β}
    (h : ∀ s₁, rely s s₁ → ∀ x s₂, world s₁ q x s₂ →
      guar s₁ s₂ ∧ Ensures world rely guar post (f x) s₂) :
    Ensures world rely guar post (Prog.query q >>= f) s := h

/-- Where the guarantee is within the rely, the program ends in a state that the rely reaches. -/
theorem Ensures.since (trans : ∀ a b c, rely a b → rely b c → rely a c)
    (hguar : ∀ s s', guar s s' → rely s s') (h : Ensures world rely guar post p s) :
    Ensures world rely guar (fun r s' => rely s s' ∧ post r s') p s := by
  induction p generalizing s with
  | done a => exact fun s' hs => ⟨hs, h s' hs⟩
  | fail e => exact fun s' hs => ⟨hs, h s' hs⟩
  | ask q k ih =>
    intro s₁ hs x s₂ hx
    obtain ⟨hg, hrest⟩ := h s₁ hs x s₂ hx
    have hs₂ := trans _ _ _ hs (hguar _ _ hg)
    exact ⟨hg, (ih x hrest).mono fun r s' hr => ⟨trans _ _ _ hs₂ hr.1, hr.2⟩⟩

/-- Every execution among moves that the rely covers ends as `post` says. -/
theorem Ensures.of_exec (refl : ∀ s, rely s s) (trans : ∀ a b c, rely a b → rely b c → rely a c)
    {env : σ → σ → Prop} (henv : ∀ a b, env a b → rely a b) {r : Except ε α} {s' : σ}
    (h : Exec world env s p r s') (hp : Ensures world rely guar post p s) : post r s' := by
  induction h with
  | done s a => exact hp s (refl s)
  | fail s e => exact hp s (refl s)
  | env he _ ih => exact ih (hp.stable trans (henv _ _ he))
  | ask hx _ ih => exact ih (hp _ (refl _) _ _ hx).2

end Rely

end W9pt.Lib

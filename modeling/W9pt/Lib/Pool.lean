import W9pt.Lib.Handler

/-!
# Calls that come and go

A pool is a world and the calls that run over it: a call may start at any time, each call makes its
queries in its own time and may never go on after any of them, and the environment moves in between.
`PoolRun` records who moved the world and how.

`PoolRun.ensures` is the parallel rule of rely and guarantee: where each call keeps its guarantee under
the others' guarantees, it keeps its own condition throughout, with what it has done itself as a ghost
(`ownLog`).
-/

namespace W9pt.Lib

section Pools

variable {Q : Type} {A : Q → Type} {ε α σ κ ℓ : Type}

/-- A world and the calls over it, each with what is left of its program. -/
structure Pool (σ κ P : Type) where
  state : σ
  calls : Nat → Option (κ × P)

def Pool.idle {P : Type} (s : σ) : Pool σ κ P := ⟨s, fun _ => none⟩

/-- One move: of the environment, the start of a call where `may` admits it, or one answered query. -/
inductive PoolStep (world : σ → (q : Q) → A q → σ → Prop) (env : σ → σ → Prop)
    (program : κ → Prog Q A ε α) (may : σ → κ → Prop) :
    Pool σ κ (Prog Q A ε α) → Option Nat → Pool σ κ (Prog Q A ε α) → Prop where
  | env {pool : Pool σ κ (Prog Q A ε α)} {s' : σ} : env pool.state s' →
      PoolStep world env program may pool none ⟨s', pool.calls⟩
  | start {pool : Pool σ κ (Prog Q A ε α)} {i : Nat} {call : κ} : pool.calls i = none →
      may pool.state call → PoolStep world env program may pool (some i)
        ⟨pool.state, Function.update pool.calls i (some (call, program call))⟩
  | move {pool : Pool σ κ (Prog Q A ε α)} {i : Nat} {call : κ} {q : Q} {k : A q → Prog Q A ε α}
      {x : A q} {s' : σ} : pool.calls i = some (call, .ask q k) → world pool.state q x s' →
      PoolStep world env program may pool (some i)
        ⟨s', Function.update pool.calls i (some (call, k x))⟩

/-- Who moved, and the world before and after. -/
abbrev History (σ : Type) := List (Option Nat × σ × σ)

/-- A run and its history, the last move at the end. -/
inductive PoolRun (world : σ → (q : Q) → A q → σ → Prop) (env : σ → σ → Prop)
    (program : κ → Prog Q A ε α) (may : σ → κ → Prop) (start : Pool σ κ (Prog Q A ε α)) :
    History σ → Pool σ κ (Prog Q A ε α) → Prop where
  | refl : PoolRun world env program may start [] start
  | step {history : History σ} {pool pool' : Pool σ κ (Prog Q A ε α)} {who : Option Nat} :
      PoolRun world env program may start history pool →
      PoolStep world env program may pool who pool' →
      PoolRun world env program may start (history ++ [(who, pool.state, pool'.state)]) pool'

/-- The ghost that a call keeps of its own moves. -/
def ownLog (note : σ → σ → ℓ → ℓ) (blank : ℓ) (i : Nat) (history : History σ) : ℓ :=
  history.foldl (fun log move => if move.1 = some i then note move.2.1 move.2.2 log else log) blank

theorem ownLog_append (note : σ → σ → ℓ → ℓ) (blank : ℓ) (i : Nat) (history : History σ)
    (who : Option Nat) (s s' : σ) :
    ownLog note blank i (history ++ [(who, s, s')]) =
      if who = some i then note s s' (ownLog note blank i history)
      else ownLog note blank i history := by
  simp [ownLog, List.foldl_append]

/-- The world of one call, with its ghost. -/
def Noting (note : σ → σ → ℓ → ℓ) (world : σ → (q : Q) → A q → σ → Prop) :
    σ × ℓ → (q : Q) → A q → σ × ℓ → Prop :=
  fun s q x s' => world s.1 q x s'.1 ∧ s'.2 = note s.1 s'.1 s.2

/-- The others move the world and leave the ghost alone. -/
def Apart (rely : σ → σ → Prop) (s s' : σ × ℓ) : Prop := rely s.1 s'.1 ∧ s'.2 = s.2

variable {world : σ → (q : Q) → A q → σ → Prop} {env : σ → σ → Prop} {program : κ → Prog Q A ε α}
  {may : σ → κ → Prop} {rely : σ → σ → Prop} {guar : κ → σ × ℓ → σ × ℓ → Prop}
  {note : σ → σ → ℓ → ℓ} {blank : ℓ}

theorem Apart.refl (refl : ∀ s, rely s s) (s : σ × ℓ) : Apart rely s s := ⟨refl s.1, rfl⟩

theorem Apart.trans (trans : ∀ a b c, rely a b → rely b c → rely a c) (a b c : σ × ℓ)
    (hab : Apart rely a b) (hbc : Apart rely b c) : Apart rely a c :=
  ⟨trans _ _ _ hab.1 hbc.1, hbc.2.trans hab.2⟩

/-- A program whose moves are not noted leaves the ghost as it is. -/
theorem Ensures.noting {quiet : σ → σ → Prop} {guarantee : σ × ℓ → σ × ℓ → Prop} {log : ℓ}
    (hnote : ∀ s s', quiet s s' → note s s' log = log)
    (hguar : ∀ s s', quiet s s' → guarantee (s, log) (s', log))
    {post : Except ε α → σ → Prop} {p : Prog Q A ε α} {s : σ}
    (h : Ensures world rely quiet post p s) :
    Ensures (Noting note world) (Apart rely) guarantee (fun r x => post r x.1 ∧ x.2 = log) p
      (s, log) := by
  induction p generalizing s with
  | done a => exact fun x hx => ⟨h x.1 hx.1, hx.2⟩
  | fail e => exact fun x hx => ⟨h x.1 hx.1, hx.2⟩
  | ask q k ih =>
    rintro ⟨s₁, log₁⟩ ⟨hs, hlog₁⟩ x ⟨s₂, log₂⟩ ⟨hx, hlog₂⟩
    obtain ⟨hquiet, hrest⟩ := h s₁ hs x s₂ hx
    dsimp only at hlog₁ hlog₂
    rw [hlog₁, hnote _ _ hquiet] at hlog₂
    rw [hlog₁, hlog₂]
    exact ⟨hguar _ _ hquiet, ih x hrest⟩

/-- A call runs on to its end as it is evaluated, where the world simulates the answers. -/
theorem PoolRun.of_eval {τ : Type} {serve : τ → (q : Q) → A q × τ} {valid : τ → Prop} {R : τ → σ → Prop}
    (back : ∀ t q, valid (serve t q).2 → valid t)
    (step : ∀ t s q, valid t → R t s → ∃ s', world s q (serve t q).1 s' ∧ R (serve t q).2 s')
    {start pool : Pool σ κ (Prog Q A ε α)} {history : History σ} {i : Nat} {call : κ}
    {p : Prog Q A ε α} {t : τ} (hrun : PoolRun world env program may start history pool)
    (hcall : pool.calls i = some (call, p)) (hvalid : valid (p.eval serve t).2) (hR : R t pool.state) :
    ∃ history' pool', PoolRun world env program may start history' pool' ∧
      pool'.calls = Function.update pool.calls i (some (call, .lift (p.eval serve t).1)) ∧
      R (p.eval serve t).2 pool'.state := by
  induction p generalizing pool history t with
  | done a => exact ⟨history, pool, hrun, (Function.update_eq_self_iff.2 hcall.symm).symm, hR⟩
  | fail e => exact ⟨history, pool, hrun, (Function.update_eq_self_iff.2 hcall.symm).symm, hR⟩
  | ask q k ih =>
    obtain ⟨s', hanswer, hR'⟩ := step t pool.state q (back t q (Prog.valid_of_eval back hvalid)) hR
    obtain ⟨history', pool', hrun', hcalls, hend⟩ := ih _ (hrun.step (.move hcall hanswer))
      (Function.update_self ..) hvalid hR'
    exact ⟨history', pool', hrun', by rw [hcalls, Function.update_idem]; rfl, hend⟩

/-- What holds of a pool whose calls keep their conditions. -/
structure Keeping (world : σ → (q : Q) → A q → σ → Prop) (env rely : σ → σ → Prop)
    (guar : κ → σ × ℓ → σ × ℓ → Prop) (note : σ → σ → ℓ → ℓ) (blank : ℓ)
    (post : κ → Except ε α → σ × ℓ → Prop) (history : History σ)
    (pool : Pool σ κ (Prog Q A ε α)) : Prop where
  calls : ∀ {i call p}, pool.calls i = some (call, p) →
    Ensures (Noting note world) (Apart rely) (guar call) (post call) p
      (pool.state, ownLog note blank i history)
  idle : ∀ {i}, pool.calls i = none → ownLog note blank i history = blank
  logs : ∀ {i call p}, pool.calls i = some (call, p) → ownLog note blank i history = blank ∨
    ∃ x s, guar call x (s, ownLog note blank i history)
  moves : ∀ {who s s'}, (who, s, s') ∈ history → s = s' ∨ match who with
    | none => env s s'
    | some i => ∃ call p log log', pool.calls i = some (call, p) ∧ guar call (s, log) (s', log')

/-- **The parallel rule.** If every call that may start meets its condition under the rely, and the
guarantees and the environment are within the rely, every call keeps its condition along every run. -/
theorem PoolRun.ensures (refl : ∀ s, rely s s) (trans : ∀ a b c, rely a b → rely b c → rely a c)
    (henv : ∀ s s', env s s' → rely s s')
    (hguar : ∀ call x y, guar call x y → rely x.1 y.1)
    (hnote : ∀ s log, note s s log = log) {post : κ → Except ε α → σ × ℓ → Prop}
    (hstart : ∀ s call, may s call → Ensures (Noting note world) (Apart rely)
      (guar call) (post call) (program call) (s, blank))
    {s₀ : σ} {history : History σ} {pool : Pool σ κ (Prog Q A ε α)}
    (h : PoolRun world env program may (Pool.idle s₀) history pool) :
    Keeping world env rely guar note blank post history pool := by
  induction h with
  | refl =>
    refine ⟨fun hcall => ?_, fun _ => rfl, fun hcall => ?_, fun hmove => ?_⟩
    · simp [Pool.idle] at hcall
    · simp [Pool.idle] at hcall
    · simp at hmove
  | @step history pool pool' who _ hstep ih =>
    -- a call that did not move sees a move of the rely
    have hother : ∀ {i call p}, rely pool.state pool'.state → who ≠ some i →
        pool.calls i = some (call, p) → Ensures (Noting note world) (Apart rely)
          (guar call) (post call) p
          (pool'.state, ownLog note blank i (history ++ [(who, pool.state, pool'.state)])) := by
      intro i call p hmove hwho hcall
      rw [ownLog_append, if_neg hwho]
      have hapart : Apart rely (pool.state, ownLog note blank i history)
          (pool'.state, ownLog note blank i history) := ⟨hmove, rfl⟩
      exact (ih.calls hcall).stable (Apart.trans trans) hapart
    cases hstep with
    | env he =>
      have hmove := henv _ _ he
      refine ⟨fun hcall => hother hmove (by simp) hcall, fun hcall => ?_, fun hcall => ?_,
        fun hmem => ?_⟩
      · rw [ownLog_append, if_neg (by simp)]
        exact ih.idle hcall
      · rw [ownLog_append, if_neg (by simp)]
        exact ih.logs hcall
      · rcases List.mem_append.1 hmem with hmem | hmem
        · exact ih.moves hmem
        · obtain ⟨rfl, rfl, rfl⟩ := by simpa using hmem
          exact .inr he
    | @start i call hnone hmay =>
      have hold : ∀ {j call' p}, j ≠ i →
          Function.update pool.calls i (some (call, program call)) j = some (call', p) →
          pool.calls j = some (call', p) := fun hj h => by rwa [Function.update_of_ne hj] at h
      refine ⟨fun {j} {_} {_} hcall => ?_, fun {j} hcall => ?_, fun {j} {_} {_} hcall => ?_,
        fun {w} {_} {_} hmem => ?_⟩
      · by_cases hj : j = i
        · subst hj
          obtain ⟨rfl, rfl⟩ := by simpa using hcall
          rw [ownLog_append, if_pos rfl, hnote, ih.idle hnone]
          exact hstart _ _ hmay
        · exact hother (refl _) (fun h => hj (Option.some.inj h).symm) (hold hj hcall)
      · have hj : j ≠ i := by
          rintro rfl
          simp at hcall
        dsimp only at hcall
        rw [Function.update_of_ne hj] at hcall
        rw [ownLog_append, if_neg fun h => hj (Option.some.inj h).symm]
        exact ih.idle hcall
      · by_cases hj : j = i
        · subst hj
          rw [ownLog_append, if_pos rfl, hnote, ih.idle hnone]
          exact .inl rfl
        · rw [ownLog_append, if_neg fun h => hj (Option.some.inj h).symm]
          exact ih.logs (hold hj hcall)
      · rcases List.mem_append.1 hmem with hmem | hmem
        · refine (ih.moves hmem).imp_right fun hmove => ?_
          cases w with
          | none => exact hmove
          | some j =>
            obtain ⟨call', p, log, log', hcall, hg⟩ := hmove
            refine ⟨call', p, log, log', ?_, hg⟩
            dsimp only
            rwa [Function.update_of_ne]
            rintro rfl
            rw [hnone] at hcall
            cases hcall
        · obtain ⟨-, rfl, rfl⟩ := by simpa using hmem
          exact .inl rfl
    | @move i call q k x s' hcall hx =>
      have hnext := ih.calls hcall _ (Apart.refl refl _) x
        (s', note pool.state s' (ownLog note blank i history)) ⟨hx, rfl⟩
      have hmove := hguar _ _ _ hnext.1
      refine ⟨fun {j} {_} {_} hj => ?_, fun {j} hj => ?_, fun {j} {_} {_} hj => ?_,
        fun {w} {_} {_} hmem => ?_⟩
      · by_cases hji : j = i
        · subst hji
          obtain ⟨rfl, rfl⟩ := by simpa using hj
          rw [ownLog_append, if_pos rfl]
          exact hnext.2
        · dsimp only at hj
          rw [Function.update_of_ne hji] at hj
          exact hother hmove (fun h => hji (Option.some.inj h).symm) hj
      · have hji : j ≠ i := by
          rintro rfl
          simp at hj
        dsimp only at hj
        rw [Function.update_of_ne hji] at hj
        rw [ownLog_append, if_neg fun h => hji (Option.some.inj h).symm]
        exact ih.idle hj
      · by_cases hji : j = i
        · subst hji
          obtain ⟨rfl, rfl⟩ := by simpa using hj
          rw [ownLog_append, if_pos rfl]
          exact .inr ⟨_, _, hnext.1⟩
        · dsimp only at hj
          rw [Function.update_of_ne hji] at hj
          rw [ownLog_append, if_neg fun h => hji (Option.some.inj h).symm]
          exact ih.logs hj
      · rcases List.mem_append.1 hmem with hmem | hmem
        · refine (ih.moves hmem).imp_right fun hmoved => ?_
          cases w with
          | none => exact hmoved
          | some j =>
            obtain ⟨call', p, log, log', hj, hg⟩ := hmoved
            by_cases hji : j = i
            · subst hji
              rw [hcall] at hj
              cases hj
              exact ⟨call, k x, log, log', Function.update_self .., hg⟩
            · exact ⟨call', p, log, log', (Function.update_of_ne hji ..).trans hj, hg⟩
        · obtain ⟨rfl, rfl, rfl⟩ := by simpa using hmem
          exact .inr ⟨call, k x, _, _, Function.update_self .., hnext.1⟩

end Pools

end W9pt.Lib

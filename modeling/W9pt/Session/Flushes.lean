import W9pt.Session.Invariant
import W9pt.Lib.Forest

/-!
# Flushes wait in trees

A `Tflush` waits for an operation or for another flush (`handle_flush`, `mod.rs:459-508`), which keeps
its tag in a list of waiters (`pending.rs:168-184`). In every reachable session these lists form a
forest over the outstanding operations: input adds a waiter to a member or nothing (`Requests`), and a
completion takes one tree apart, root first (`finish_pending`, `finish_flush`, `mod.rs:1860-1921`).
-/

namespace W9pt.Connection

open Lib Protocol Session Relation

variable {order : HashOrder} {fresh : Session → Prop} {s s' : Session} {tag : Tag}
  {loose : List Tag}

def Session.waiters (s : Session) (tag : Tag) : List Tag :=
  (s.pendingByTag[tag]?.map (·.flushWaiters)).getD [] ++
    (s.flushes[tag]?.map (·.waiters)).getD []

/-- The waiter lists are a forest over the outstanding operations. -/
abbrev Session.Flushing (s : Session) (loose : List Tag) : Prop :=
  Forest s.waiters (· ∈ s.pendingByTag) (· ∈ s.flushes) loose

/-- Two sessions in which the same flushes wait for the same tags. -/
structure Session.SameWaiting (s s' : Session) : Prop where
  waiters : ∀ tag, s'.waiters tag = s.waiters tag
  pending : ∀ tag, tag ∈ s'.pendingByTag ↔ tag ∈ s.pendingByTag
  flushes : ∀ tag, tag ∈ s'.flushes ↔ tag ∈ s.flushes

theorem sameWaiting_of_eq (pending : s'.pendingByTag = s.pendingByTag)
    (flushes : s'.flushes = s.flushes) : s.SameWaiting s' where
  waiters tag := by rw [Session.waiters, pending, flushes, Session.waiters]
  pending tag := by rw [pending]
  flushes tag := by rw [flushes]

theorem sameWaiting_close (order : HashOrder) (s : Session) (decoder : FrameDecoder)
    (reason : CloseReason) : s.SameWaiting (s.close order decoder reason) := by
  by_cases hstarted : s.cleanupStarted = true
  · rw [Session.close, startCleanup, if_pos hstarted]
    exact sameWaiting_of_eq rfl rfl
  · rw [Session.close, startCleanup_eq (by simpa using hstarted)]
    constructor
    · intro tag
      simp only [Session.waiters, Std.ExtTreeMap.getElem?_map, Option.map_map]
      rfl
    · exact fun tag => Std.ExtTreeMap.mem_map
    · exact fun tag => Std.ExtTreeMap.mem_map

theorem Session.SameWaiting.flushing (h : s.SameWaiting s') (forest : s.Flushing loose) :
    s'.Flushing loose :=
  forest.congr h.waiters h.pending h.flushes

theorem waiters_of_inactive (inactive : s.Inactive tag) : s.waiters tag = [] := by
  rw [Session.waiters, Std.ExtTreeMap.getElem?_eq_none inactive.1,
    Std.ExtTreeMap.getElem?_eq_none inactive.2]
  rfl

theorem flushing_of_empty (pending : s.pendingByTag = ∅) (flushes : s.flushes = ∅) :
    s.Flushing [] := by
  have hnone : ∀ tag, s.waiters tag = [] := by
    intro tag
    rw [Session.waiters, pending, flushes]
    simp
  constructor
  all_goals simp [hnone, pending, flushes]

/-! ## Input -/

theorem mem_of_getElem? {α β : Type} [Ord α] [Std.TransOrd α] {m : Std.ExtTreeMap α β} {k : α}
    {v : β} (h : m[k]? = some v) : k ∈ m := by
  rw [Std.ExtTreeMap.mem_iff_isSome_getElem?, h]
  rfl

theorem flushing_joinPending {oldTag : Tag} {target : PendingOperation} (books : Bookkeeping s)
    (forest : s.Flushing []) (inactive : s.Inactive tag)
    (active : s.pendingByTag[oldTag]? = some target) :
    (s.joinPending tag oldTag target).Flushing [] := by
  have hmem := mem_of_getElem? active
  have hne : tag ≠ oldTag := fun heq => inactive.1 (heq ▸ hmem)
  have hflush := Std.ExtTreeMap.getElem?_eq_none (books.indexed.disjoint _ hmem)
  refine (forest.join (.inl hmem) inactive.2 inactive.1).congr ?_ ?_ ?_
  · intro a
    by_cases ha : a = oldTag
    · subst ha
      simp [Session.waiters, Session.joinPending, PendingOperation.flushedBy, active, hflush,
        Std.ExtTreeMap.getElem?_insert, hne]
    · rw [Function.update_of_ne ha]
      by_cases hat : a = tag
      · subst hat
        rw [waiters_of_inactive inactive]
        simp [Session.waiters, Session.joinPending, Std.ExtTreeMap.getElem?_insert, Ne.symm ha,
          Std.ExtTreeMap.getElem?_eq_none inactive.1]
      · simp [Session.waiters, Session.joinPending, Std.ExtTreeMap.getElem?_insert, Ne.symm ha,
          Ne.symm hat]
  · intro a
    simp only [Session.joinPending, Std.ExtTreeMap.mem_insert, Std.compare_eq_iff_eq]
    exact or_iff_right_of_imp fun h => h ▸ hmem
  · intro a
    simp only [Session.joinPending, Std.ExtTreeMap.mem_insert, Std.compare_eq_iff_eq]
    rw [or_comm, eq_comm]

theorem flushing_joinFlush {oldTag : Tag} {target : FlushState} (books : Bookkeeping s)
    (forest : s.Flushing []) (inactive : s.Inactive tag)
    (active : s.flushes[oldTag]? = some target) :
    (s.joinFlush tag oldTag target).Flushing [] := by
  have hmem := mem_of_getElem? active
  have hne : tag ≠ oldTag := fun heq => inactive.2 (heq ▸ hmem)
  have hpending := Std.ExtTreeMap.getElem?_eq_none fun h => books.indexed.disjoint _ h hmem
  refine (forest.join (.inr hmem) inactive.2 inactive.1).congr ?_ (fun _ => Iff.rfl) ?_
  · intro a
    by_cases ha : a = oldTag
    · subst ha
      simp [Session.waiters, Session.joinFlush, active, hpending]
    · rw [Function.update_of_ne ha]
      by_cases hat : a = tag
      · subst hat
        rw [waiters_of_inactive inactive]
        simp only [Session.waiters, Session.joinFlush, Std.ExtTreeMap.getElem?_insert,
          Std.compare_eq_iff_eq, if_neg (Ne.symm ha), Std.ExtTreeMap.getElem?_eq_none inactive.1]
        rfl
      · simp [Session.waiters, Session.joinFlush, Std.ExtTreeMap.getElem?_insert, Ne.symm ha,
          Ne.symm hat]
  · intro a
    simp only [Session.joinFlush, Std.ExtTreeMap.mem_insert, Std.compare_eq_iff_eq]
    constructor
    · rintro (rfl | rfl | ha)
      · exact .inl hmem
      · exact .inr rfl
      · exact .inl ha
    · rintro (ha | rfl)
      · exact .inr (.inr ha)
      · exact .inr (.inl rfl)

/-- **Input keeps the forest.** -/
theorem Move.flushing (h : Move fresh s s') (keeps : s.Keeps s') (books : Bookkeeping s)
    (forest : s.Flushing []) : s'.Flushing [] := by
  cases h with
  | decode | frame | burn | clone | cancel => exact (sameWaiting_of_eq rfl rfl).flushing forest
  | @emit s₁ tag _ work continuation writeBytes id _ inactive decided reserved =>
    obtain ⟨fids, count, rfl⟩ := (decided.reserved reserved).frame
    refine (forest.addRoot inactive.2).congr ?_ ?_ (fun _ => Iff.rfl)
    · intro a
      by_cases ha : a = tag
      · subst ha
        rw [waiters_of_inactive inactive]
        simp [Session.waiters, Session.emitted, Session.track, Session.pushEffect, Session.issue,
          Work.pending, Std.ExtTreeMap.getElem?_eq_none inactive.2]
      · simp [Session.waiters, Session.emitted, Session.track, Session.pushEffect, Session.issue,
          Std.ExtTreeMap.getElem?_insert, Ne.symm ha]
    · intro a
      simp only [Session.emitted, Session.track, Session.pushEffect, Session.issue,
        Std.ExtTreeMap.mem_insert, Std.compare_eq_iff_eq]
      rw [or_comm, eq_comm]
  | joinPending inactive active => exact flushing_joinPending books forest inactive active
  | joinFlush inactive active => exact flushing_joinFlush books forest inactive active
  | @dropFlush tag _ active =>
    rcases keeps _ (mem_of_getElem? active) with hkept | ⟨hflushes, hpending⟩
    · exact absurd hkept (by simp [Session.dropFlush])
    · exact flushing_of_empty hpending hflushes
  | close order decoder reason => exact (sameWaiting_close order s decoder reason).flushing forest
  | renegotiate order _ _ msize version =>
    obtain ⟨cleanup, heq⟩ := renegotiate_eq order s msize version
    rw [heq]
    exact flushing_of_empty rfl rfl

theorem requests_flushing (h : Requests fresh s s') (books : Bookkeeping s)
    (forest : s.Flushing []) : s'.Flushing [] := by
  induction h with
  | refl => exact forest
  | tail before step ih =>
    exact step.1.flushing step.2 (moves_bookkeeping (requests_moves before) books) ih

/-! ## Completions -/

/-- What a completion leaves of the waiter lists. -/
structure Session.Prunes (s s' : Session) : Prop where
  pending : ∀ tag, tag ∈ s'.pendingByTag ↔ tag ∈ s.pendingByTag
  waiters : ∀ tag, tag ∈ s'.pendingByTag ∨ tag ∈ s'.flushes → s'.waiters tag = s.waiters tag
  flushes : ∀ tag, tag ∈ s'.flushes → tag ∈ s.flushes

theorem Session.SameWaiting.prunes (h : s.SameWaiting s') : s.Prunes s' :=
  ⟨h.pending, fun tag _ => h.waiters tag, fun tag => (h.flushes tag).1⟩

theorem Session.Prunes.trans {s₁ s₂ s₃ : Session} (h : s₁.Prunes s₂) (h' : s₂.Prunes s₃) :
    s₁.Prunes s₃ where
  pending tag := (h'.pending tag).trans (h.pending tag)
  waiters tag alive :=
    (h'.waiters tag alive).trans (h.waiters tag (alive.imp (h'.pending tag).1 (h'.flushes tag)))
  flushes tag hmem := h.flushes tag (h'.flushes tag hmem)

theorem sameWaiting_replyOrFail (order : HashOrder) (s : Session) (response : Response)
    (reason : String) : s.SameWaiting (s.replyOrFail order response reason) := by
  rcases replyOrFail_cases order s response reason with ⟨bytes, -, heq⟩ | heq
  · rw [heq]
    exact sameWaiting_of_eq rfl rfl
  · rw [heq]
    exact sameWaiting_close order s s.decoder.clear _

/-- An answered flush is the first loose one; those that waited for it become loose. -/
theorem flushing_answerFlush {flush : FlushState} {tags : List Tag}
    (forest : s.Flushing (tag :: tags)) (active : s.flushes[tag]? = some flush) :
    (s.answerFlush order tag flush).Flushing (flush.waiters ++ tags) ∧
      s.Prunes (s.answerFlush order tag flush) := by
  have hpending : s.pendingByTag[tag]? = none := Std.ExtTreeMap.getElem?_eq_none fun h =>
    forest.apart tag h (mem_of_getElem? active)
  have hwaiters : s.waiters tag = flush.waiters := by simp [Session.waiters, hpending, active]
  have hother : ∀ a, a ≠ tag → (s.dropFlush tag).waiters a = s.waiters a := by
    intro a ha
    simp [Session.waiters, Session.dropFlush, Std.ExtTreeMap.getElem?_erase, Ne.symm ha]
  have hdropped : (s.dropFlush tag).Flushing (flush.waiters ++ tags) := by
    rw [← hwaiters]
    refine (forest.cut (.inl rfl)).congr ?_ ?_ ?_
    · intro a
      by_cases ha : a = tag
      · subst ha
        simp [Session.waiters, Session.dropFlush, hpending]
      · rw [Function.update_of_ne ha, hother a ha]
    · intro a
      refine (and_iff_left_of_imp fun h => ?_).symm
      rintro rfl
      exact forest.apart a h (mem_of_getElem? active)
    · intro a
      simp only [Session.dropFlush, Std.ExtTreeMap.mem_erase, ne_eq, Std.compare_eq_iff_eq]
      rw [and_comm, eq_comm]
  have hprunes : s.Prunes (s.dropFlush tag) := by
    refine ⟨fun _ => Iff.rfl, ?_, fun a ha => (Std.ExtTreeMap.mem_erase.1 ha).2⟩
    rintro a halive
    refine hother a ?_
    rintro rfl
    rcases halive with h | h
    · exact forest.apart a h (mem_of_getElem? active)
    · simp [Session.dropFlush] at h
  rw [answerFlush_eq]
  split
  · exact ⟨hdropped, hprunes⟩
  · have hreply := sameWaiting_replyOrFail order (s.dropFlush tag) ⟨tag, .flush⟩
      "Rflush could not be queued"
    exact ⟨hreply.flushing hdropped, hprunes.trans hreply.prunes⟩

/-- The walk over the loose flushes and those that wait for them. -/
theorem Works.flushing {tags : List Tag} (works : Works order tags s s')
    (forest : s.Flushing tags) : s'.Flushing [] ∧ s.Prunes s' := by
  induction works with
  | done => exact ⟨forest, (sameWaiting_of_eq rfl rfl).prunes⟩
  | @skip s _ tag _ idle _ _ =>
    have hactive : tag ∈ s.flushes := (forest.listed tag).2 (.inl List.mem_cons_self)
    rw [Std.ExtTreeMap.mem_iff_isSome_getElem?, idle] at hactive
    cases hactive
  | answer active _ ih =>
    obtain ⟨hforest, hprunes⟩ := flushing_answerFlush forest active
    obtain ⟨hdone, hrest⟩ := ih hforest
    exact ⟨hdone, hprunes.trans hrest⟩

/-- **A completion takes the tree of its operation apart.** -/
theorem flushing_finishPending (order : HashOrder) {p : PendingOperation} (books : Bookkeeping s)
    (forest : s.Flushing []) (present : s.pendingByTag[tag]? = some p) (id : OperationId)
    (completion : Completion) :
    ((s.untrack id tag p).finishPending order tag p completion).Flushing [] ∧
      (s.untrack id tag p).Prunes ((s.untrack id tag p).finishPending order tag p completion) ∧
      ∀ a, a ≠ tag → (s.untrack id tag p).waiters a = s.waiters a := by
  have hmem := mem_of_getElem? present
  have hflush := Std.ExtTreeMap.getElem?_eq_none (books.indexed.disjoint _ hmem)
  have hwaiters : s.waiters tag = p.flushWaiters := by simp [Session.waiters, present, hflush]
  have hother : ∀ a, a ≠ tag → (s.untrack id tag p).waiters a = s.waiters a := by
    intro a ha
    simp [Session.waiters, Session.untrack, Std.ExtTreeMap.getElem?_erase, Ne.symm ha]
  have huntracked : (s.untrack id tag p).Flushing p.flushWaiters := by
    have hcut := forest.cut (.inr ⟨hmem, rfl⟩)
    rw [hwaiters, List.append_nil] at hcut
    refine hcut.congr ?_ ?_ ?_
    · intro a
      by_cases ha : a = tag
      · subst ha
        simp [Session.waiters, Session.untrack, hflush]
      · rw [Function.update_of_ne ha, hother a ha]
    · intro a
      simp only [Session.untrack, Std.ExtTreeMap.mem_erase, ne_eq, Std.compare_eq_iff_eq]
      rw [and_comm, eq_comm]
    · intro a
      refine (and_iff_left_of_imp fun h => ?_).symm
      rintro rfl
      exact books.indexed.disjoint _ hmem h
  obtain ⟨s₁, s₂, s₃, hfinished⟩ := finishPending_stages order (s.untrack id tag p) tag p completion
  have hsettle : (s.untrack id tag p).SameWaiting s₁ := by
    obtain ⟨fids, count, hframe⟩ :=
      (settled_settle (s := s.untrack id tag p) p.continuation completion).frame
    rw [hfinished.settled, hframe]
    exact sameWaiting_of_eq rfl rfl
  have hdrain : s₁.SameWaiting s₂ := by
    rw [hfinished.drained]
    split
    · rw [drainFidsToCleanup_eq]
      exact sameWaiting_of_eq rfl rfl
    · exact sameWaiting_of_eq rfl rfl
  have hreply : s₂.SameWaiting s₃ := by
    rw [hfinished.replied]
    split
    · exact sameWaiting_of_eq rfl rfl
    · exact sameWaiting_replyOrFail _ _ _ _
  obtain ⟨hdone, hprunes⟩ :=
    hfinished.answered.flushing (hreply.flushing (hdrain.flushing (hsettle.flushing huntracked)))
  exact ⟨hdone, ((hsettle.prunes.trans hdrain.prunes).trans hreply.prunes).trans hprunes, hother⟩

/-! ## Reachable sessions -/

theorem flushing_of_reachable (reachable : Reachable s) : s.Flushing [] := by
  induction reachable with
  | new created =>
    simp only [Session.new, bind_eq_ok, pure_eq_ok] at created
    obtain ⟨_, -, rfl⟩ := created
    exact flushing_of_empty rfl rfl
  | @call s before order c ih =>
    have hbooks := bookkeeping_of_reachable before
    have hrenews := renews_always order s c
    cases c with
    | receiveBytes bytes =>
      exact answerOf_snd _ ▸ requests_flushing (runs_receiveBytes hrenews).requests hbooks ih
    | receiveFrame frame =>
      exact answerOf_snd _ ▸ requests_flushing (runs_receiveFrame hrenews).requests hbooks ih
    | complete completion =>
      refine completionAnswerOf_snd _ ▸ ?_
      have hcompleted := completed hbooks.indexed order completion
      generalize W9pt.Connection.complete order completion s = r at hcompleted ⊢
      cases hcompleted with
      | rejected => exact ih
      | forgotten => exact (sameWaiting_of_eq rfl rfl).flushing ih
      | finished active _ _ _ => exact (flushing_finishPending order hbooks ih active _ completion).1
    | pollEffect =>
      have hstep := pollStep s
      show (s.pollEffect.2).Flushing []
      generalize s.pollEffect = r at hstep ⊢
      cases hstep <;> exact (sameWaiting_of_eq rfl rfl).flushing ih
    | beginClose | transportClosed =>
      exact (sameWaiting_close order s s.decoder _).flushing ih

/-- **Flush waiters form a forest.** In every reachable session an active flush stands once in the
waiter lists taken together, waiting never cycles, and every active flush is found from an outstanding
operation. Hence the recursion of `finish_flush` ends, an accepted completion removes exactly the
flushes of the tree of its operation, and no flush is active when no operation is outstanding. -/
theorem flush_forest (s : Session) (reachable : Reachable s) :
    (∀ tag ∈ s.flushes, ∃ holder, (holder ∈ s.pendingByTag ∨ holder ∈ s.flushes) ∧
      (s.waiters holder).count tag = 1 ∧ ∀ other, other ≠ holder → tag ∉ s.waiters other) ∧
    (∀ tag, ¬ TransGen (Waits s.waiters) tag tag) ∧
    (∀ tag ∈ s.flushes, ∃ root ∈ s.pendingByTag, TransGen (Waits s.waiters) root tag) ∧
    (∀ order tag, Works order [tag] s (finishFlush order (s.flushes.size + 1) s tag)) ∧
    (∀ order completion tag p s', s.pendingByTag[tag]? = some p →
      p.operationId = completion.operationId → complete order completion s = .ok () s' →
        ∀ flush, flush ∈ s'.flushes ↔
          flush ∈ s.flushes ∧ ¬ TransGen (Waits s.waiters) tag flush) ∧
    (s.pendingByTag = ∅ → s.flushes = ∅) := by
  have hbooks := bookkeeping_of_reachable reachable
  have hforest := flushing_of_reachable reachable
  refine ⟨?_, hforest.acyclic, fun tag => hforest.reached, ?_, ?_, ?_⟩
  · intro tag hactive
    obtain ⟨holder, hmem⟩ := ((hforest.listed tag).1 hactive).resolve_left List.not_mem_nil
    refine ⟨holder, hforest.alive _ _ hmem, List.count_eq_one_of_mem (hforest.once holder) hmem, ?_⟩
    exact fun other hne hother => hne (hforest.parent _ _ _ hother hmem)
  · exact fun order tag => (finishFlush_works order _ s tag (Nat.lt_succ_self _)).1
  · intro order completion tag p s' present hid accepted flush
    have hcompleted := completed hbooks.indexed order completion
    rw [accepted] at hcompleted
    have hindex := (hbooks.indexed.inverse _ _).2 ⟨p, present, hid⟩
    cases hcompleted with
    | forgotten idle => rw [hindex] at idle; cases idle
    | @finished tag' p' active index hid' valid =>
      rw [hid', hindex] at index
      cases index
      rw [present] at active
      cases active
      obtain ⟨hdone, hprunes, hother⟩ :=
        flushing_finishPending order hbooks hforest present p.operationId completion
      generalize finishPending order _ tag p completion = s' at hdone hprunes ⊢
      have hmem := mem_of_getElem? present
      have hroot : ∀ a, a ∈ s'.pendingByTag ↔ a ∈ s.pendingByTag ∧ a ≠ tag := by
        intro a
        rw [hprunes.pending a]
        simp only [Session.untrack, Std.ExtTreeMap.mem_erase, ne_eq, Std.compare_eq_iff_eq]
        rw [and_comm, eq_comm]
      have hremaining : flush ∈ s.flushes → (flush ∈ s'.flushes ↔ _) :=
        hforest.mem_remaining hdone hmem hroot fun a alive => by
          refine (hprunes.waiters a alive).trans (hother a ?_)
          rintro rfl
          rcases alive with h | h
          · exact ((hroot a).1 h).2 rfl
          · exact hbooks.indexed.disjoint a hmem (hprunes.flushes a h)
      exact ⟨fun h => ⟨hprunes.flushes flush h, (hremaining (hprunes.flushes flush h)).1 h⟩,
        fun h => (hremaining h.1).2 h.2⟩
  · intro hnone
    refine Std.ExtTreeMap.eq_empty_iff_forall_not_mem.2 fun tag hmem => ?_
    obtain ⟨root, hroot, -⟩ := hforest.reached hmem
    rw [hnone] at hroot
    simp at hroot

/-- A `Tstatfs` under tag 2 is outstanding, and a `Tflush` under tag 3 waits for it. -/
def flushedSession : Session := narrowSession.run .sorted [
  .receiveFrame versionFrame, .pollEffect,
  .receiveFrame attachFrame, .pollEffect, .complete attachedCompletion, .pollEffect,
  .receiveFrame statfsFrame, .pollEffect,
  .receiveFrame [9, 0, 0, 0, 108, 3, 0, 2, 0]]

theorem flush_forest_flushedSession : Reachable flushedSession ∧ (3 : Tag) ∈ flushedSession.flushes ∧
    ∃ root ∈ flushedSession.pendingByTag, TransGen (Waits flushedSession.waiters) root 3 := by
  have hreachable : Reachable flushedSession := narrowSession_reachable.run _ _
  have hactive : (3 : Tag) ∈ flushedSession.flushes := by
    rw [Std.ExtTreeMap.mem_iff_isSome_getElem?]
    decide +kernel
  exact ⟨hreachable, hactive, (flush_forest flushedSession hreachable).2.2.1 3 hactive⟩

end W9pt.Connection

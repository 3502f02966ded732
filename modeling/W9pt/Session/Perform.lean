import W9pt.Session.Plan

/-!
# Carrying out a plan

What `Plan.perform` does, with the limit that decides each outcome. A reservation that was made for
an operation is given up again when the operation cannot be emitted, and then the session is as it was
before (`Reservation.release_reserve`); the allocated identifier is not given back (`Emits.burned`).
-/

namespace W9pt.Connection

open Lib Protocol Session

/-! ## Reservations -/

/-- The reservation is granted (limits.rs:174-194). -/
def Accounting.Fits (current amount limit : Nat) : Prop :=
  current + amount ≤ Accounting.usizeMax ∧ current + amount ≤ limit

theorem reserve_cases (current amount limit : Nat) (kind : LimitKind) :
    (Accounting.Fits current amount limit ∧
      Accounting.reserve current amount limit kind = .ok (current + amount)) ∨
    (¬ Accounting.Fits current amount limit ∧
      ∃ e, Accounting.reserve current amount limit kind = .error e) := by
  unfold Accounting.Fits Accounting.reserve
  by_cases hmax : Accounting.usizeMax < current + amount
  · rw [if_pos hmax]
    exact .inr ⟨by omega, _, rfl⟩
  · rw [if_neg hmax]
    by_cases hlimit : limit < current + amount
    · rw [if_pos hlimit]
      exact .inr ⟨by omega, _, rfl⟩
    · rw [if_neg hlimit]
      exact .inl ⟨by omega, rfl⟩

/-- The queue takes an effect of this size. -/
def Session.Accepts (s : Session) (bytes : Nat) : Prop :=
  Accounting.Fits s.accounting.queuedEffects 1 s.limits.maxQueuedEffects ∧
    Accounting.Fits s.accounting.queuedEffectBytes bytes s.limits.maxQueuedEffectBytes

variable {s : Session}

theorem queueEffect_of_accepts {effect : Effect} (h : s.Accepts effect.retainedBytes) :
    queueEffect effect s = .ok () (s.pushEffect effect) := by
  unfold queueEffect
  rcases reserve_cases s.accounting.queuedEffects 1 s.limits.maxQueuedEffects .queuedEffects with
    ⟨-, hslot⟩ | ⟨hslot, -⟩
  · rcases reserve_cases s.accounting.queuedEffectBytes effect.retainedBytes
      s.limits.maxQueuedEffectBytes .queuedEffectBytes with ⟨-, hbytes⟩ | ⟨hbytes, -⟩
    · rw [hslot]
      simp only [hbytes]
    · exact absurd h.2 hbytes
  · exact absurd h.1 hslot

theorem queueEffect_of_full {effect : Effect} (h : ¬ s.Accepts effect.retainedBytes) :
    ∃ e, queueEffect effect s = .error (.error (.limit e)) s := by
  unfold queueEffect
  rcases reserve_cases s.accounting.queuedEffects 1 s.limits.maxQueuedEffects .queuedEffects with
    ⟨hslot, hok⟩ | ⟨-, e, he⟩
  · rcases reserve_cases s.accounting.queuedEffectBytes effect.retainedBytes
      s.limits.maxQueuedEffectBytes .queuedEffectBytes with ⟨hbytes, -⟩ | ⟨-, e, he⟩
    · exact absurd ⟨hslot, hbytes⟩ h
    · rw [hok]
      simp only [he]
      exact ⟨e, rfl⟩
  · rw [he]
    exact ⟨e, rfl⟩

/-- The reply can be encoded but the queue does not take it. -/
def Session.Overflows (s : Session) (msize : UInt32) (response : Response) : Prop :=
  ∃ bytes, encodeResponse response msize = .ok bytes ∧ ¬ s.Accepts bytes.length

/-- Queueing a reply runs into a limit exactly when the reply overflows the queue. -/
theorem queueResponse_limit {response : Response} {s' : Session} {e : LimitExceeded}
    (h : queueResponse response s = .error (.error (.limit e)) s') :
    s' = s ∧ s.Overflows s.activeMsize response := by
  unfold queueResponse at h
  cases hbytes : encodeResponse response s.activeMsize with
  | error error => rw [hbytes] at h; cases h
  | ok bytes =>
    simp only [hbytes] at h
    by_cases haccepts : s.Accepts (Effect.sendFrame bytes).retainedBytes
    · rw [queueEffect_of_accepts haccepts] at h
      cases h
    · obtain ⟨e', he⟩ := queueEffect_of_full haccepts
      rw [he] at h
      cases h
      exact ⟨rfl, bytes, hbytes, haccepts⟩

theorem queueResponse_of_overflows {response : Response} (h : s.Overflows s.activeMsize response) :
    ∃ e, queueResponse response s = .error (.error (.limit e)) s := by
  obtain ⟨bytes, hbytes, hfull⟩ := h
  unfold queueResponse
  rw [hbytes]
  exact queueEffect_of_full hfull

/-! ## What a plan leaves behind -/

variable {s s₁ : Session} {tag : Tag}

/-- The counters that emitting looks at are not those of the fids. -/
structure Session.SameQueue (s t : Session) : Prop where
  limits : t.limits = s.limits
  queuedEffects : t.accounting.queuedEffects = s.accounting.queuedEffects
  queuedEffectBytes : t.accounting.queuedEffectBytes = s.accounting.queuedEffectBytes
  inFlightTags : t.accounting.inFlightTags = s.accounting.inFlightTags
  pendingWriteBytes : t.accounting.pendingWriteBytes = s.accounting.pendingWriteBytes
  operationIds : t.operationIds = s.operationIds
  pendingByTag : t.pendingByTag = s.pendingByTag

theorem Reservation.reserve_sameQueue {reservation : Reservation}
    (h : reservation.reserve s = .ok s₁) : s.SameQueue s₁ := by
  cases reservation with
  | nothing | take =>
    cases h
    exact ⟨rfl, rfl, rfl, rfl, rfl, rfl, rfl⟩
  | claim fid =>
    rcases reserve_cases s.accounting.fids 1 s.limits.maxFids .fids with ⟨-, hok⟩ | ⟨-, e, he⟩
    · simp only [reserve, hok, Except.ok.injEq] at h
      subst h
      exact ⟨rfl, rfl, rfl, rfl, rfl, rfl, rfl⟩
    · simp only [reserve, he] at h
      cases h

/-- The limits an operation meets before its identifier is allocated. -/
structure Session.Admits (s : Session) (writeBytes : Nat) : Prop where
  tags : Accounting.Fits s.accounting.inFlightTags 1 s.limits.maxInFlightTags
  writes : Accounting.Fits s.accounting.pendingWriteBytes writeBytes s.limits.maxPendingWriteBytes

theorem Session.SameQueue.admits {t : Session} (h : s.SameQueue t) {writeBytes : Nat} :
    t.Admits writeBytes ↔ s.Admits writeBytes := by
  constructor
  · intro hadmits
    have htags := hadmits.tags
    have hwrites := hadmits.writes
    rw [h.inFlightTags, h.limits] at htags
    rw [h.pendingWriteBytes, h.limits] at hwrites
    exact ⟨htags, hwrites⟩
  · intro hadmits
    constructor
    · rw [h.inFlightTags, h.limits]
      exact hadmits.tags
    · rw [h.pendingWriteBytes, h.limits]
      exact hadmits.writes

theorem Session.SameQueue.accepts {t : Session} (h : s.SameQueue t) {bytes : Nat} :
    t.Accepts bytes ↔ s.Accepts bytes := by
  unfold Session.Accepts
  rw [h.queuedEffects, h.queuedEffectBytes, h.limits]

/-- What emitting under a free tag does, with the reason for each outcome. -/
inductive Emits (s : Session) (tag : Tag) (work : Work) (continuation : Continuation)
    (writeBytes : Nat) : EStateM.Result (Abort SessionError) Session Unit → Prop where
  | refused (e : LimitExceeded) (full : ¬ s.Admits writeBytes) :
      Emits s tag work continuation writeBytes (.error (.error (.limit e)) s)
  | exhausted (admits : s.Admits writeBytes) (none : s.operationIds = none) :
      Emits s tag work continuation writeBytes (.error (.error .operationIdExhausted) s)
  | burned (e : LimitExceeded) {id : OperationId} (admits : s.Admits writeBytes)
      (next : s.operationIds = some id) (full : ¬ s.Accepts (work.effect id).retainedBytes) :
      Emits s tag work continuation writeBytes (.error (.error (.limit e)) (s.issue id))
  | emitted {id : OperationId} (admits : s.Admits writeBytes) (next : s.operationIds = some id)
      (room : s.Accepts (work.effect id).retainedBytes) :
      Emits s tag work continuation writeBytes
        (.ok () (((s.issue id).pushEffect (work.effect id)).track tag
          ⟨id, work.expected, work.kind, continuation, false, false, [], writeBytes⟩))

theorem emits (tag : Tag) (free : tag ∉ s.pendingByTag) (work : Work) (continuation : Continuation)
    (writeBytes : Nat) :
    Emits s tag work continuation writeBytes (work.emit tag continuation writeBytes s) := by
  unfold Work.emit emitOperation
  rw [if_neg free]
  rcases reserve_cases s.accounting.inFlightTags 1 s.limits.maxInFlightTags .inFlightTags with
    ⟨htags, hok⟩ | ⟨hfull, e, he⟩
  · rw [hok]
    rcases reserve_cases s.accounting.pendingWriteBytes writeBytes s.limits.maxPendingWriteBytes
      .pendingWriteBytes with ⟨hwrites, hok'⟩ | ⟨hfull, e, he⟩
    · simp only [hok']
      have hadmits : s.Admits writeBytes := ⟨htags, hwrites⟩
      cases hid : s.operationIds with
      | none => exact .exhausted hadmits hid
      | some id =>
        simp only
        by_cases hroom : (s.issue id).Accepts (work.effect id).retainedBytes
        · rw [queueEffect_of_accepts hroom]
          exact .emitted hadmits hid hroom
        · obtain ⟨e, he⟩ := queueEffect_of_full hroom
          rw [he]
          exact .burned e hadmits hid hroom
    · simp only [he]
      exact .refused e fun hadmits => hfull hadmits.writes
  · rw [he]
    exact .refused e fun hadmits => hfull hadmits.tags

end W9pt.Connection

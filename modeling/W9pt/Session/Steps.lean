import W9pt.Session.Plan

/-!
# Queueing, reserving and renegotiating

What queueing an effect or a reply can do, what a reservation does to the fids of a session, and the
state a renegotiation leaves. The handlers are taken apart in `Moves`.
-/

namespace W9pt.Connection

open Lib Protocol Session

/-! ## Queueing -/

/-- The effect fits the bounds of the queue. -/
structure Session.HasRoom (s : Session) (effect : Effect) : Prop where
  slot : s.accounting.queuedEffects + 1 ≤ s.limits.maxQueuedEffects
  bytes : s.accounting.queuedEffectBytes + effect.retainedBytes ≤ s.limits.maxQueuedEffectBytes

theorem queueEffect_cases (effect : Effect) (s : Session) :
    (∃ e, queueEffect effect s = .error (.error e) s) ∨
    (s.HasRoom effect ∧ queueEffect effect s = .ok () (s.pushEffect effect)) := by
  unfold queueEffect
  cases hslot : Accounting.reserve s.accounting.queuedEffects 1 s.limits.maxQueuedEffects
    .queuedEffects with
  | error e => exact .inl ⟨_, rfl⟩
  | ok slots =>
    cases hbytes : Accounting.reserve s.accounting.queuedEffectBytes effect.retainedBytes
      s.limits.maxQueuedEffectBytes .queuedEffectBytes with
    | error e => exact .inl ⟨_, rfl⟩
    | ok total =>
      have h1 := Accounting.reserve_eq_ok hslot
      have h2 := Accounting.reserve_eq_ok hbytes
      exact .inr ⟨⟨by omega, by omega⟩, rfl⟩

/-- A reply that was encoded and fits the queue. -/
structure Session.CanReply (s : Session) (response : Response) (bytes : Bytes) : Prop where
  encoded : encodeResponse response s.activeMsize = .ok bytes
  room : s.HasRoom (.sendFrame bytes)

abbrev Session.pushFrame (s : Session) (bytes : Bytes) : Session := s.pushEffect (.sendFrame bytes)

theorem queueResponse_cases (response : Response) (s : Session) :
    (∃ e, queueResponse response s = .error (.error e) s) ∨
    (∃ bytes, s.CanReply response bytes ∧ queueResponse response s = .ok () (s.pushFrame bytes)) := by
  unfold queueResponse
  cases hbytes : encodeResponse response s.activeMsize with
  | error e => exact .inl ⟨_, rfl⟩
  | ok bytes =>
    rcases queueEffect_cases (.sendFrame bytes) s with ⟨e, he⟩ | ⟨hroom, hok⟩
    · exact .inl ⟨e, he⟩
    · exact .inr ⟨bytes, ⟨hbytes, hroom⟩, hok⟩

/-! ## Reservations -/

/-- Reserving a fid for an operation: a new one is claimed, or one in use is set aside. -/
inductive Reserved (s : Session) : Option Fid → Session → Prop where
  | nothing : Reserved s none s
  | claimed {fid : Fid} (absent : fid ∉ s.fids) (room : s.accounting.fids + 1 ≤ s.limits.maxFids) :
      Reserved s (some fid) (s.claim fid)
  | taken {fid : Fid} {state : FidState} (present : s.fids[fid]? = some state)
      (idle : state ≠ .pending) : Reserved s (some fid) (s.setFid fid .pending)

/-- The operation that is tracked when work is emitted. -/
def Work.pending (work : Work) (id : OperationId) (continuation : Continuation) (writeBytes : Nat) :
    PendingOperation :=
  ⟨id, work.expected, work.kind, continuation, false, false, [], writeBytes⟩

/-- The session after work was emitted from `s`, where its fid is already reserved. -/
def Session.emitted (s : Session) (tag : Tag) (id : OperationId) (work : Work)
    (continuation : Continuation) (writeBytes : Nat) : Session :=
  ((s.issue id).pushEffect (work.effect id)).track tag (work.pending id continuation writeBytes)

variable {s : Session}

variable {s₁ : Session}

theorem Reserved.frame {fid : Option Fid} (h : Reserved s fid s₁) :
    ∃ fids count, s₁ = { s with fids, accounting := { s.accounting with fids := count } } := by
  cases h with
  | nothing => exact ⟨s.fids, s.accounting.fids, rfl⟩
  | claimed => exact ⟨_, _, rfl⟩
  | taken => exact ⟨_, s.accounting.fids, rfl⟩

/-- The reservation fits the fids of the session it was planned in. -/
def Reservation.Valid (s : Session) : Reservation → Prop
  | nothing => True
  | claim fid => fid ∉ s.fids
  | take fid state => s.fids[fid]? = some state

def Plan.Valid (s : Session) : Plan → Prop
  | reply _ => True
  | clone fid _ => fid ∉ s.fids
  | emit reservation .. => reservation.Valid s

theorem Decided.valid {plan : Plan} (h : Decided s plan) : plan.Valid s := by
  cases h with
  | reply => trivial
  | clone _ _ absent => exact absent
  | operate | pair | authenticate => trivial
  | change present | finish present | dismiss present => exact present
  | yield _ absent | enrol absent => exact absent

theorem plan_valid (s : Session) (body : RequestBody) : (s.plan body).Valid s :=
  (decided_plan s body).valid

theorem setFid_setFid_of_present {fid : Fid} {state : FidState}
    (present : s.fids[fid]? = some state) : (s.setFid fid .pending).setFid fid state = s := by
  unfold Session.setFid
  simp only [FinMap.insert_insert, FinMap.insert_of_getElem? present]

theorem retireFid_claim {fid : Fid} (absent : fid ∉ s.fids) : (s.claim fid).retireFid fid = s := by
  have hmem : fid ∈ (s.claim fid).fids := by simp [Session.claim]
  rw [Session.retireFid, if_pos hmem]
  simp only [Session.claim, FinMap.erase_insert_of_notMem absent, Accounting.release,
    Nat.add_sub_cancel]

theorem reserve_claim {fid : Fid} (h : (Reservation.claim fid).reserve s = .ok s₁) :
    s.accounting.fids + 1 ≤ s.limits.maxFids ∧ s₁ = s.claim fid := by
  simp only [Reservation.reserve] at h
  cases hroom : Accounting.reserve s.accounting.fids 1 s.limits.maxFids .fids with
  | error e => rw [hroom] at h; cases h
  | ok total =>
    rw [hroom] at h
    cases h
    have := Accounting.reserve_eq_ok hroom
    exact ⟨by omega, rfl⟩

/-- Giving up a reservation restores the session, also after an identifier was allocated. -/
theorem Reservation.release_reserve {reservation : Reservation} (valid : reservation.Valid s)
    (h : reservation.reserve s = .ok s₁) :
    reservation.release s₁ = s ∧ ∀ id, reservation.release (s₁.issue id) = s.issue id := by
  cases reservation with
  | nothing =>
    cases h
    exact ⟨rfl, fun _ => rfl⟩
  | take fid state =>
    cases h
    exact ⟨setFid_setFid_of_present valid,
      fun id => setFid_setFid_of_present (s := s.issue id) valid⟩
  | claim fid =>
    obtain rfl := (reserve_claim h).2
    exact ⟨retireFid_claim valid, fun id => retireFid_claim (s := s.issue id) valid⟩

/-- The reservation of a plan is for the fid its operation owns. -/
theorem Decided.reserved {reservation : Reservation} {work : Work} {continuation : Continuation}
    {writeBytes : Nat} (h : Decided s (.emit reservation work continuation writeBytes))
    (hs₁ : reservation.reserve s = .ok s₁) : Reserved s continuation.owned s₁ := by
  have hclaimed : ∀ fid, fid ∉ s.fids → reservation = .claim fid → Reserved s (some fid) s₁ := by
    rintro fid habsent rfl
    obtain ⟨hroom, rfl⟩ := reserve_claim hs₁
    exact .claimed habsent hroom
  cases h with
  | operate _ _ _ _ free =>
    cases hs₁
    rw [free]
    exact .nothing
  | pair => cases hs₁; exact .nothing
  | authenticate _ authenticates => cases hs₁; cases authenticates <;> exact .nothing
  | change present _ changes => cases hs₁; cases changes <;> exact .taken present (by simp)
  | finish present _ ends => cases hs₁; cases ends <;> exact .taken present (by simp)
  | dismiss present => cases hs₁; exact .taken present (by simp)
  | yield _ absent _ yields => cases yields <;> exact hclaimed _ absent rfl
  | enrol absent admits => cases admits <;> exact hclaimed _ absent rfl

/-! ## Tags and renegotiation -/

/-- The state of a session that a `Tversion` renegotiated, before `Rversion` is queued. -/
def Session.renegotiate (order : HashOrder) (s : Session) (msize : UInt32) (version : Bytes) :
    Session :=
  { s.resetForVersion order with
    negotiatedMsize := if version = dialect then some (min msize s.limits.maxFrameSize) else none }

/-- A tag that is neither pending nor an active flush. -/
def Session.Inactive (s : Session) (tag : Tag) : Prop := tag ∉ s.pendingByTag ∧ tag ∉ s.flushes

/-- A request that starts the session anew: an acceptable `Tversion` (mod.rs:1542-1568). -/
def Renegotiates (request : Request) : Prop :=
  request.tag = notag ∧ ∃ msize version, request.body = .version msize version ∧ 21 ≤ msize

end W9pt.Connection

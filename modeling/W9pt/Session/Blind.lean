import W9pt.Session.Invariant
import W9pt.Protocol.Framing

/-!
# Requests are served without looking at the retained bytes

`dispatch` reads every part of the session but one: the tail that the frame decoder keeps of the
input. A request that neither renegotiates nor closes the session leaves that tail alone
(`dispatch_retaining`); one that does throws it away, whatever it was
(`dispatch_resets`).
-/

namespace W9pt.Connection

open Lib Protocol Session

def Session.retaining (s : Session) (tail : Bytes) : Session :=
  { s with decoder := s.decoder.retaining tail }

section
variable (s : Session) (tail : Bytes)

@[simp] theorem retaining_limits : (s.retaining tail).limits = s.limits := rfl
@[simp] theorem retaining_context : (s.retaining tail).context = s.context := rfl
@[simp] theorem retaining_accounting : (s.retaining tail).accounting = s.accounting := rfl
@[simp] theorem retaining_operationIds : (s.retaining tail).operationIds = s.operationIds := rfl
@[simp] theorem retaining_pendingByTag : (s.retaining tail).pendingByTag = s.pendingByTag := rfl
@[simp] theorem retaining_flushes : (s.retaining tail).flushes = s.flushes := rfl
@[simp] theorem retaining_fids : (s.retaining tail).fids = s.fids := rfl
@[simp] theorem retaining_negotiatedMsize :
    (s.retaining tail).negotiatedMsize = s.negotiatedMsize := rfl
@[simp] theorem retaining_activeMsize : (s.retaining tail).activeMsize = s.activeMsize := rfl
@[simp] theorem retaining_terminalReason :
    (s.retaining tail).terminalReason = s.terminalReason := rfl
@[simp] theorem retaining_issue (id : OperationId) :
    (s.retaining tail).issue id = (s.issue id).retaining tail := rfl

end

/-- The result of a method, its state changed. -/
def onState {ε α : Type} (f : Session → Session) :
    EStateM.Result ε Session α → EStateM.Result ε Session α
  | .ok a s => .ok a (f s)
  | .error e s => .error e (f s)

/-- A method that neither reads nor changes the retained bytes. -/
def Blind {α : Type} (action : Act α) : Prop :=
  ∀ s tail, action (s.retaining tail) = onState (·.retaining tail) (action s)

variable {α β : Type} {s : Session} {tail : Bytes}

/-! ## Combinators -/

theorem blind_pure (a : α) : Blind (pure a : Act α) := fun _ _ => rfl

theorem Blind.ite {c : Session → Prop} [DecidablePred c] {f g : Act α}
    (hc : ∀ s tail, c (s.retaining tail) ↔ c s) (hf : Blind f) (hg : Blind g) :
    Blind fun s => if c s then f s else g s := by
  intro s tail
  by_cases h : c s
  · simp only [if_pos ((hc s tail).2 h), if_pos h]
    exact hf s tail
  · simp only [if_neg (fun h' => h ((hc s tail).1 h')), if_neg h]
    exact hg s tail

theorem Blind.undoing {action : Act Unit} {undo : Session → Session} (h : Blind action)
    (hundo : ∀ s tail, undo (s.retaining tail) = (undo s).retaining tail) :
    Blind (undoing action undo) := by
  intro s tail
  unfold W9pt.Connection.undoing
  rw [h s tail]
  cases action s with
  | error e s' => exact congrArg _ (hundo s' tail)
  | ok a s' => rfl

/-! ## Queueing and emitting -/

theorem blind_queueEffect (effect : Effect) : Blind (queueEffect effect) := by
  intro s tail
  simp only [queueEffect, retaining_accounting, retaining_limits]
  cases Accounting.reserve s.accounting.queuedEffects 1 s.limits.maxQueuedEffects
    .queuedEffects with
  | error e => rfl
  | ok total =>
    simp only
    cases Accounting.reserve s.accounting.queuedEffectBytes effect.retainedBytes
      s.limits.maxQueuedEffectBytes .queuedEffectBytes with
    | error e => rfl
    | ok total => rfl

theorem blind_queueResponse (response : Response) : Blind (queueResponse response) := by
  intro s tail
  simp only [queueResponse, retaining_activeMsize]
  cases encodeResponse response s.activeMsize with
  | error e => rfl
  | ok bytes => exact blind_queueEffect _ s tail

theorem blind_queueStateError (tag : Tag) (error : SessionStateError) :
    Blind (queueStateError tag error) := blind_queueResponse _

theorem blind_emitOperation (tag : Tag) (expected : ExpectedCompletion) (kind : CancelKind)
    (continuation : Continuation) (writeBytes : Nat) (makeEffect : OperationId → Effect) :
    Blind (emitOperation tag expected kind continuation writeBytes makeEffect) := by
  refine Blind.ite (c := fun s => tag ∈ s.pendingByTag) (fun _ _ => Iff.rfl)
    (blind_queueStateError tag .duplicateTag) ?_
  intro s tail
  simp only [retaining_accounting, retaining_limits, retaining_operationIds, retaining_issue]
  cases Accounting.reserve s.accounting.inFlightTags 1 s.limits.maxInFlightTags .inFlightTags with
  | error e => rfl
  | ok total =>
    simp only
    cases Accounting.reserve s.accounting.pendingWriteBytes writeBytes
      s.limits.maxPendingWriteBytes .pendingWriteBytes with
    | error e => rfl
    | ok total =>
      simp only
      cases s.operationIds with
      | none => rfl
      | some id =>
        simp only [blind_queueEffect (makeEffect id) (s.issue id) tail]
        cases queueEffect (makeEffect id) (s.issue id) with
        | error e s' => rfl
        | ok u s' => rfl

/-! ## Plans -/

theorem retireFid_retaining (fid : Fid) (s : Session) (tail : Bytes) :
    (s.retaining tail).retireFid fid = (s.retireFid fid).retaining tail := by
  unfold retireFid
  by_cases hmem : fid ∈ s.fids
  · rw [if_pos hmem, if_pos (show fid ∈ (s.retaining tail).fids from hmem)]
    rfl
  · rw [if_neg hmem, if_neg (show fid ∉ (s.retaining tail).fids from hmem)]

theorem release_retaining (reservation : Reservation) (s : Session) (tail : Bytes) :
    reservation.release (s.retaining tail) = (reservation.release s).retaining tail := by
  cases reservation with
  | nothing | take => rfl
  | claim fid => exact retireFid_retaining fid s tail

theorem reserve_retaining (reservation : Reservation) (s : Session) (tail : Bytes) :
    reservation.reserve (s.retaining tail) = (reservation.reserve s).map (·.retaining tail) := by
  cases reservation with
  | nothing | take => rfl
  | claim fid =>
    simp only [Reservation.reserve, retaining_accounting, retaining_limits]
    cases Accounting.reserve s.accounting.fids 1 s.limits.maxFids .fids with
    | error e => rfl
    | ok total => rfl

theorem blind_perform (tag : Tag) (decision : Plan) : Blind (decision.perform tag) := by
  intro s tail
  cases decision with
  | reply body => exact blind_queueResponse _ s tail
  | clone fid object =>
    simp only [Plan.perform, reserve_retaining]
    cases (Reservation.claim fid).reserve s with
    | error e => rfl
    | ok s₁ => exact blind_queueResponse _ (s₁.setFid fid (.object object)) tail
  | emit reservation work continuation writeBytes =>
    simp only [Plan.perform, reserve_retaining]
    cases reservation.reserve s with
    | error e => rfl
    | ok s₁ =>
      exact (blind_emitOperation tag _ _ continuation writeBytes _).undoing
        (release_retaining reservation) s₁ tail

/-- **No handler looks at the retained bytes**: they take no part in its plan. -/
theorem blind_serve (tag : Tag) {body : RequestBody} (plain : ∀ oldTag, body ≠ .flush oldTag)
    (unversioned : ∀ m v, body ≠ .version m v) : Blind (serve tag body) := by
  intro s tail
  rw [(carries_serve tag _ plain unversioned).performs,
    (carries_serve tag _ plain unversioned).performs]
  exact blind_perform tag (s.plan body) s tail

theorem blind_handleFlush (tag oldTag : Tag) : Blind (handleFlush tag oldTag) := by
  intro s tail
  simp only [handleFlush, retaining_pendingByTag, retaining_accounting, retaining_limits,
    retaining_flushes]
  have hcancel : ∀ target, Blind (requestCancel target) := by
    intro target
    unfold requestCancel
    split
    · exact blind_pure _
    · exact blind_queueEffect _
  cases s.pendingByTag[oldTag]? with
  | some target =>
    simp only
    cases Accounting.reserve s.accounting.inFlightTags 1 s.limits.maxInFlightTags
      .inFlightTags with
    | error e => rfl
    | ok total =>
      simp only [hcancel target s tail]
      cases requestCancel target s with
      | error e s' => rfl
      | ok u s' =>
        simp only [onState, retaining_pendingByTag]
        cases s'.pendingByTag[oldTag]? with
        | none => rfl
        | some target => rfl
  | none =>
    simp only
    cases s.flushes[oldTag]? with
    | none => exact blind_queueResponse _ s tail
    | some flush =>
      simp only
      cases Accounting.reserve s.accounting.inFlightTags 1 s.limits.maxInFlightTags
        .inFlightTags with
      | error e => rfl
      | ok total =>
        simp only
        cases (s.flushes.insert tag ⟨false, []⟩)[oldTag]? with
        | none => rfl
        | some target => rfl

/-! ## Dispatch -/

theorem failDecode_retaining (order : HashOrder) (error : DecodeError) (s : Session)
    (tail : Bytes) : (s.retaining tail).failDecode order error = s.failDecode order error := rfl

theorem resetForVersion_retaining (order : HashOrder) (s : Session) (tail : Bytes) :
    (s.retaining tail).resetForVersion order = s.resetForVersion order := rfl

/-- **A request with the reserved tag resets the decoder**: it renegotiates or closes the session, so
it does not matter what was retained. -/
theorem dispatch_resets (order : HashOrder) {request : Request} (htag : request.tag = notag)
    (s : Session) (tail : Bytes) :
    dispatch order request (s.retaining tail) = dispatch order request s := by
  unfold dispatch
  split
  · unfold handleVersion
    rw [if_neg (not_not.2 htag), if_neg (not_not.2 htag)]
    split
    · rfl
    · simp only [retaining_limits, resetForVersion_retaining]
  · rw [if_pos htag, if_pos htag]
    rfl

/-- **Any other request leaves the retained bytes alone**, and they do not matter to it. -/
theorem dispatch_retaining (order : HashOrder) {request : Request} (htag : request.tag ≠ notag) :
    Blind (dispatch order request) := by
  have hduplicate : ∀ (s : Session) (tail : Bytes),
      (request.tag ∈ (s.retaining tail).pendingByTag ∨ request.tag ∈ (s.retaining tail).flushes) ↔
        (request.tag ∈ s.pendingByTag ∨ request.tag ∈ s.flushes) := fun _ _ => Iff.rfl
  intro s tail
  unfold dispatch
  split
  · unfold handleVersion
    rw [if_pos htag, if_pos htag]
    exact blind_queueStateError _ _ s tail
  · rename_i hversion
    rw [if_neg htag, if_neg htag]
    by_cases hactive : request.tag ∈ s.pendingByTag ∨ request.tag ∈ s.flushes
    · rw [if_pos hactive, if_pos ((hduplicate s tail).2 hactive)]
      exact blind_queueStateError _ _ s tail
    · rw [if_neg hactive, if_neg (fun h => hactive ((hduplicate s tail).1 h))]
      rw [retaining_negotiatedMsize]
      split
      · exact blind_queueStateError _ _ s tail
      · split
        · exact blind_handleFlush _ _ s tail
        · rename_i hplain
          exact blind_serve _ hplain hversion s tail

end W9pt.Connection

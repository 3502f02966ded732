import W9pt.Session.Chunking

/-!
# Requests refused by a limit

A request that runs into a limit is answered with `Err` and is meant to leave nothing behind, so that
the host can drain effects and submit the frame again. `backpressure_atomic_iff` says exactly when
that is so. Three refusals leave a trace (`Torn`):

* a `Tversion` resets the session before it finds that `Rversion` does not fit
  (`mod.rs:1555-1573`);
* a walk of no names keeps its new fid when `Rwalk` does not fit (`mod.rs:1262-1273`);
* an operation whose effect does not fit burns its identifier (`mod.rs:1825-1837`), which matters
  when it was the last one.
-/

namespace W9pt.Connection

open Lib Protocol Session

variable {s s₁ : Session} {tag : Tag}

/-! ## What a plan leaves behind -/

variable {e : LimitExceeded}

/-- A plan that runs into a limit leaves the session as it was, keeps the clone it cannot announce, or
burns an identifier. -/
theorem perform_limit {plan : Plan} {s' : Session} (valid : plan.Valid s)
    (free : tag ∉ s.pendingByTag) (h : plan.perform tag s = .error (.error (.limit e)) s') :
    s' = s ∨
    (∃ fid object, plan = .clone fid object ∧
      Accounting.Fits s.accounting.fids 1 s.limits.maxFids ∧
      s.Overflows s.activeMsize ⟨tag, .walk []⟩ ∧ s' = (s.claim fid).setFid fid (.object object)) ∨
    (∃ reservation work continuation writeBytes id,
      plan = .emit reservation work continuation writeBytes ∧
      (reservation.reserve s).isOk = true ∧ s.Admits writeBytes ∧ s.operationIds = some id ∧
      ¬ s.Accepts (work.effect id).retainedBytes ∧ s' = s.issue id) := by
  cases plan with
  | reply body => exact .inl (queueResponse_limit h).1
  | clone fid object =>
    rcases reserve_cases s.accounting.fids 1 s.limits.maxFids .fids with ⟨hfits, hok⟩ | ⟨-, e', he⟩
    · simp only [Plan.perform, Reservation.reserve, hok] at h
      obtain ⟨hs', hover⟩ := queueResponse_limit h
      exact .inr (.inl ⟨fid, object, rfl, hfits, hover, hs'⟩)
    · simp only [Plan.perform, Reservation.reserve, he] at h
      cases h
      exact .inl rfl
  | emit reservation work continuation writeBytes =>
    simp only [Plan.perform] at h
    cases hreserve : reservation.reserve s with
    | error e' =>
      rw [hreserve] at h
      cases h
      exact .inl rfl
    | ok s₁ =>
      simp only [hreserve, undoing] at h
      have hsame := Reservation.reserve_sameQueue hreserve
      obtain ⟨hundo, hissue⟩ := Reservation.release_reserve valid hreserve
      have hemits := emits tag (by rw [hsame.pendingByTag]; exact free) work continuation writeBytes
      generalize work.emit tag continuation writeBytes s₁ = r at h hemits
      cases hemits with
      | refused e' full =>
        cases h
        exact .inl hundo
      | exhausted | emitted => cases h
      | burned e' admits next full =>
        cases h
        refine .inr (.inr ⟨reservation, work, continuation, writeBytes, _, rfl, ?_,
          hsame.admits.1 admits, hsame.operationIds ▸ next, ?_, hissue _⟩)
        · rw [hreserve]
          rfl
        · rwa [hsame.accepts] at full

/-! ## Outcomes up to the identifiers of operations -/

/-- An effect without the identifier of its operation. -/
def Effect.anonymous : Effect → Effect
  | sendFrame bytes => .sendFrame bytes
  | filesystem _ request => .filesystem 0 request
  | policy _ request => .policy 0 request
  | cancel _ kind => .cancel 0 kind
  | closeSession reason => .closeSession reason

/-- A session without the identifiers of its operations. -/
def Session.anonymous (s : Session) : Session :=
  { s with
    effects := s.effects.map Effect.anonymous
    operationIds := none
    lastIssuedOperationId := 0
    pendingByTag := s.pendingByTag.map fun _ p => { p with operationId := 0 }
    tagByOperation := ∅ }

/-- The same answer and, up to identifiers, the same session. -/
def SameOutcome (r₁ r₂ : EStateM.Result (Abort SessionError) Session Unit) : Prop :=
  onState Session.anonymous r₁ = onState Session.anonymous r₂

theorem map_insert {α β γ : Type} [Ord α] [Std.TransOrd α] [Std.LawfulEqOrd α] (f : β → γ)
    (m : Std.ExtTreeMap α β) (k : α) (v : β) :
    (m.insert k v).map (fun _ v => f v) = (m.map fun _ v => f v).insert k (f v) := by
  ext1 k'
  simp only [Std.ExtTreeMap.getElem?_map, Std.ExtTreeMap.getElem?_insert]
  split <;> rfl

theorem anonymous_release (reservation : Reservation) (s : Session) :
    (reservation.release s).anonymous = reservation.release s.anonymous := by
  cases reservation with
  | nothing | take => rfl
  | claim fid =>
    simp only [Reservation.release, retireFid]
    by_cases hmem : fid ∈ s.fids
    · rw [if_pos hmem, if_pos (show fid ∈ s.anonymous.fids from hmem)]
      rfl
    · rw [if_neg hmem, if_neg (show fid ∉ s.anonymous.fids from hmem)]

theorem Work.anonymous_effect (work : Work) (i j : OperationId) :
    (work.effect i).anonymous = (work.effect j).anonymous := by
  cases work <;> rfl

theorem Work.retainedBytes_effect (work : Work) (i j : OperationId) :
    (work.effect i).retainedBytes = (work.effect j).retainedBytes := by
  cases work <;> rfl

theorem anonymous_emitted (t : Session) (work : Work) (tag : Tag) (continuation : Continuation)
    (writeBytes : Nat) (i j : OperationId) :
    (((t.issue i).pushEffect (work.effect i)).track tag
      ⟨i, work.expected, work.kind, continuation, false, false, [], writeBytes⟩).anonymous =
    ((((t.issue i).issue j).pushEffect (work.effect j)).track tag
      ⟨j, work.expected, work.kind, continuation, false, false, [], writeBytes⟩).anonymous := by
  simp only [Session.anonymous, Session.track, Session.pushEffect, Session.issue, map_insert,
    List.map_append, List.map_cons, List.map_nil, work.anonymous_effect i j,
    work.retainedBytes_effect i j]

/-- The answer of the queue to an effect of this size. -/
def Session.verdict (s : Session) (bytes : Nat) : Except LimitExceeded Unit :=
  match Accounting.reserve s.accounting.queuedEffects 1 s.limits.maxQueuedEffects .queuedEffects with
  | .error error => .error error
  | .ok _ =>
    match Accounting.reserve s.accounting.queuedEffectBytes bytes s.limits.maxQueuedEffectBytes
        .queuedEffectBytes with
    | .error error => .error error
    | .ok _ => .ok ()

theorem queueEffect_verdict (effect : Effect) (s : Session) :
    queueEffect effect s = match s.verdict effect.retainedBytes with
      | .error error => .error (.error (.limit error)) s
      | .ok () => .ok () (s.pushEffect effect) := by
  unfold queueEffect Session.verdict
  cases Accounting.reserve s.accounting.queuedEffects 1 s.limits.maxQueuedEffects
    .queuedEffects with
  | error e => rfl
  | ok total =>
    simp only
    cases Accounting.reserve s.accounting.queuedEffectBytes effect.retainedBytes
      s.limits.maxQueuedEffectBytes .queuedEffectBytes with
    | error e => rfl
    | ok total => rfl

variable {t : Session}

/-- Emitting does not depend on how many identifiers were handed out, as long as one is left. -/
theorem emit_issue (work : Work) (continuation : Continuation) (writeBytes : Nat)
    {i j : OperationId} (free : tag ∉ t.pendingByTag) (hid : t.operationIds = some i)
    (hnext : checkedAdd i 1 = some j) :
    SameOutcome (work.emit tag continuation writeBytes t)
      (work.emit tag continuation writeBytes (t.issue i)) := by
  have hids : (t.issue i).operationIds = some j := hnext
  have haccounting : (t.issue i).accounting = t.accounting := rfl
  have hlimits : (t.issue i).limits = t.limits := rfl
  have hverdict : ∀ bytes, ((t.issue i).issue j).verdict bytes = (t.issue i).verdict bytes :=
    fun _ => rfl
  unfold Work.emit emitOperation
  rw [if_neg free, if_neg (show tag ∉ (t.issue i).pendingByTag from free)]
  simp only [haccounting, hlimits, hid, hids, queueEffect_verdict, hverdict,
    work.retainedBytes_effect j i]
  cases Accounting.reserve t.accounting.inFlightTags 1 t.limits.maxInFlightTags .inFlightTags with
  | error e => rfl
  | ok total =>
    simp only
    cases Accounting.reserve t.accounting.pendingWriteBytes writeBytes
      t.limits.maxPendingWriteBytes .pendingWriteBytes with
    | error e => rfl
    | ok total =>
      simp only
      cases (t.issue i).verdict (work.effect i).retainedBytes with
      | error e => rfl
      | ok u =>
        exact congrArg (EStateM.Result.ok ()) (anonymous_emitted t work tag continuation writeBytes i j)

theorem SameOutcome.undoing {action : Act Unit} {undo : Session → Session} {t' : Session}
    (h : SameOutcome (action t) (action t')) (hundo : ∀ u, (undo u).anonymous = undo u.anonymous) :
    SameOutcome (undoing action undo t) (undoing action undo t') := by
  unfold W9pt.Connection.undoing
  unfold SameOutcome at h ⊢
  cases hrun : action t with
  | ok a u =>
    cases hrun' : action t' with
    | ok a' u' =>
      rw [hrun, hrun'] at h
      exact h
    | error e u' =>
      rw [hrun, hrun'] at h
      cases h
  | error e u =>
    cases hrun' : action t' with
    | ok a' u' =>
      rw [hrun, hrun'] at h
      cases h
    | error e' u' =>
      rw [hrun, hrun'] at h
      simp only [onState, EStateM.Result.error.injEq] at h ⊢
      exact ⟨h.1, by rw [hundo, hundo, h.2]⟩

theorem Reservation.reserve_issue (reservation : Reservation) (t : Session) (i : OperationId) :
    reservation.reserve (t.issue i) = (reservation.reserve t).map (·.issue i) := by
  cases reservation with
  | nothing | take => rfl
  | claim fid =>
    have haccounting : (t.issue i).accounting = t.accounting := rfl
    have hlimits : (t.issue i).limits = t.limits := rfl
    simp only [reserve, haccounting, hlimits]
    cases Accounting.reserve t.accounting.fids 1 t.limits.maxFids .fids with
    | error e => rfl
    | ok total => rfl

/-- Submitting a request again whose identifier was burned. -/
theorem perform_issue (reservation : Reservation) (work : Work) (continuation : Continuation)
    (writeBytes : Nat) {i j : OperationId} (free : tag ∉ t.pendingByTag)
    (hid : t.operationIds = some i) (hnext : checkedAdd i 1 = some j) :
    SameOutcome ((Plan.emit reservation work continuation writeBytes).perform tag t)
      ((Plan.emit reservation work continuation writeBytes).perform tag (t.issue i)) := by
  simp only [Plan.perform, reservation.reserve_issue]
  cases hreserve : reservation.reserve t with
  | error e => rfl
  | ok t₁ =>
    have hsame := Reservation.reserve_sameQueue hreserve
    refine SameOutcome.undoing ?_ (anonymous_release reservation)
    refine emit_issue work continuation writeBytes ?_ (hsame.operationIds.trans hid) hnext
    rw [hsame.pendingByTag]
    exact free

/-! ## Draining effects -/

/-- The session after the host polled `n` effects. -/
def Session.drained : Nat → Session → Session
  | 0, s => s
  | n + 1, s => Session.drained n s.pollEffect.2

/-- What polling queued effects does not change. -/
structure Session.SameService (s t : Session) : Prop where
  limits : t.limits = s.limits
  msize : t.negotiatedMsize = s.negotiatedMsize
  active : t.terminalReason = s.terminalReason
  pendingByTag : t.pendingByTag = s.pendingByTag
  flushes : t.flushes = s.flushes
  fids : t.fids = s.fids
  operationIds : t.operationIds = s.operationIds
  planned : ∀ body, t.plan body = s.plan body

theorem pollEffect_sameService {effect : Effect} {effects : List Effect}
    (h : s.effects = effect :: effects) :
    s.SameService s.pollEffect.2 ∧ s.pollEffect.2.effects = effects := by
  unfold pollEffect
  rw [h]
  refine ⟨⟨rfl, rfl, rfl, rfl, rfl, rfl, rfl, ?_⟩, rfl⟩
  intro body
  cases body <;> rfl

theorem drained_sameService {n : Nat} (h : n ≤ s.effects.length) : s.SameService (s.drained n) := by
  induction n generalizing s with
  | zero => exact ⟨rfl, rfl, rfl, rfl, rfl, rfl, rfl, fun _ => rfl⟩
  | succ n ih =>
    cases heffects : s.effects with
    | nil =>
      rw [heffects] at h
      simp at h
    | cons effect effects =>
      obtain ⟨hstep, hrest⟩ := pollEffect_sameService heffects
      rw [heffects, List.length_cons] at h
      have hrun := ih (s := s.pollEffect.2) (by rw [hrest]; omega)
      exact ⟨hrun.limits.trans hstep.limits, hrun.msize.trans hstep.msize,
        hrun.active.trans hstep.active, hrun.pendingByTag.trans hstep.pendingByTag,
        hrun.flushes.trans hstep.flushes, hrun.fids.trans hstep.fids,
        hrun.operationIds.trans hstep.operationIds,
        fun body => (hrun.planned body).trans (hstep.planned body)⟩

/-- Polling queued effects neither reads nor writes what `f` changes. -/
theorem drained_comm {f : Session → Session}
    (hpoll : ∀ s effect effects, s.effects = effect :: effects →
      (f s).pollEffect.2 = f s.pollEffect.2) {n : Nat} (h : n ≤ s.effects.length) :
    (f s).drained n = f (s.drained n) := by
  induction n generalizing s with
  | zero => rfl
  | succ n ih =>
    cases heffects : s.effects with
    | nil =>
      rw [heffects] at h
      simp at h
    | cons effect effects =>
      obtain ⟨-, hrest⟩ := pollEffect_sameService heffects
      rw [heffects, List.length_cons] at h
      show (f s).pollEffect.2.drained n = f (s.pollEffect.2.drained n)
      rw [hpoll s effect effects heffects]
      exact ih (by rw [hrest]; omega)

theorem drained_issue (id : OperationId) {n : Nat} (h : n ≤ s.effects.length) :
    (s.issue id).drained n = (s.drained n).issue id := by
  refine drained_comm (f := (·.issue id)) ?_ h
  intro s effect effects heffects
  have hissue : (s.issue id).effects = effect :: effects := heffects
  simp only [pollEffect, heffects, hissue]
  rfl

/-! ## Dispatching -/

/-- The request reaches its handler: the tag is free and the session negotiated (mod.rs:318-340). -/
structure Session.Serves (s : Session) (request : Request) : Prop where
  tagged : request.tag ≠ notag
  inactive : s.Inactive request.tag
  negotiated : s.negotiatedMsize ≠ none
  plain : ∀ oldTag, request.body ≠ .flush oldTag
  unversioned : ∀ msize version, request.body ≠ .version msize version

variable {order : HashOrder} {request : Request}

theorem dispatch_of_serves (order : HashOrder) (h : s.Serves request) :
    dispatch order request s = (s.plan request.body).perform request.tag s := by
  have hactive : ¬ (request.tag ∈ s.pendingByTag ∨ request.tag ∈ s.flushes) :=
    not_or.2 h.inactive
  unfold dispatch
  split
  · rename_i msize version hbody
    exact absurd hbody (h.unversioned msize version)
  · rw [if_neg h.tagged, if_neg hactive]
    split
    · rename_i hnone
      exact absurd (Option.isNone_iff_eq_none.1 hnone) h.negotiated
    · split
      · rename_i oldTag hbody
        exact absurd hbody (h.plain oldTag)
      · exact (carries_serve request.tag s h.plain h.unversioned).performs

/-- The message size that a `Tversion` leaves negotiated. -/
def Session.offered (s : Session) (msize : UInt32) (version : Bytes) : Option UInt32 :=
  if version = dialect then some (min msize s.limits.maxFrameSize) else none

/-- `Rversion` (mod.rs:1556-1573). -/
def Session.versionReply (s : Session) (msize : UInt32) (version : Bytes) : Response :=
  ⟨notag, .version (min msize s.limits.maxFrameSize)
    (if version = dialect then dialect else unknownDialect)⟩

variable {msize : UInt32} {version : Bytes}

theorem dispatch_version (order : HashOrder) (htag : request.tag = notag)
    (hbody : request.body = .version msize version) (hwide : 21 ≤ msize) :
    dispatch order request s =
      queueResponse (s.versionReply msize version) (s.renegotiate order msize version) := by
  unfold dispatch
  rw [hbody]
  simp only [handleVersion]
  rw [if_neg (not_not.2 htag), if_neg (UInt32.not_lt.2 hwide), htag]
  rfl

/-- Where a limit can stop a request. -/
theorem dispatch_limit {s' : Session} (h : dispatch order request s = .error (.error (.limit e)) s') :
    s' = s ∨ s.Serves request ∨
      ∃ msize version, request.tag = notag ∧ request.body = .version msize version ∧ 21 ≤ msize := by
  have hstate : ∀ error, queueStateError request.tag error s = .error (.error (.limit e)) s' →
      s' = s := fun error hrun => (queueResponse_limit hrun).1
  unfold dispatch at h
  split at h
  · rename_i msize version hbody
    unfold handleVersion at h
    by_cases htag : request.tag = notag
    · rw [if_neg (not_not.2 htag)] at h
      split at h
      · cases h
      · rename_i hwide
        exact .inr (.inr ⟨msize, version, htag, hbody, UInt32.not_lt.1 hwide⟩)
    · rw [if_pos htag] at h
      exact .inl (hstate _ h)
  · rename_i hversion
    split at h
    · cases h
    · rename_i htag
      split at h
      · exact .inl (hstate _ h)
      · rename_i hactive
        rw [not_or] at hactive
        split at h
        · exact .inl (hstate _ h)
        · rename_i hnegotiated
          split at h
          · rename_i oldTag hbody
            rcases handleFlush_cases (fun _ => True) hactive oldTag with ⟨e, he⟩ | ⟨_, hok, -⟩
            · rw [he] at h
              cases h
              exact .inl rfl
            · rw [hok] at h
              cases h
          · rename_i hplain
            refine .inr (.inl ⟨htag, hactive, ?_, hplain, hversion⟩)
            rwa [Option.isNone_iff_eq_none] at hnegotiated

/-! ## Atomicity -/

/-- Nothing but an identifier changed. -/
structure Untouched (s s' : Session) : Prop where
  fids : s'.fids = s.fids
  pendingByTag : s'.pendingByTag = s.pendingByTag
  flushes : s'.flushes = s.flushes
  negotiatedMsize : s'.negotiatedMsize = s.negotiatedMsize
  effects : s'.effects = s.effects
  cleanup : s'.cleanup = s.cleanup
  accounting : s'.accounting = s.accounting
  operationIds : s'.operationIds = s.operationIds ∨
    ∃ id, s.operationIds = some id ∧ s'.operationIds = checkedAdd id 1

theorem untouched_refl (s : Session) : Untouched s s :=
  ⟨rfl, rfl, rfl, rfl, rfl, rfl, rfl, .inl rfl⟩

/-- A frame that runs into a limit leaves the session as it was; after any number of queued effects
was polled, submitting it again does what it would have done had the limit never been hit. -/
def Atomic (order : HashOrder) (frame : Bytes) (s : Session) : Prop :=
  ∀ e s', receiveFrame order frame s = .error (.error (.limit e)) s' →
    Untouched s s' ∧ ∀ n ≤ s.effects.length,
      SameOutcome (receiveFrame order frame (s.drained n)) (receiveFrame order frame (s'.drained n))

/-- There is nothing a `Tversion` could reset. -/
structure Session.Blank (s : Session) (msize : Option UInt32) : Prop where
  fids : s.fids = ∅
  pendingByTag : s.pendingByTag = ∅
  flushes : s.flushes = ∅
  negotiatedMsize : s.negotiatedMsize = msize

/-- The refusals that leave a trace. -/
inductive Torn (s : Session) (request : Request) : Prop where
  /-- The session was reset, but `Rversion` does not fit the queue. -/
  | reset {msize : UInt32} {version : Bytes} (tag : request.tag = notag)
      (body : request.body = .version msize version) (wide : 21 ≤ msize)
      (full : s.Overflows ((s.offered msize version).getD s.limits.maxFrameSize)
        (s.versionReply msize version))
      (used : ¬ s.Blank (s.offered msize version))
  /-- The fid was cloned, but `Rwalk` does not fit the queue. -/
  | clone {fid : Fid} {object : ObjectFid} (served : s.Serves request)
      (planned : s.plan request.body = .clone fid object)
      (room : Accounting.Fits s.accounting.fids 1 s.limits.maxFids)
      (full : s.Overflows s.activeMsize ⟨request.tag, .walk []⟩)
  /-- The last identifier was allocated, but the effect does not fit the queue. -/
  | lastId {reservation : Reservation} {work : Work} {continuation : Continuation} {writeBytes : Nat}
      {id : OperationId} (served : s.Serves request)
      (planned : s.plan request.body = .emit reservation work continuation writeBytes)
      (room : (reservation.reserve s).isOk = true) (admits : s.Admits writeBytes)
      (last : s.operationIds = some id) (none : checkedAdd id 1 = none)
      (full : ¬ s.Accepts (work.effect id).retainedBytes)

/-- The session with its decoder cleared, as a `Tversion` without anything to reset leaves it. -/
def Session.cleared (s : Session) : Session :=
  { s with decoder := s.decoder.clear, tagByOperation := ∅ }

theorem renegotiate_of_blank (order : HashOrder) (h : s.Blank (s.offered msize version)) :
    s.renegotiate order msize version = s.cleared := by
  have hpending : order.pending ∅ = [] := by
    apply List.eq_nil_of_length_eq_zero
    rw [(order.pending_perm ∅).length_eq, Std.ExtTreeMap.length_toList, Std.ExtTreeMap.size_empty]
  have hfids : order.fids ∅ = [] := by
    apply List.eq_nil_of_length_eq_zero
    rw [(order.fids_perm ∅).length_eq, Std.ExtTreeMap.length_toList, Std.ExtTreeMap.size_empty]
  obtain ⟨h1, h2, h3, h4⟩ := h
  have hmsize : (if version = dialect then some (min msize s.limits.maxFrameSize) else none) =
      s.negotiatedMsize := h4.symm
  simp only [Session.renegotiate, Session.resetForVersion, Session.drainFidsToCleanup, h1, h2, h3,
    hpending, hfids, List.foldl_nil, hmsize, Std.ExtTreeMap.size_empty, Accounting.release,
    Nat.sub_zero, Session.cleared]

theorem drained_cleared {n : Nat} (h : n ≤ s.effects.length) :
    s.cleared.drained n = (s.drained n).cleared := by
  refine drained_comm (f := Session.cleared) ?_ h
  intro s effect effects heffects
  have hcleared : s.cleared.effects = effect :: effects := heffects
  simp only [pollEffect, heffects, hcleared]
  rfl

variable {frame : Bytes}

theorem receiveFrame_of_active (order : HashOrder) (active : s.terminalReason = none)
    (decoded : decodeRequest frame s.limits s.activeMsize = .ok request) :
    receiveFrame order frame s = dispatch order request s := by
  unfold receiveFrame whileActive receiveDecodedFrame
  rw [if_neg (by rw [active]; simp), decoded]

/-- A session that serves alike reads a frame alike. -/
theorem Session.SameService.receiveFrame (h : s.SameService t) (order : HashOrder)
    (active : s.terminalReason = none)
    (decoded : decodeRequest frame s.limits s.activeMsize = .ok request) :
    receiveFrame order frame t = dispatch order request t := by
  refine receiveFrame_of_active order (h.active.trans active) ?_
  rw [h.limits, show t.activeMsize = s.activeMsize by simp only [activeMsize, h.limits, h.msize]]
  exact decoded

theorem Session.SameService.serves (h : s.SameService t) (serves : s.Serves request) :
    t.Serves request where
  tagged := serves.tagged
  inactive := by
    rw [Session.Inactive, h.pendingByTag, h.flushes]
    exact serves.inactive
  negotiated := h.msize ▸ serves.negotiated
  plain := serves.plain
  unversioned := serves.unversioned

theorem Session.SameService.issue (h : s.SameService t) (id : OperationId) :
    (s.issue id).SameService (t.issue id) :=
  ⟨h.limits, h.msize, h.active, h.pendingByTag, h.flushes, h.fids, rfl, fun body => h.planned body⟩

theorem renegotiate_overflows (order : HashOrder) (msize : UInt32) (version : Bytes)
    (response : Response) :
    (s.renegotiate order msize version).Overflows (s.renegotiate order msize version).activeMsize
      response ↔ s.Overflows ((s.offered msize version).getD s.limits.maxFrameSize) response := by
  obtain ⟨cleanup, heq⟩ := renegotiate_eq order s msize version
  rw [heq]
  exact Iff.rfl

/-! ### Torn refusals -/

theorem not_atomic_of_reset (order : HashOrder) (active : s.terminalReason = none)
    (decoded : decodeRequest frame s.limits s.activeMsize = .ok request)
    (htag : request.tag = notag) (hbody : request.body = .version msize version)
    (hwide : 21 ≤ msize) (full : s.Overflows ((s.offered msize version).getD s.limits.maxFrameSize)
      (s.versionReply msize version)) (used : ¬ s.Blank (s.offered msize version)) :
    ¬ Atomic order frame s := by
  intro hatomic
  have hover := (renegotiate_overflows order msize version _).2 full
  obtain ⟨e, he⟩ := queueResponse_of_overflows hover
  have hrun := receiveFrame_of_active order active decoded
  rw [dispatch_version order htag hbody hwide, he] at hrun
  obtain ⟨huntouched, -⟩ := hatomic e _ hrun
  obtain ⟨cleanup, heq⟩ := renegotiate_eq order s msize version
  rw [heq] at huntouched
  exact used ⟨huntouched.fids.symm, huntouched.pendingByTag.symm, huntouched.flushes.symm,
    huntouched.negotiatedMsize.symm⟩

theorem not_atomic_of_clone (order : HashOrder) (active : s.terminalReason = none)
    (decoded : decodeRequest frame s.limits s.activeMsize = .ok request) {fid : Fid}
    {object : ObjectFid} (served : s.Serves request)
    (planned : s.plan request.body = .clone fid object)
    (room : Accounting.Fits s.accounting.fids 1 s.limits.maxFids)
    (full : s.Overflows s.activeMsize ⟨request.tag, .walk []⟩) : ¬ Atomic order frame s := by
  intro hatomic
  have habsent : fid ∉ s.fids := by
    have hvalid := plan_valid s request.body
    rw [planned] at hvalid
    exact hvalid
  have hreserve : (Reservation.claim fid).reserve s = .ok (s.claim fid) := by
    rcases reserve_cases s.accounting.fids 1 s.limits.maxFids .fids with ⟨-, hok⟩ | ⟨hfull, -⟩
    · simp only [Reservation.reserve, hok]
    · exact absurd room hfull
  have hover : ((s.claim fid).setFid fid (.object object)).Overflows
      ((s.claim fid).setFid fid (.object object)).activeMsize ⟨request.tag, .walk []⟩ := full
  obtain ⟨e, he⟩ := queueResponse_of_overflows hover
  have hrun := receiveFrame_of_active order active decoded
  rw [dispatch_of_serves order served, planned] at hrun
  simp only [Plan.perform, hreserve, he] at hrun
  obtain ⟨huntouched, -⟩ := hatomic e _ hrun
  apply habsent
  rw [← huntouched.fids]
  simp [Session.setFid]

variable {reservation : Reservation} {work : Work} {writeBytes : Nat}

theorem perform_emit_burned (continuation : Continuation) {id : OperationId}
    (valid : reservation.Valid s) (free : tag ∉ s.pendingByTag)
    (room : (reservation.reserve s).isOk = true) (admits : s.Admits writeBytes)
    (next : s.operationIds = some id) (full : ¬ s.Accepts (work.effect id).retainedBytes) :
    ∃ e, (Plan.emit reservation work continuation writeBytes).perform tag s =
      .error (.error (.limit e)) (s.issue id) := by
  cases hreserve : reservation.reserve s with
  | error e => rw [hreserve] at room; cases room
  | ok s₁ =>
    have hsame := Reservation.reserve_sameQueue hreserve
    have hissue := (Reservation.release_reserve valid hreserve).2
    have hemits := emits tag (by rw [hsame.pendingByTag]; exact free) work continuation writeBytes
    simp only [Plan.perform, hreserve, undoing]
    generalize work.emit tag continuation writeBytes s₁ = r at hemits ⊢
    cases hemits with
    | refused e full' => exact absurd (hsame.admits.2 admits) full'
    | exhausted _ none =>
      rw [hsame.operationIds, next] at none
      cases none
    | emitted _ next' room' =>
      rw [hsame.operationIds, next] at next'
      cases next'
      exact absurd (hsame.accepts.1 room') full
    | burned e _ next' =>
      rw [hsame.operationIds, next] at next'
      cases next'
      refine ⟨e, ?_⟩
      simp only [hissue]

variable {continuation : Continuation}

theorem perform_emit_exhausted (valid : reservation.Valid s) (free : tag ∉ s.pendingByTag)
    (room : (reservation.reserve s).isOk = true) (admits : s.Admits writeBytes)
    (none : s.operationIds = none) :
    (Plan.emit reservation work continuation writeBytes).perform tag s =
      .error (.error .operationIdExhausted) s := by
  cases hreserve : reservation.reserve s with
  | error e => rw [hreserve] at room; cases room
  | ok s₁ =>
    have hsame := Reservation.reserve_sameQueue hreserve
    have hundo := (Reservation.release_reserve valid hreserve).1
    have hemits := emits tag (by rw [hsame.pendingByTag]; exact free) work continuation writeBytes
    simp only [Plan.perform, hreserve, undoing]
    generalize work.emit tag continuation writeBytes s₁ = r at hemits ⊢
    cases hemits with
    | refused e full => exact absurd (hsame.admits.2 admits) full
    | exhausted => simp only [hundo]
    | emitted _ next | burned _ _ next =>
      rw [hsame.operationIds, none] at next
      cases next

theorem not_atomic_of_lastId (order : HashOrder) (active : s.terminalReason = none)
    (decoded : decodeRequest frame s.limits s.activeMsize = .ok request) {id : OperationId}
    (served : s.Serves request)
    (planned : s.plan request.body = .emit reservation work continuation writeBytes)
    (room : (reservation.reserve s).isOk = true) (admits : s.Admits writeBytes)
    (last : s.operationIds = some id) (none : checkedAdd id 1 = none)
    (full : ¬ s.Accepts (work.effect id).retainedBytes) : ¬ Atomic order frame s := by
  intro hatomic
  have hvalid : reservation.Valid s := by
    have hvalid := plan_valid s request.body
    rw [planned] at hvalid
    exact hvalid
  obtain ⟨e, he⟩ := perform_emit_burned continuation hvalid served.inactive.1 room admits last full
  have hrun := receiveFrame_of_active order active decoded
  rw [dispatch_of_serves order served, planned, he] at hrun
  obtain ⟨-, hagain⟩ := hatomic e _ hrun
  -- submitted again at once, the request finds no identifier left
  have hsecond := receiveFrame_of_active (s := s.issue id) order active decoded
  have hserved : (s.issue id).Serves request := ⟨served.1, served.2, served.3, served.4, served.5⟩
  have hplanned : (s.issue id).plan request.body = .emit reservation work continuation writeBytes :=
    planned
  have hroom : (reservation.reserve (s.issue id)).isOk = true := by
    rw [reservation.reserve_issue]
    cases hreserve : reservation.reserve s with
    | error e => rw [hreserve] at room; cases room
    | ok s₁ => rfl
  have hvalid' : reservation.Valid (s.issue id) := by
    cases reservation <;> exact hvalid
  rw [dispatch_of_serves order hserved, hplanned, perform_emit_exhausted hvalid' served.inactive.1
    hroom ⟨admits.tags, admits.writes⟩ none] at hsecond
  have hsame := hagain 0 (Nat.zero_le _)
  simp only [Session.drained, SameOutcome, hrun, hsecond, onState] at hsame
  cases hsame

/-! ### All other refusals -/

theorem atomic_of_served (order : HashOrder) (active : s.terminalReason = none)
    (decoded : decodeRequest frame s.limits s.activeMsize = .ok request) (served : s.Serves request)
    (whole : ¬ Torn s request) {s' : Session}
    (h : dispatch order request s = .error (.error (.limit e)) s') :
    Untouched s s' ∧ ∀ n ≤ s.effects.length,
      SameOutcome (receiveFrame order frame (s.drained n))
        (receiveFrame order frame (s'.drained n)) := by
  rw [dispatch_of_serves order served] at h
  rcases perform_limit (plan_valid s request.body) served.inactive.1 h with
    rfl | ⟨fid, object, hplan, hfits, hover, -⟩ |
    ⟨reservation, work, continuation, writeBytes, id, hplan, hroom, hadmits, hid, hfull, rfl⟩
  · exact ⟨untouched_refl _, fun _ _ => rfl⟩
  · exact absurd (.clone served hplan hfits hover) whole
  · cases hnext : checkedAdd id 1 with
    | none => exact absurd (.lastId served hplan hroom hadmits hid hnext hfull) whole
    | some j =>
      refine ⟨⟨rfl, rfl, rfl, rfl, rfl, rfl, rfl, .inr ⟨id, hid, rfl⟩⟩, ?_⟩
      intro n hn
      have hservice := drained_sameService hn
      have hserves := hservice.serves served
      have hserves' : ((s.drained n).issue id).Serves request :=
        ⟨hserves.1, hserves.2, hserves.3, hserves.4, hserves.5⟩
      have hissue : (s.issue id).SameService ((s.drained n).issue id) := hservice.issue id
      rw [drained_issue id hn, hservice.receiveFrame order active decoded,
        hissue.receiveFrame order active decoded, dispatch_of_serves order hserves,
        dispatch_of_serves order hserves', hissue.planned request.body, hservice.planned]
      have hplan' : (s.issue id).plan request.body =
          .emit reservation work continuation writeBytes := hplan
      rw [hplan, hplan']
      exact perform_issue reservation work continuation writeBytes hserves.inactive.1
        (hservice.operationIds.trans hid) hnext

theorem atomic_of_blank (order : HashOrder) (active : s.terminalReason = none)
    (decoded : decodeRequest frame s.limits s.activeMsize = .ok request)
    (htag : request.tag = notag) (hbody : request.body = .version msize version)
    (hwide : 21 ≤ msize) (blank : s.Blank (s.offered msize version)) :
    Untouched s (s.renegotiate order msize version) ∧ ∀ n ≤ s.effects.length,
      SameOutcome (receiveFrame order frame (s.drained n))
        (receiveFrame order frame ((s.renegotiate order msize version).drained n)) := by
  rw [renegotiate_of_blank order blank]
  refine ⟨⟨rfl, rfl, rfl, rfl, rfl, rfl, rfl, .inl rfl⟩, ?_⟩
  intro n hn
  have hservice := drained_sameService hn
  have hcleared : s.SameService (s.drained n).cleared :=
    ⟨hservice.limits, hservice.msize, hservice.active, hservice.pendingByTag, hservice.flushes,
      hservice.fids, hservice.operationIds, fun body => hservice.planned body⟩
  have hoffered : (s.drained n).offered msize version = s.offered msize version := by
    simp only [offered, hservice.limits]
  have hblank : (s.drained n).Blank ((s.drained n).offered msize version) := by
    rw [hoffered]
    exact ⟨hservice.fids.trans blank.fids, hservice.pendingByTag.trans blank.pendingByTag,
      hservice.flushes.trans blank.flushes, hservice.msize.trans blank.negotiatedMsize⟩
  have hblank' : (s.drained n).cleared.Blank ((s.drained n).cleared.offered msize version) :=
    ⟨hblank.fids, hblank.pendingByTag, hblank.flushes, hblank.negotiatedMsize⟩
  rw [drained_cleared hn, hservice.receiveFrame order active decoded,
    hcleared.receiveFrame order active decoded, dispatch_version order htag hbody hwide,
    dispatch_version order htag hbody hwide, renegotiate_of_blank order hblank,
    renegotiate_of_blank order hblank']
  rfl

/-- **When backpressure is atomic.** For every session and every well-formed request frame: a limit
error leaves the session as it was, so that the frame can be submitted again, unless the frame is a
`Tversion` with something to reset and no room for its reply, a walk that clones a fid with no room
for its reply, or an operation that burns the last identifier. -/
theorem backpressure_atomic_iff (order : HashOrder) (s : Session) (frame : Bytes)
    (request : Request) (decoded : decodeRequest frame s.limits s.activeMsize = .ok request) :
    Atomic order frame s ↔ s.terminalReason ≠ none ∨ ¬ Torn s request := by
  by_cases active : s.terminalReason = none
  · rw [or_iff_right (not_not.2 active)]
    constructor
    · intro hatomic htorn
      cases htorn with
      | reset tag body wide full used =>
        exact not_atomic_of_reset order active decoded tag body wide full used hatomic
      | clone served planned room full =>
        exact not_atomic_of_clone order active decoded served planned room full hatomic
      | lastId served planned room admits last none full =>
        exact not_atomic_of_lastId order active decoded served planned room admits last none full
          hatomic
    · intro hwhole e s' hrun
      rw [receiveFrame_of_active order active decoded] at hrun
      rcases dispatch_limit hrun with rfl | hserves | ⟨msize, version, htag, hbody, hwide⟩
      · exact ⟨untouched_refl _, fun _ _ => rfl⟩
      · exact atomic_of_served order active decoded hserves hwhole hrun
      · rw [dispatch_version order htag hbody hwide] at hrun
        obtain ⟨rfl, hover⟩ := queueResponse_limit hrun
        rw [renegotiate_overflows] at hover
        by_cases hblank : s.Blank (s.offered msize version)
        · exact atomic_of_blank order active decoded htag hbody hwide hblank
        · exact absurd (.reset htag hbody hwide hover hblank) hwhole
  · constructor
    · intro _
      exact .inl active
    · intro _ e s' hrun
      unfold receiveFrame whileActive at hrun
      rw [if_pos (Option.isSome_iff_ne_none.2 active)] at hrun
      cases hrun

theorem backpressure_atomic_iff_statfs :
    Atomic .sorted statfsFrame fullSession ↔
      fullSession.terminalReason ≠ none ∨ ¬ Torn fullSession ⟨2, .statfs 1⟩ :=
  backpressure_atomic_iff .sorted fullSession statfsFrame ⟨2, .statfs 1⟩ (by rfl)

/-- A `Tversion` that finds the queue full is refused, but the attached fid and the outstanding
operation are gone. -/
theorem fullSession_refused_version_resets : Reachable fullSession ∧
    ∃ e s', receiveFrame .sorted versionFrame fullSession = .error (.error (.limit e)) s' ∧
      ¬ Untouched fullSession s' := by
  refine ⟨narrowSession_reachable.run _ _, _, _, by rfl, ?_⟩
  intro huntouched
  have hfids := congrArg (fun fids => fids[(1 : Fid)]?.isSome) huntouched.fids
  revert hfids
  decide +kernel

end W9pt.Connection

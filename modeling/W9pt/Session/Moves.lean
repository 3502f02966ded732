import W9pt.Session.Perform
import W9pt.Session.Bookkeeping

/-!
# Calls as sequences of small steps

Every public call of a session is a sequence of `Move`s: a frame is queued, an operation is emitted, a
flush joins or leaves, the session closes or renegotiates. Completing an operation and polling an
effect are the two calls the host can observe, so they are steps of their own (`Session.settled`,
`PollStep`) and leave an `Event`. An invariant of a session and its events is proved step by step
(`Trace.invariant`); the calls themselves are taken apart here and nowhere else.

`Move` carries a condition under which the session may renegotiate, so that a statement about the
runs that meet it is proved in the same way as one about all runs.
-/

namespace W9pt.Connection

open Lib Protocol Session

/-! ## Moves -/

/-- The session with a close reason and its cleanup started (mod.rs:156-162, 2256-2266). -/
def Session.close (order : HashOrder) (s : Session) (decoder : FrameDecoder) (reason : CloseReason) :
    Session :=
  startCleanup order { s with decoder, terminalReason := some reason }

/-- The small steps of a session that renegotiates only when `fresh` holds. -/
inductive Move (fresh : Session → Prop) : Session → Session → Prop where
  | decode {s : Session} (decoder : FrameDecoder) : Move fresh s { s with decoder }
  | frame {s : Session} {bytes : Bytes} (room : s.HasRoom (.sendFrame bytes)) :
      Move fresh s (s.pushFrame bytes)
  | burn {s : Session} {id : OperationId} (next : s.operationIds = some id) :
      Move fresh s (s.issue id)
  | clone {s : Session} {fid newFid : Fid} {source : ObjectFid} (active : s.terminalReason = none)
      (present : s.fids[fid]? = some (.object source)) (unused : source.Unused)
      (absent : newFid ∉ s.fids) (room : s.accounting.fids + 1 ≤ s.limits.maxFids) :
      Move fresh s ((s.claim newFid).setFid newFid (.object source))
  | emit {s s₁ : Session} {tag : Tag} {reservation : Reservation} {work : Work}
      {continuation : Continuation} {writeBytes : Nat} {id : OperationId}
      (active : s.terminalReason = none) (inactive : s.Inactive tag)
      (decided : Decided s (.emit reservation work continuation writeBytes))
      (reserved : reservation.reserve s = .ok s₁) (next : s₁.operationIds = some id)
      (room : s₁.HasRoom (work.effect id))
      (tags : s₁.accounting.inFlightTags + 1 ≤ s₁.limits.maxInFlightTags)
      (writes : s₁.accounting.pendingWriteBytes + writeBytes ≤ s₁.limits.maxPendingWriteBytes) :
      Move fresh s (s₁.emitted tag id work continuation writeBytes)
  | cancel {s : Session} {oldTag : Tag} {target : PendingOperation}
      (active : s.pendingByTag[oldTag]? = some target)
      (room : s.HasRoom (.cancel target.operationId target.kind)) :
      Move fresh s (s.pushEffect (.cancel target.operationId target.kind))
  | joinPending {s : Session} {tag oldTag : Tag} {target : PendingOperation}
      (inactive : s.Inactive tag) (active : s.pendingByTag[oldTag]? = some target)
      (room : s.accounting.inFlightTags + 1 ≤ s.limits.maxInFlightTags) :
      Move fresh s (s.joinPending tag oldTag target)
  | joinFlush {s : Session} {tag oldTag : Tag} {target : FlushState} (inactive : s.Inactive tag)
      (active : s.flushes[oldTag]? = some target)
      (room : s.accounting.inFlightTags + 1 ≤ s.limits.maxInFlightTags) :
      Move fresh s (s.joinFlush tag oldTag target)
  | dropFlush {s : Session} {tag : Tag} {flush : FlushState}
      (active : s.flushes[tag]? = some flush) : Move fresh s (s.dropFlush tag)
  | close {s : Session} (order : HashOrder) (decoder : FrameDecoder) (reason : CloseReason) :
      Move fresh s (s.close order decoder reason)
  | renegotiate {s : Session} (order : HashOrder) (active : s.terminalReason = none)
      (renews : fresh s) (msize : UInt32) (version : Bytes) :
      Move fresh s (s.renegotiate order msize version)

abbrev Moves (fresh : Session → Prop) : Session → Session → Prop :=
  Relation.ReflTransGen (Move fresh)

variable {fresh : Session → Prop} {s s' s₁ : Session} {tag : Tag}

theorem Move.moves (h : Move fresh s s') : Moves fresh s s' := Relation.ReflTransGen.single h

theorem moves_refl (s : Session) : Moves fresh s s := Relation.ReflTransGen.refl

/-- No flush is dropped, unless everything outstanding is. -/
def Session.Keeps (s s' : Session) : Prop :=
  ∀ tag ∈ s.flushes, tag ∈ s'.flushes ∨ s'.flushes = ∅ ∧ s'.pendingByTag = ∅

/-- The small steps that input can cause: flushes are answered by completions only. -/
abbrev Requests (fresh : Session → Prop) : Session → Session → Prop :=
  Relation.ReflTransGen fun s s' => Move fresh s s' ∧ s.Keeps s'

theorem Move.request (h : Move fresh s s') (keeps : s.Keeps s') : Requests fresh s s' :=
  Relation.ReflTransGen.single ⟨h, keeps⟩

/-- A small step that leaves the flushes alone. -/
theorem Move.aside (h : Move fresh s s') (same : s'.flushes = s.flushes) : Requests fresh s s' :=
  h.request fun _ hmem => .inl (same ▸ hmem)

theorem Move.close_request (order : HashOrder) (s : Session) (decoder : FrameDecoder)
    (reason : CloseReason) : Requests fresh s (s.close order decoder reason) := by
  refine (Move.close order decoder reason).request fun tag hmem => .inl ?_
  by_cases hstarted : s.cleanupStarted = true
  · rw [Session.close, startCleanup, if_pos hstarted]
    exact hmem
  · rw [Session.close, startCleanup_eq (by simpa using hstarted)]
    exact Std.ExtTreeMap.mem_map.2 hmem

theorem requests_moves (h : Requests fresh s s') : Moves fresh s s' :=
  Relation.ReflTransGen.mono (fun _ _ h => h.1) s s' h

/-- **Every small step keeps the books.** -/
theorem Move.bookkeeping (h : Move fresh s s') (books : Bookkeeping s) : Bookkeeping s' := by
  cases h with
  | decode decoder => exact books.withDecoder decoder
  | frame room => exact books.pushEffect room
  | burn next => exact books.issue next
  | clone active _ _ absent room => exact books.clone active absent room
  | emit active inactive decided reserved next room tags writes =>
    exact books.emit inactive active (decided.reserved reserved) next room tags writes
  | cancel _ room => exact books.pushEffect room
  | joinPending inactive active room => exact books.joinPending inactive active room
  | joinFlush inactive active room => exact books.joinFlush inactive active room
  | dropFlush active => exact books.removeFlush active
  | close order decoder reason => exact (books.setReason reason decoder).startCleanup rfl
  | renegotiate order _ _ msize version => exact books.renegotiate msize version

theorem moves_bookkeeping (h : Moves fresh s s') (books : Bookkeeping s) : Bookkeeping s' := by
  induction h with
  | refl => exact books
  | tail _ hstep ih => exact hstep.bookkeeping ih

theorem close_effects (order : HashOrder) (s : Session) (decoder : FrameDecoder)
    (reason : CloseReason) : (s.close order decoder reason).effects = s.effects ∧
      (s.close order decoder reason).context = s.context := by
  by_cases hstarted : s.cleanupStarted = true
  · rw [Session.close, startCleanup, if_pos hstarted]
    exact ⟨rfl, rfl⟩
  · rw [Session.close, startCleanup_eq (by simpa using hstarted)]
    exact ⟨rfl, rfl⟩

/-! ## Requests -/

/-- A method did not stop at a failing `expect`. -/
def Calm {ε α : Type} : EStateM.Result (Abort ε) Session α → Prop
  | .error (.panicked _) _ => False
  | _ => True

/-- Two sessions that read their input alike. -/
structure Session.SameInput (s s' : Session) : Prop where
  limits : s'.limits = s.limits
  msize : s'.negotiatedMsize = s.negotiatedMsize
  decoder : s'.decoder = s.decoder
  reason : s'.terminalReason = s.terminalReason

/-- What handling a request does: a few small steps, none of which concerns the input. -/
structure Handled (fresh : Session → Prop) (s : Session)
    (r : EStateM.Result (Abort SessionError) Session Unit) : Prop where
  requests : s.terminalReason = none → Requests fresh s (after r)
  calm : Calm r
  input : s.SameInput (after r)

theorem handled_refused (s : Session) (e : SessionError) :
    Handled fresh s (.error (.error e) s) :=
  ⟨fun _ => .refl, trivial, rfl, rfl, rfl, rfl⟩

theorem handled_queueResponse (response : Response) (s : Session) :
    Handled fresh s (queueResponse response s) := by
  rcases queueResponse_cases response s with ⟨e, he⟩ | ⟨bytes, hreply, hok⟩
  · rw [he]
    exact handled_refused s e
  · rw [hok]
    exact ⟨fun _ => (Move.frame hreply.room).aside rfl, trivial, rfl, rfl, rfl, rfl⟩

theorem handled_emit (inactive : s.Inactive tag) {reservation : Reservation} {work : Work}
    {continuation : Continuation} {writeBytes : Nat}
    (decided : Decided s (.emit reservation work continuation writeBytes)) :
    Handled fresh s ((Plan.emit reservation work continuation writeBytes).perform tag s) := by
  cases hreserve : reservation.reserve s with
  | error e =>
    simp only [Plan.perform, hreserve]
    exact handled_refused s _
  | ok s₁ =>
    have hsame := Reservation.reserve_sameQueue hreserve
    obtain ⟨hundo, hissue⟩ := Reservation.release_reserve decided.valid hreserve
    have hemits := emits tag (by rw [hsame.pendingByTag]; exact inactive.1) work continuation
      writeBytes
    simp only [Plan.perform, hreserve, undoing]
    generalize work.emit tag continuation writeBytes s₁ = r at hemits ⊢
    cases hemits with
    | refused e full =>
      simp only [hundo]
      exact handled_refused s _
    | exhausted =>
      simp only [hundo]
      exact handled_refused s _
    | burned e admits next full =>
      simp only [hissue]
      exact ⟨fun _ => (Move.burn (hsame.operationIds ▸ next)).aside rfl, trivial, rfl, rfl, rfl,
        rfl⟩
    | emitted admits next room =>
      have hmove : s.terminalReason = none → Move fresh s _ := fun active =>
        .emit active inactive decided hreserve next ⟨room.1.2, room.2.2⟩ admits.tags.2
          admits.writes.2
      obtain ⟨fids, count, rfl⟩ := (decided.reserved hreserve).frame
      exact ⟨fun active => (hmove active).aside rfl, trivial, rfl, rfl, rfl, rfl⟩

/-- Carrying out a plan is a few small steps. -/
theorem handled_perform (inactive : s.Inactive tag) {plan : Plan} (decided : Decided s plan) :
    Handled fresh s (plan.perform tag s) := by
  cases plan with
  | reply body => exact handled_queueResponse _ s
  | clone newFid source =>
    cases decided with
    | clone present unused absent =>
      simp only [Plan.perform, Reservation.reserve]
      rcases reserve_cases s.accounting.fids 1 s.limits.maxFids .fids with ⟨hfits, hok⟩ | ⟨-, e, he⟩
      · simp only [hok]
        have hreply : Handled fresh _ _ := handled_queueResponse ⟨tag, .walk []⟩
          ((s.claim newFid).setFid newFid (.object source))
        exact ⟨fun active => ((Move.clone active present unused absent hfits.2).aside rfl).trans
          (hreply.requests active), hreply.calm, hreply.input.1, hreply.input.2, hreply.input.3,
          hreply.input.4⟩
      · simp only [he]
        exact handled_refused s _
  | emit reservation work continuation writeBytes => exact handled_emit inactive decided

theorem requestCancel_cases (fresh : Session → Prop) {oldTag : Tag} {target : PendingOperation}
    (active : s.pendingByTag[oldTag]? = some target) :
    (∃ e, requestCancel target s = .error (.error e) s) ∨
    (∃ effects accounting, requestCancel target s = .ok () { s with effects, accounting } ∧
      Requests fresh s { s with effects, accounting } ∧
      accounting.inFlightTags = s.accounting.inFlightTags) := by
  unfold requestCancel
  split
  · exact .inr ⟨s.effects, s.accounting, rfl, .refl, rfl⟩
  · rcases queueEffect_cases (.cancel target.operationId target.kind) s with ⟨e, he⟩ | ⟨hroom, hok⟩
    · exact .inl ⟨_, he⟩
    · exact .inr ⟨_, _, hok, (Move.cancel active hroom).aside rfl, rfl⟩

/-- A `Tflush` that is refused changes nothing. -/
theorem handleFlush_cases (fresh : Session → Prop) (inactive : s.Inactive tag) (oldTag : Tag) :
    (∃ e, handleFlush tag oldTag s = .error (.error e) s) ∨
    (∃ s', handleFlush tag oldTag s = .ok () s' ∧ Requests fresh s s' ∧ s.SameInput s') := by
  unfold handleFlush
  cases hpending : s.pendingByTag[oldTag]? with
  | some target =>
    simp only
    rcases reserve_cases s.accounting.inFlightTags 1 s.limits.maxInFlightTags .inFlightTags with
      ⟨hfits, hok⟩ | ⟨-, e, he⟩
    · simp only [hok]
      rcases requestCancel_cases fresh hpending with
        ⟨e, he⟩ | ⟨effects, accounting, hrun, hmoves, htags⟩
      · simp only [he]
        exact .inl ⟨e, rfl⟩
      · have hjoin : Move fresh { s with effects, accounting }
            (Session.joinPending { s with effects, accounting } tag oldTag target) :=
          .joinPending inactive hpending (by dsimp only; rw [htags]; exact hfits.2)
        simp only [hrun, hpending]
        have hkeeps := hjoin.request fun _ hmem => .inl (Std.ExtTreeMap.mem_insert.2 (.inr hmem))
        exact .inr ⟨_, rfl, hmoves.trans hkeeps, rfl, rfl, rfl, rfl⟩
    · simp only [he]
      exact .inl ⟨_, rfl⟩
  | none =>
    simp only
    cases hflush : s.flushes[oldTag]? with
    | some target =>
      simp only
      rcases reserve_cases s.accounting.inFlightTags 1 s.limits.maxInFlightTags .inFlightTags with
        ⟨hfits, hok⟩ | ⟨-, e, he⟩
      · -- the flush does not name itself: its own tag is not active
        have hne : tag ≠ oldTag := by
          rintro rfl
          rw [Std.ExtTreeMap.getElem?_eq_none inactive.2] at hflush
          cases hflush
        simp only [hok, Std.ExtTreeMap.getElem?_insert, Std.compare_eq_iff_eq, if_neg hne, hflush]
        have hjoin : Move fresh s _ := .joinFlush inactive hflush hfits.2
        have hkeeps := hjoin.request fun _ hmem => .inl
          (Std.ExtTreeMap.mem_insert.2 (.inr (Std.ExtTreeMap.mem_insert.2 (.inr hmem))))
        exact .inr ⟨_, rfl, hkeeps, rfl, rfl, rfl, rfl⟩
      · simp only [he]
        exact .inl ⟨_, rfl⟩
    | none =>
      rcases queueResponse_cases ⟨tag, .flush⟩ s with ⟨e, he⟩ | ⟨bytes, hreply, hok⟩
      · exact .inl ⟨e, he⟩
      · exact .inr ⟨_, hok, (Move.frame hreply.room).aside rfl, rfl, rfl, rfl, rfl⟩

theorem handled_handleFlush (inactive : s.Inactive tag) (oldTag : Tag) :
    Handled fresh s (handleFlush tag oldTag s) := by
  rcases handleFlush_cases fresh inactive oldTag with ⟨e, he⟩ | ⟨s', hok, hmoves, hinput⟩
  · rw [he]
    exact handled_refused s e
  · rw [hok]
    exact ⟨fun _ => hmoves, trivial, hinput⟩

/-- What dispatching a request can do. -/
inductive Dispatched (fresh : Session → Prop) (order : HashOrder) (request : Request)
    (s : Session) : EStateM.Result (Abort SessionError) Session Unit → Prop where
  | closed (tag : request.tag = notag) (plain : ¬ Renegotiates request) (reason : String) :
      Dispatched fresh order request s (.ok () (s.failProtocol order reason))
  | renegotiated {msize : UInt32} {version : Bytes} {r : EStateM.Result _ Session Unit}
      (renegotiates : Renegotiates request) (wide : 21 ≤ msize)
      (replied : Handled fresh (s.renegotiate order msize version) r) :
      Dispatched fresh order request s r
  | handled {r : EStateM.Result _ Session Unit} (tag : request.tag ≠ notag)
      (handled : Handled fresh s r) : Dispatched fresh order request s r

/-- **What dispatching a request can do.** -/
theorem dispatched (fresh : Session → Prop) (order : HashOrder) (request : Request) (s : Session) :
    Dispatched fresh order request s (dispatch order request s) := by
  unfold dispatch
  split
  · rename_i msize version hbody
    unfold handleVersion
    by_cases htag : request.tag = notag
    · rw [if_neg (not_not.2 htag)]
      split
      · rename_i hnarrow
        refine .closed htag ?_ _
        rintro ⟨-, msize', version', hbody', hwide⟩
        rw [hbody] at hbody'
        cases hbody'
        exact absurd hnarrow (UInt32.not_lt.2 hwide)
      · rename_i hwide
        have hwide' := UInt32.not_lt.1 hwide
        exact .renegotiated ⟨htag, msize, version, hbody, hwide'⟩ hwide'
          (handled_queueResponse _ (s.renegotiate order msize version))
    · rw [if_pos htag]
      exact .handled htag (handled_queueResponse _ s)
  · rename_i hversion
    split
    · rename_i htag
      refine .closed htag ?_ _
      rintro ⟨-, msize, version, hbody, -⟩
      exact hversion _ _ hbody
    · rename_i htag
      refine .handled htag ?_
      split
      · exact handled_queueResponse _ s
      · rename_i hactive
        rw [not_or] at hactive
        split
        · exact handled_queueResponse _ s
        · split
          · exact handled_handleFlush hactive _
          · rename_i hplain
            have hserve := carries_serve request.tag s hplain hversion
            rw [hserve.performs]
            exact handled_perform hactive hserve.decided

/-- A call that is a sequence of small steps and stops at no failing `expect`. -/
structure Runs {ε α : Type} (fresh : Session → Prop) (s : Session)
    (r : EStateM.Result (Abort ε) Session α) : Prop where
  requests : Requests fresh s (after r)
  calm : Calm r

theorem Runs.moves {ε α : Type} {r : EStateM.Result (Abort ε) Session α} (h : Runs fresh s r) :
    Moves fresh s (after r) := requests_moves h.requests

theorem runs_dispatch (order : HashOrder) {request : Request} (active : s.terminalReason = none)
    (renews : Renegotiates request → fresh s) : Runs fresh s (dispatch order request s) := by
  have hdispatched := dispatched fresh order request s
  generalize dispatch order request s = r at hdispatched ⊢
  cases hdispatched with
  | closed => exact ⟨Move.close_request order s s.decoder.clear _, trivial⟩
  | @renegotiated msize version _ renegotiates wide replied =>
    have hmove : Move fresh s _ := .renegotiate order active (renews renegotiates) msize version
    obtain ⟨cleanup, heq⟩ := renegotiate_eq order s msize version
    have hempty : (s.renegotiate order msize version).flushes = ∅ ∧
        (s.renegotiate order msize version).pendingByTag = ∅ := by
      rw [heq]
      exact ⟨rfl, rfl⟩
    refine ⟨(hmove.request fun _ _ => .inr hempty).trans (replied.requests ?_), replied.calm⟩
    rw [s.renegotiate_terminalReason]
    exact active
  | handled _ handled => exact ⟨handled.requests active, handled.calm⟩

/-! ## Receiving -/

/-- Whenever one of these frames renegotiates the session, `fresh` holds at that moment. -/
def RenewsFrames (fresh : Session → Prop) (order : HashOrder) : List Bytes → Session → Prop
  | [], _ => True
  | frame :: frames, s =>
    (∀ request, decodeRequest frame s.limits s.activeMsize = .ok request → Renegotiates request →
      fresh s) ∧
    ∀ s', receiveDecodedFrame order frame s = .ok () s' → s'.terminalReason = none →
      RenewsFrames fresh order frames s'

/-- Whenever this call renegotiates the session, `fresh` holds at that moment. A closing session takes
no frames. -/
def Renews (fresh : Session → Prop) (order : HashOrder) (s : Session) : Call → Prop
  | .receiveBytes bytes => s.terminalReason = none →
    ∀ frames decoder, s.decoder.push bytes s.activeMsize = (.ok frames, decoder) →
      RenewsFrames fresh order frames { s with decoder }
  | .receiveFrame frame => s.terminalReason = none → RenewsFrames fresh order [frame] s
  | _ => True

theorem renewsFrames_always (order : HashOrder) (frames : List Bytes) (s : Session) :
    RenewsFrames (fun _ => True) order frames s := by
  induction frames generalizing s with
  | nil => trivial
  | cons frame frames ih => exact ⟨fun _ _ _ => trivial, fun s' _ _ => ih s'⟩

theorem renews_always (order : HashOrder) (s : Session) (c : Call) :
    Renews (fun _ => True) order s c := by
  cases c with
  | receiveBytes => exact fun _ _ _ _ => renewsFrames_always order _ _
  | receiveFrame => exact fun _ => renewsFrames_always order _ _
  | complete | pollEffect | beginClose | transportClosed => trivial

variable {order : HashOrder}

/-- The loop over the frames of one chunk dispatches only while the session is active. -/
theorem receiveFrames_cons (order : HashOrder) (frame : Bytes) (frames : List Bytes) (s : Session) :
    receiveFrames order (frame :: frames) s =
      match receiveDecodedFrame order frame s with
      | .ok () s' => if s'.terminalReason.isNone then receiveFrames order frames s' else .ok () s'
      | .error e s' => .error e s' := by
  show EStateM.bind _ _ s = _
  unfold EStateM.bind
  cases receiveDecodedFrame order frame s with
  | error e s' => rfl
  | ok u s' =>
    show EStateM.bind _ _ s' = _
    simp only [EStateM.bind, get, getThe, MonadStateOf.get, EStateM.get]
    split <;> rfl

variable {bytes : Bytes}

theorem receiveBytes_of_frames (active : s.terminalReason = none) {frames : List Bytes}
    {decoder : FrameDecoder} (hpush : s.decoder.push bytes s.activeMsize = (.ok frames, decoder)) :
    receiveBytes order bytes s = receiveFrames order frames { s with decoder } := by
  unfold receiveBytes whileActive
  simp only [active, Option.isSome_none, Bool.false_eq_true, if_false, hpush]

theorem receiveBytes_of_error (active : s.terminalReason = none) {error : DecodeError}
    {decoder : FrameDecoder} (hpush : s.decoder.push bytes s.activeMsize = (.error error, decoder)) :
    receiveBytes order bytes s =
      .error (.error (.decode error)) ({ s with decoder }.failDecode order error) := by
  unfold receiveBytes whileActive
  simp only [active, Option.isSome_none, Bool.false_eq_true, if_false, hpush]

theorem receiveBytes_of_closing (closing : s.terminalReason.isSome = true) (bytes : Bytes) :
    receiveBytes order bytes s = .error (.error .closing) s :=
  if_pos closing

theorem runs_receiveDecodedFrame (order : HashOrder) {frame : Bytes}
    (active : s.terminalReason = none)
    (renews : ∀ request, decodeRequest frame s.limits s.activeMsize = .ok request →
      Renegotiates request → fresh s) : Runs fresh s (receiveDecodedFrame order frame s) := by
  unfold receiveDecodedFrame
  cases hdecode : decodeRequest frame s.limits s.activeMsize with
  | error e => exact ⟨Move.close_request order s s.decoder.clear _, trivial⟩
  | ok request => exact runs_dispatch order active (renews request hdecode)

theorem runs_receiveFrames {frames : List Bytes} (active : s.terminalReason = none)
    (renews : RenewsFrames fresh order frames s) : Runs fresh s (receiveFrames order frames s) := by
  induction frames generalizing s with
  | nil => exact ⟨.refl, trivial⟩
  | cons frame frames ih =>
    obtain ⟨hfirst, hrest⟩ := renews
    have hruns := runs_receiveDecodedFrame order active hfirst
    rw [receiveFrames_cons]
    cases hrun : receiveDecodedFrame order frame s with
    | error e s' =>
      rw [hrun] at hruns
      exact ⟨hruns.requests, hruns.calm⟩
    | ok u s' =>
      rw [hrun] at hruns
      simp only
      split
      · rename_i hnone
        have hactive := Option.isNone_iff_eq_none.1 hnone
        have hnext := ih hactive (hrest s' hrun hactive)
        exact ⟨hruns.requests.trans hnext.requests, hnext.calm⟩
      · exact ⟨hruns.requests, trivial⟩

theorem runs_receiveBytes (renews : Renews fresh order s (.receiveBytes bytes)) :
    Runs fresh s (receiveBytes order bytes s) := by
  by_cases hclosing : s.terminalReason.isSome = true
  · rw [receiveBytes_of_closing hclosing]
    exact ⟨.refl, trivial⟩
  · have hactive := Option.not_isSome_iff_eq_none.1 hclosing
    rcases hpush : s.decoder.push bytes s.activeMsize with ⟨result, decoder⟩
    cases result with
    | error e =>
      rw [receiveBytes_of_error hactive hpush]
      exact ⟨Move.close_request order s _ _, trivial⟩
    | ok frames =>
      rw [receiveBytes_of_frames hactive hpush]
      have hruns := runs_receiveFrames (s := { s with decoder }) hactive (renews hactive _ _ hpush)
      exact ⟨((Move.decode decoder).aside rfl).trans hruns.requests, hruns.calm⟩

theorem runs_receiveFrame {frame : Bytes} (renews : Renews fresh order s (.receiveFrame frame)) :
    Runs fresh s (receiveFrame order frame s) := by
  unfold receiveFrame whileActive
  split
  · exact ⟨.refl, trivial⟩
  · rename_i hclosing
    have hactive := Option.not_isSome_iff_eq_none.1 hclosing
    exact runs_receiveDecodedFrame order hactive (renews hactive).1

theorem moves_beginClose (order : HashOrder) (s : Session) : Moves fresh s (s.beginClose order) :=
  (Move.close order s.decoder (s.terminalReason.getD .hostShutdown)).moves

/-! ## Completing -/

/-- The session in which the fid of a completed operation was settled, and drained when the session is
closing (mod.rs:217-228, 1861-1885). -/
def Session.settled (order : HashOrder) (s : Session) (tag : Tag) (p : PendingOperation)
    (completion : Completion) : Session :=
  let s := ((s.untrack p.operationId tag p).settle p.continuation completion).2
  if s.terminalReason.isSome then s.drainFidsToCleanup order else s

theorem settled_effects (order : HashOrder) (s : Session) (tag : Tag) (p : PendingOperation)
    (completion : Completion) : (s.settled order tag p completion).effects = s.effects ∧
      (s.settled order tag p completion).context = s.context := by
  obtain ⟨fids, count, hframe⟩ :=
    (settled_settle (s := s.untrack p.operationId tag p) p.continuation completion).frame
  unfold Session.settled
  dsimp only
  rw [hframe]
  split
  · rw [drainFidsToCleanup_eq]
    exact ⟨rfl, rfl⟩
  · exact ⟨rfl, rfl⟩

theorem moves_replyOrFail (order : HashOrder) (s : Session) (response : Response)
    (reason : String) : Moves fresh s (s.replyOrFail order response reason) := by
  rcases replyOrFail_cases order s response reason with ⟨bytes, hreply, heq⟩ | heq
  · rw [heq]
    exact (Move.frame hreply.room).moves
  · rw [heq]
    exact (Move.close order s.decoder.clear _).moves

theorem moves_answerFlush (order : HashOrder) {flush : FlushState}
    (active : s.flushes[tag]? = some flush) : Moves fresh s (s.answerFlush order tag flush) := by
  rw [answerFlush_eq]
  split
  · exact (Move.dropFlush active).moves
  · exact (Move.dropFlush active).moves.trans (moves_replyOrFail _ _ _ _)

theorem Works.moves {tags : List Tag} (works : Works order tags s s') : Moves fresh s s' := by
  induction works with
  | done => exact moves_refl _
  | skip _ _ ih => exact ih
  | answer active _ ih => exact (moves_answerFlush order active).trans ih

/-- What follows the settling of an operation: its reply, and the flushes that waited for it. -/
theorem moves_finishPending (order : HashOrder) (s : Session) (tag : Tag) (p : PendingOperation)
    (completion : Completion) : Moves fresh (s.settled order tag p completion)
      ((s.untrack p.operationId tag p).finishPending order tag p completion) := by
  obtain ⟨s₁, s₂, s₃, hfinished⟩ := finishPending_stages order (s.untrack p.operationId tag p) tag p
    completion
  have hdrained : s₂ = s.settled order tag p completion := by
    rw [hfinished.drained, hfinished.settled]
    rfl
  rw [← hdrained]
  refine Relation.ReflTransGen.trans ?_ hfinished.answered.moves
  rw [hfinished.replied]
  split
  · exact moves_refl s₂
  · exact moves_replyOrFail _ _ _ _

/-- What `complete` can do. -/
inductive Completed (order : HashOrder) (completion : Completion) (s : Session) :
    EStateM.Result (Abort CompletionError) Session Unit → Prop where
  | rejected (e : CompletionError) : Completed order completion s (.error (.error e) s)
  | forgotten {expected : ExpectedCompletion}
      (idle : s.tagByOperation[completion.operationId]? = none)
      (abandoned : s.abandonedOperations[completion.operationId]? = some expected)
      (valid : expected.validate completion = .ok ()) :
      Completed order completion s (.ok ()
        { s with abandonedOperations := s.abandonedOperations.erase completion.operationId })
  | finished {tag : Tag} {p : PendingOperation} (active : s.pendingByTag[tag]? = some p)
      (index : s.tagByOperation[p.operationId]? = some tag)
      (id : p.operationId = completion.operationId)
      (valid : p.expected.validate completion = .ok ()) :
      Completed order completion s (.ok ()
        ((s.untrack p.operationId tag p).finishPending order tag p completion))

/-- The index is never ahead of the tags, so the `expect` of `complete` does not fire. -/
theorem completed (h : Indexed s) (order : HashOrder) (completion : Completion) :
    Completed order completion s (complete order completion s) := by
  unfold complete
  cases hindex : s.tagByOperation[completion.operationId]? with
  | some tag =>
    obtain ⟨p, hp, hid⟩ := (h.inverse _ _).1 hindex
    simp only [hp]
    cases hvalid : p.expected.validate completion with
    | error e => exact .rejected e
    | ok =>
      simp only [← hid]
      exact .finished hp (hid ▸ hindex) hid hvalid
  | none =>
    simp only
    cases habandoned : s.abandonedOperations[completion.operationId]? with
    | some expected =>
      simp only
      cases hvalid : expected.validate completion with
      | error e => exact .rejected e
      | ok => exact .forgotten hindex habandoned hvalid
    | none =>
      simp only
      split <;> exact .rejected _

/-! ## Polling -/

/-- The cleanup action that will hand out some work. -/
def Work.action : Work → CleanupAction
  | filesystem request => .filesystem request
  | policy request => .policy request

def Session.pop (s : Session) (effect : Effect) (effects : List Effect) : Session :=
  { s with
    effects
    accounting := { s.accounting with
      queuedEffects := Accounting.release s.accounting.queuedEffects 1
      queuedEffectBytes := Accounting.release s.accounting.queuedEffectBytes effect.retainedBytes } }

/-- What polling an effect does, and where the effect comes from. -/
inductive PollStep (s : Session) : Option Effect × Session → Prop where
  | queued {effect : Effect} {effects : List Effect} (head : s.effects = effect :: effects) :
      PollStep s (some effect, s.pop effect effects)
  | cancelled {id : OperationId} {kind : CancelKind} {cleanup : List CleanupAction}
      (idle : s.effects = []) (head : s.cleanup = .cancel id kind :: cleanup) :
      PollStep s (some (.cancel id kind), { s with cleanup })
  | handed {work : Work} {cleanup : List CleanupAction} {id : OperationId} (idle : s.effects = [])
      (head : s.cleanup = work.action :: cleanup) (next : s.operationIds = some id) :
      PollStep s (some (work.effect id), { s with cleanup }.handOut id work.expected)
  | exhausted {work : Work} {cleanup : List CleanupAction} (idle : s.effects = [])
      (head : s.cleanup = work.action :: cleanup) (none : s.operationIds = none) :
      PollStep s (.none, { s with cleanup, terminalReason := some .resourceExhausted })
  | closed {reason : CloseReason} (idle : s.effects = []) (clean : s.cleanup = [])
      (closing : s.terminalReason = some reason) :
      PollStep s (some (.closeSession reason), { s with terminalEffectDelivered := true })
  | idle : PollStep s (none, s)

theorem pollStep_emitCleanup (work : Work) {cleanup : List CleanupAction} (idle : s.effects = [])
    (head : s.cleanup = work.action :: cleanup) :
    PollStep s ({ s with cleanup }.emitCleanup work.expected work.effect) := by
  unfold emitCleanup
  split
  · rename_i hnone
    exact .exhausted idle head hnone
  · rename_i hsome
    exact .handed idle head hsome

theorem pollStep (s : Session) : PollStep s s.pollEffect := by
  unfold pollEffect
  split
  · rename_i heffects
    exact .queued heffects
  · rename_i heffects
    split
    · rename_i action cleanup hcleanup
      cases action with
      | cancel => exact .cancelled heffects hcleanup
      | policy request => exact pollStep_emitCleanup (.policy request) heffects hcleanup
      | filesystem request => exact pollStep_emitCleanup (.filesystem request) heffects hcleanup
    · rename_i hcleanup
      split
      · rename_i hreason
        split
        · exact .idle
        · exact .closed heffects hcleanup hreason
      · exact .idle

/-! ## Reachable states -/

theorem PollStep.bookkeeping {effect : Option Effect} (step : PollStep s (effect, s'))
    (books : Bookkeeping s) : Bookkeeping s' := by
  cases step with
  | queued head => exact books.popEffect head
  | cancelled => exact books.withCleanup _
  | @handed work cleanup id idle head next =>
    exact (books.withCleanup cleanup).handOut next work.expected
  | @exhausted _ cleanup => exact (books.withCleanup cleanup).setReason .resourceExhausted s.decoder
  | closed =>
    exact { books with
      indexed := { books.indexed with }
      counted := { books.counted with }
      bounded := { books.bounded with }
      owning := fun active => { books.owning active with } }
  | idle => exact books

theorem answerOf_snd (r : EStateM.Result (Abort SessionError) Session Unit) :
    (answerOf r).2 = after r := by
  rcases r with _ | ⟨_ | _, _⟩ <;> rfl

theorem completionAnswerOf_snd (r : EStateM.Result (Abort CompletionError) Session Unit) :
    (completionAnswerOf r).2 = after r := by
  rcases r with _ | ⟨_ | _, _⟩ <;> rfl

/-- One public call keeps the books. -/
theorem Bookkeeping.call (h : Bookkeeping s) (order : HashOrder) (c : Call) :
    Bookkeeping (call order s c).2 := by
  have hrenews := renews_always order s c
  cases c with
  | receiveBytes bytes =>
    exact answerOf_snd _ ▸ moves_bookkeeping (runs_receiveBytes hrenews).moves h
  | receiveFrame frame =>
    exact answerOf_snd _ ▸ moves_bookkeeping (runs_receiveFrame hrenews).moves h
  | complete completion =>
    refine completionAnswerOf_snd _ ▸ ?_
    have hcompleted := completed h.indexed order completion
    generalize W9pt.Connection.complete order completion s = r at hcompleted ⊢
    cases hcompleted with
    | rejected => exact h
    | forgotten => exact h.forget _
    | @finished tag p active index _ _ =>
      have hmoves : Moves (fun _ => True) _ _ := moves_finishPending order s tag p completion
      exact moves_bookkeeping hmoves (h.settle order active index (settled_settle _ completion))
  | pollEffect => exact (pollStep s).bookkeeping h
  | beginClose | transportClosed =>
    have hmoves : Moves (fun _ => True) _ _ := moves_beginClose order s
    exact moves_bookkeeping hmoves h

/-- **Every reachable session keeps its books.** -/
theorem bookkeeping_of_reachable (reachable : Reachable s) : Bookkeeping s := by
  induction reachable with
  | new created => exact bookkeeping_new created
  | call _ order c ih => exact ih.call order c

/-! ## Traces -/

/-- What the host can observe of a session. -/
inductive Event where
  | polled (effect : Effect)
  | completed (completion : Completion)

/-- The events of one call: an effect was polled, or a completion was accepted. -/
def eventsOf (order : HashOrder) (s : Session) : Call → List Event
  | .pollEffect => s.pollEffect.1.toList.map .polled
  | .complete completion =>
    match complete order completion s with
    | .ok () _ => [.completed completion]
    | .error _ _ => []
  | _ => []

/-- The runs of a session whose calls all satisfy `permitted`, with their events. -/
inductive Trace (permitted : HashOrder → Session → Call → Prop) : List Event → Session → Prop where
  | new {limits : Limits} {context : SessionContext} {s : Session}
      (created : Session.new limits context = .ok s) : Trace permitted [] s
  | call {events : List Event} {s : Session} (before : Trace permitted events s)
      (order : HashOrder) (c : Call) (permits : permitted order s c) :
      Trace permitted (events ++ eventsOf order s c) (call order s c).2

variable {permitted : HashOrder → Session → Call → Prop} {events : List Event}

theorem Trace.reachable (h : Trace permitted events s) : Reachable s := by
  induction h with
  | new created => exact .new created
  | call _ order c _ ih => exact ih.call order c

def Session.eventsOfRun (order : HashOrder) : Session → List Call → List Event
  | _, [] => []
  | s, c :: calls => eventsOf order s c ++ eventsOfRun order (call order s c).2 calls

/-- Every call of a run is permitted when it is made. -/
def Along (permitted : HashOrder → Session → Call → Prop) (order : HashOrder) :
    Session → List Call → Prop
  | _, [] => True
  | s, c :: calls => permitted order s c ∧ Along permitted order (call order s c).2 calls

theorem Trace.run (trace : Trace permitted events s) {calls : List Call}
    (permits : Along permitted order s calls) :
    Trace permitted (events ++ s.eventsOfRun order calls) (s.run order calls) := by
  induction calls generalizing events s with
  | nil =>
    rw [Session.eventsOfRun, List.append_nil]
    exact trace
  | cons c calls ih =>
    rw [Session.eventsOfRun, ← List.append_assoc]
    exact ih (trace.call order c permits.1) permits.2

theorem Trace.of_new {limits : Limits} {context : SessionContext} {calls : List Call}
    (created : Session.new limits context = .ok s) (permits : Along permitted order s calls) :
    Trace permitted (s.eventsOfRun order calls) (s.run order calls) := by
  have htrace := (Trace.new created).run permits
  rwa [List.nil_append] at htrace

theorem along_always (order : HashOrder) (s : Session) (calls : List Call) :
    Along (fun _ _ _ => True) order s calls := by
  induction calls generalizing s with
  | nil => trivial
  | cons c calls ih => exact ⟨trivial, ih _⟩

/-- What an invariant of a session and its events has to survive. -/
structure Survives (fresh : Session → Prop) (permitted : HashOrder → Session → Call → Prop)
    (I : List Event → Session → Prop) : Prop where
  renews : ∀ {order s c}, permitted order s c → Renews fresh order s c
  new : ∀ {limits context s}, Session.new limits context = .ok s → I [] s
  move : ∀ {events s s'}, Bookkeeping s → I events s → Move fresh s s' → I events s'
  settle : ∀ {events s tag p completion} (order : HashOrder), Bookkeeping s → I events s →
    s.pendingByTag[tag]? = some p → s.tagByOperation[p.operationId]? = some tag →
    p.operationId = completion.operationId → p.expected.validate completion = .ok () →
    I (events ++ [.completed completion]) (s.settled order tag p completion)
  forget : ∀ {events s completion expected}, Bookkeeping s → I events s →
    s.abandonedOperations[completion.operationId]? = some expected →
    expected.validate completion = .ok () →
    I (events ++ [.completed completion])
      { s with abandonedOperations := s.abandonedOperations.erase completion.operationId }
  poll : ∀ {events s order effect s'}, Bookkeeping s → I events s → PollStep s (effect, s') →
    permitted order s .pollEffect → I (events ++ effect.toList.map .polled) s'

variable {I : List Event → Session → Prop}

theorem Survives.moves (h : Survives fresh permitted I) (books : Bookkeeping s)
    (invariant : I events s) (moves : Moves fresh s s') :
    Bookkeeping s' ∧ I events s' := by
  induction moves with
  | refl => exact ⟨books, invariant⟩
  | tail _ hstep ih => exact ⟨hstep.bookkeeping ih.1, h.move ih.1 ih.2 hstep⟩

theorem Survives.complete (h : Survives fresh permitted I) (books : Bookkeeping s)
    (invariant : I events s) (order : HashOrder) (completion : Completion) :
    I (events ++ eventsOf order s (.complete completion))
      (call order s (.complete completion)).2 := by
  have hcompleted := completed books.indexed order completion
  simp only [eventsOf, call, completionAnswerOf_snd]
  generalize W9pt.Connection.complete order completion s = r at hcompleted ⊢
  cases hcompleted with
  | rejected e =>
    simp only [List.append_nil]
    exact invariant
  | forgotten _ abandoned valid => exact h.forget books invariant abandoned valid
  | finished active index id valid =>
    have hsettled := h.settle order books invariant active index id valid
    have hbooks : Bookkeeping (s.settled order _ _ completion) :=
      books.settle order active index (settled_settle _ completion)
    exact (h.moves hbooks hsettled (moves_finishPending order s _ _ completion)).2

/-- **Invariants of traces.** -/
theorem Trace.invariant (trace : Trace permitted events s) (h : Survives fresh permitted I) :
    I events s := by
  induction trace with
  | new created => exact h.new created
  | @call events s before order c permits ih =>
    have hbooks := bookkeeping_of_reachable before.reachable
    have hmoves : ∀ s', Moves fresh s s' → I (events ++ []) s' := by
      intro s' hmoves
      rw [List.append_nil]
      exact (h.moves hbooks ih hmoves).2
    cases c with
    | receiveBytes bytes =>
      exact answerOf_snd _ ▸ hmoves _ (runs_receiveBytes (h.renews permits)).moves
    | receiveFrame frame =>
      exact answerOf_snd _ ▸ hmoves _ (runs_receiveFrame (h.renews permits)).moves
    | complete completion => exact h.complete hbooks ih order completion
    | pollEffect => exact h.poll hbooks ih (pollStep s) permits
    | beginClose | transportClosed => exact hmoves _ (moves_beginClose order s)

end W9pt.Connection

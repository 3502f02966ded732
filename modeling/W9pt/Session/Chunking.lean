import W9pt.Session.Blind
import W9pt.Protocol.Decoding

/-!
# How the input is cut into chunks (`session/mod.rs:174-190`)

`receive_bytes` cuts a whole chunk into frames under the message size that was negotiated before the
chunk, and only then serves them. `feed` runs it over a list of chunks and records the frames that
reach `dispatch`; `frameByFrame` serves the frames of a stream one after another.

The two agree for every way to cut the stream exactly when nothing follows a frame that renegotiates
the session, and no frame follows one that `dispatch` refuses (`chunking_transparent_iff`). A
`Tversion` clears what the decoder retained of the bytes behind it, so how much is lost depends on
where the chunk ends.
-/

namespace W9pt.Connection

open Lib Protocol Session

variable {order : HashOrder} {s s' : Session}

/-! ## The tail of a reachable session -/

/-- The decoder agrees with the limits and retains the beginning of one frame. -/
structure Aligned (s : Session) : Prop where
  hard : s.decoder.hardMaximum = s.limits.maxFrameSize
  room : s.decoder.maximumRetained = s.limits.maxBufferedInputBytes
  headed : 7 ≤ s.activeMsize.toNat
  within : s.activeMsize.toNat ≤ s.limits.maxFrameSize.toNat
  buffered : s.limits.maxFrameSize.toNat ≤ s.limits.maxBufferedInputBytes
  tail : s.terminalReason = none → Incomplete s.activeMsize s.decoder.retained

theorem Aligned.maximum (h : Aligned s) : min s.decoder.hardMaximum s.activeMsize = s.activeMsize := by
  apply UInt32.toNat_inj.1
  rw [h.hard, toNat_min_uint32, Nat.min_eq_right h.within]

/-- An update that does not concern framing: at most the tail is dropped. -/
structure SameFraming (s s' : Session) : Prop where
  limits : s'.limits = s.limits
  msize : s'.negotiatedMsize = s.negotiatedMsize
  decoder : s'.decoder = s.decoder ∨ s'.decoder = s.decoder.clear
  active : s'.terminalReason = none → s.terminalReason = none

theorem SameFraming.refl (s : Session) : SameFraming s s := ⟨rfl, rfl, .inl rfl, id⟩

theorem SameFraming.trans {s₁ s₂ s₃ : Session} (h : SameFraming s₁ s₂) (h' : SameFraming s₂ s₃) :
    SameFraming s₁ s₃ where
  limits := h'.limits.trans h.limits
  msize := h'.msize.trans h.msize
  decoder := by
    rcases h.decoder with h₁ | h₁ <;> rcases h'.decoder with h₂ | h₂ <;> rw [h₂, h₁]
    · exact .inl rfl
    · exact .inr rfl
    · exact .inr rfl
    · exact .inr rfl
  active hactive := h.active (h'.active hactive)

theorem SameFraming.activeMsize (h : SameFraming s s') : s'.activeMsize = s.activeMsize := by
  rw [Session.activeMsize, h.msize, h.limits, Session.activeMsize]

theorem Aligned.of_same (h : Aligned s) (same : SameFraming s s') : Aligned s' where
  hard := by
    rw [same.limits, ← h.hard]
    rcases same.decoder with hd | hd <;> rw [hd]
    rfl
  room := by
    rw [same.limits, ← h.room]
    rcases same.decoder with hd | hd <;> rw [hd]
    rfl
  headed := by rw [same.activeMsize]; exact h.headed
  within := by rw [same.activeMsize, same.limits]; exact h.within
  buffered := by rw [same.limits]; exact h.buffered
  tail := by
    intro hactive
    rw [same.activeMsize]
    rcases same.decoder with hd | hd
    · rw [hd]
      exact h.tail (same.active hactive)
    · rw [hd]
      exact incomplete_nil _

theorem same_startCleanup (s : Session) : SameFraming s (s.startCleanup order) := by
  cases hstarted : s.cleanupStarted with
  | true =>
    rw [startCleanup_of_started hstarted]
    exact .refl s
  | false =>
    rw [startCleanup_eq hstarted]
    exact ⟨rfl, rfl, .inr rfl, id⟩

theorem same_failProtocol (s : Session) (reason : String) :
    SameFraming s (s.failProtocol order reason) := by
  have hset : SameFraming s { s with
      decoder := s.decoder.clear, terminalReason := some (.protocolViolation reason) } :=
    ⟨rfl, rfl, .inr rfl, fun h => by cases h⟩
  exact hset.trans (same_startCleanup _)

theorem same_failDecode (s : Session) (error : DecodeError) :
    SameFraming s (s.failDecode order error) := by
  have hset : SameFraming s { s with
      decoder := s.decoder.clear, terminalReason := some (.malformedInput error) } :=
    ⟨rfl, rfl, .inr rfl, fun h => by cases h⟩
  exact hset.trans (same_startCleanup _)

theorem Session.SameInput.same (h : s.SameInput s') : SameFraming s s' :=
  ⟨h.limits, h.msize, .inl h.decoder, fun hactive => h.reason ▸ hactive⟩

section

variable (h : Aligned s)

include h

/-- A renegotiation picks a message size within the limit and drops the tail. -/
theorem Aligned.renegotiate {msize : UInt32} (wide : 21 ≤ msize) (version : Bytes) :
    Aligned (s.renegotiate order msize version) := by
  have hbuffered := h.buffered
  have hframe : 7 ≤ s.limits.maxFrameSize.toNat := h.headed.trans h.within
  have hwide : 21 ≤ msize.toNat := UInt32.le_iff_toNat_le.1 wide
  have hmsize : 7 ≤ (min msize s.limits.maxFrameSize).toNat ∧
      (min msize s.limits.maxFrameSize).toNat ≤ s.limits.maxFrameSize.toNat := by
    rw [toNat_min_uint32]
    omega
  obtain ⟨cleanup, heq⟩ := renegotiate_eq order s msize version
  have hactive : 7 ≤ (s.renegotiate order msize version).activeMsize.toNat ∧
      (s.renegotiate order msize version).activeMsize.toNat ≤ s.limits.maxFrameSize.toNat := by
    rw [heq]
    simp only [Session.activeMsize]
    split
    · exact hmsize
    · exact ⟨hframe, Nat.le_refl _⟩
  have hretained : (s.renegotiate order msize version).decoder.retained = [] := by
    rw [heq]
    rfl
  exact {
    hard := by rw [heq]; exact h.hard
    room := by rw [heq]; exact h.room
    headed := hactive.1
    within := by
      have hlimits : (s.renegotiate order msize version).limits = s.limits := by rw [heq]
      rw [hlimits]
      exact hactive.2
    buffered := by rw [heq]; exact h.buffered
    tail := fun _ => by rw [hretained]; exact incomplete_nil _ }

theorem Aligned.dispatch (request : Request) :
    Aligned (after (dispatch order request s)) := by
  have hdispatched := dispatched (fun _ => True) order request s
  generalize W9pt.Connection.dispatch order request s = r at hdispatched ⊢
  cases hdispatched with
  | closed _ _ reason => exact h.of_same (same_failProtocol s reason)
  | renegotiated _ wide replied => exact (h.renegotiate wide _).of_same replied.input.same
  | handled _ handled => exact h.of_same handled.input.same

theorem Aligned.receiveDecodedFrame (order : HashOrder) (frame : Bytes) :
    Aligned (after (receiveDecodedFrame order frame s)) := by
  unfold W9pt.Connection.receiveDecodedFrame
  split
  · exact h.of_same (same_failDecode s _)
  · exact h.dispatch _

theorem Aligned.receiveFrames (order : HashOrder) (frames : List Bytes) :
    Aligned (after (receiveFrames order frames s)) := by
  induction frames generalizing s with
  | nil => exact h
  | cons frame frames ih =>
    have hfirst := h.receiveDecodedFrame order frame
    rw [receiveFrames_cons]
    cases hr : W9pt.Connection.receiveDecodedFrame order frame s with
    | error e s' =>
      rw [hr] at hfirst
      exact hfirst
    | ok u s' =>
      rw [hr] at hfirst
      simp only
      split
      · exact ih hfirst
      · exact hfirst

theorem Aligned.retaining {tail : Bytes}
    (htail : s.terminalReason = none → Incomplete s.activeMsize tail) :
    Aligned (s.retaining tail) :=
  { hard := h.hard, room := h.room, headed := h.headed, within := h.within, buffered := h.buffered,
    tail := htail }

theorem Aligned.retained (active : s.terminalReason = none) :
    Incomplete (min s.decoder.hardMaximum s.activeMsize) s.decoder.retained := by
  rw [h.maximum]
  exact h.tail active

/-- What a push does to a session whose decoder agrees with its limits. -/
theorem Aligned.push (active : s.terminalReason = none) {bytes : Bytes}
    {result : Except DecodeError (List Bytes)} {decoder : FrameDecoder}
    (hpush : s.decoder.push bytes s.activeMsize = (result, decoder)) :
    ∃ kept, ({ s with decoder } : Session) = s.retaining kept ∧
      (result.isOk → Incomplete s.activeMsize kept) := by
  rcases FrameDecoder.push_cases bytes (h.retained active) with
    ⟨frames, kept, heq, hcut⟩ | ⟨error, kept, heq, -⟩
  · cases hpush.symm.trans heq
    exact ⟨kept, rfl, fun _ => h.maximum ▸ hcut.tail⟩
  · cases hpush.symm.trans heq
    exact ⟨kept, rfl, fun hok => by cases hok⟩

theorem Aligned.receiveBytes (bytes : Bytes) :
    Aligned (after (receiveBytes order bytes s)) := by
  by_cases hclosing : s.terminalReason.isSome = true
  · rw [receiveBytes_of_closing hclosing]
    exact h
  · have hactive := Option.not_isSome_iff_eq_none.1 hclosing
    rcases hpush : s.decoder.push bytes s.activeMsize with ⟨result, decoder⟩
    obtain ⟨kept, hkept, htail⟩ := h.push hactive hpush
    cases result with
    | error e =>
      rw [receiveBytes_of_error hactive hpush, hkept]
      exact h.of_same (failDecode_retaining order e s kept ▸ same_failDecode s e)
    | ok frames =>
      rw [receiveBytes_of_frames hactive hpush, hkept]
      exact (h.retaining fun _ => htail rfl).receiveFrames order frames

end

theorem same_replyOrFail (s : Session) (response : Response) (reason : String) :
    SameFraming s (s.replyOrFail order response reason) := by
  rcases replyOrFail_cases order s response reason with ⟨bytes, -, heq⟩ | heq
  · rw [heq]
    exact ⟨rfl, rfl, .inl rfl, id⟩
  · rw [heq]
    exact same_failProtocol s reason

theorem Works.same {tags : List Tag} (works : Works order tags s s') : SameFraming s s' := by
  induction works with
  | done => exact .refl _
  | skip _ _ ih => exact ih
  | @answer s s' tag tags flush _ _ ih =>
    have hdrop : SameFraming s (s.dropFlush tag) := ⟨rfl, rfl, .inl rfl, id⟩
    refine SameFraming.trans ?_ ih
    rw [answerFlush_eq]
    split
    · exact hdrop
    · exact hdrop.trans (same_replyOrFail _ _ _)

theorem same_finishPending (s : Session) (tag : Tag) (p : PendingOperation)
    (completion : Completion) : SameFraming s (s.finishPending order tag p completion) := by
  obtain ⟨s₁, s₂, s₃, hfinished⟩ := finishPending_stages order s tag p completion
  have hsettle : SameFraming s s₁ := by
    obtain ⟨fids, count, hframe⟩ := (settled_settle (s := s) p.continuation completion).frame
    rw [hfinished.settled, hframe]
    exact ⟨rfl, rfl, .inl rfl, id⟩
  have hdrain : SameFraming s₁ s₂ := by
    rw [hfinished.drained]
    split
    · rw [drainFidsToCleanup_eq]
      exact ⟨rfl, rfl, .inl rfl, id⟩
    · exact .refl s₁
  have hreply : SameFraming s₂ s₃ := by
    rw [hfinished.replied]
    split
    · exact .refl s₂
    · exact same_replyOrFail _ _ _
  exact ((hsettle.trans hdrain).trans hreply).trans hfinished.answered.same

theorem same_complete (h : Indexed s) (completion : Completion) :
    SameFraming s (after (complete order completion s)) := by
  generalize hr : W9pt.Connection.complete order completion s = r
  have hcompleted : Completed order completion s r := hr ▸ completed h order completion
  cases hcompleted with
  | rejected => exact .refl s
  | forgotten => exact ⟨rfl, rfl, .inl rfl, id⟩
  | @finished tag p =>
    have huntrack : SameFraming s (s.untrack p.operationId tag p) := ⟨rfl, rfl, .inl rfl, id⟩
    exact huntrack.trans (same_finishPending _ tag p completion)

theorem same_pollEffect (s : Session) : SameFraming s s.pollEffect.2 := by
  have hstep := pollStep s
  generalize s.pollEffect = r at hstep ⊢
  cases hstep with
  | exhausted => exact ⟨rfl, rfl, .inl rfl, fun h => by cases h⟩
  | queued | cancelled | handed | closed => exact ⟨rfl, rfl, .inl rfl, id⟩
  | idle => exact .refl s

theorem same_beginClose (s : Session) : SameFraming s (s.beginClose order) := by
  have hset : SameFraming s { s with
      terminalReason := some (s.terminalReason.getD .hostShutdown) } :=
    ⟨rfl, rfl, .inl rfl, fun h => by cases h⟩
  exact hset.trans (same_startCleanup _)

theorem aligned_new {limits : Limits} {context : SessionContext}
    (created : Session.new limits context = .ok s) : Aligned s := by
  simp only [Session.new, bind_eq_ok, mapErr_eq_ok, pure_eq_ok] at created
  obtain ⟨_, hvalid, rfl⟩ := created
  obtain ⟨hlow, hbuffered⟩ := validate_sizes hvalid
  exact {
    hard := rfl
    room := rfl
    headed := hlow
    within := Nat.le_refl _
    buffered := hbuffered
    tail := fun _ => incomplete_nil _ }

/-- Every reachable session retains the beginning of one frame. -/
theorem aligned_of_reachable (reachable : Reachable s) : Aligned s := by
  induction reachable with
  | new created => exact aligned_new created
  | @call s before order c ih =>
    cases c with
    | receiveBytes bytes => exact answerOf_snd _ ▸ ih.receiveBytes bytes
    | receiveFrame frame =>
      refine answerOf_snd _ ▸ ?_
      unfold receiveFrame whileActive
      split
      · exact ih
      · exact ih.receiveDecodedFrame order frame
    | complete completion =>
      have hindexed := (bookkeeping_of_reachable before).indexed
      exact completionAnswerOf_snd _ ▸ ih.of_same (same_complete hindexed completion)
    | pollEffect => exact ih.of_same (same_pollEffect s)
    | beginClose | transportClosed => exact ih.of_same (same_beginClose s)

/-! ## Serving a frame with bytes behind it -/

/-- The session with bytes retained, unless it is closing. -/
def Session.keeping (s : Session) (tail : Bytes) : Session :=
  if s.terminalReason.isSome then s else s.retaining tail

theorem keeping_of_active (active : s.terminalReason = none) (tail : Bytes) :
    s.keeping tail = s.retaining tail := by
  rw [Session.keeping, active]
  rfl

theorem keeping_of_closing (closing : s.terminalReason.isSome = true) (tail : Bytes) :
    s.keeping tail = s := if_pos closing

theorem retaining_nil (h : s.decoder.retained = []) : s.retaining [] = s := by
  rw [Session.retaining, FrameDecoder.retaining_retained h]

theorem keeping_nil (h : s.decoder.retained = []) : s.keeping [] = s := by
  rw [Session.keeping]
  split
  · rfl
  · exact retaining_nil h

theorem SameFraming.retained_nil (h : SameFraming s s') (hnil : s.decoder.retained = []) :
    s'.decoder.retained = [] := by
  rcases h.decoder with hd | hd
  · rw [hd]
    exact hnil
  · rw [hd]
    rfl

theorem dispatch_retained_nil (order : HashOrder) (request : Request) (hnil : s.decoder.retained = []) :
    (after (dispatch order request s)).decoder.retained = [] := by
  have hdispatched := dispatched (fun _ => True) order request s
  generalize dispatch order request s = r at hdispatched ⊢
  cases hdispatched with
  | closed _ _ reason => exact (same_failProtocol s reason).retained_nil hnil
  | @renegotiated msize version _ _ _ replied =>
    obtain ⟨cleanup, heq⟩ := renegotiate_eq order s msize version
    refine replied.input.same.retained_nil ?_
    rw [heq]
    rfl
  | handled _ handled => exact handled.input.same.retained_nil hnil

variable {request : Request}

/-- Only a request with the reserved tag that does not renegotiate closes the session. -/
theorem dispatch_active (order : HashOrder) (s : Session)
    (hopen : request.tag = notag → Renegotiates request) :
    (after (dispatch order request s)).terminalReason = s.terminalReason := by
  have hdispatched := dispatched (fun _ => True) order request s
  generalize dispatch order request s = r at hdispatched ⊢
  cases hdispatched with
  | closed tag plain => exact absurd (hopen tag) plain
  | renegotiated _ _ replied =>
    exact replied.input.reason.trans (s.renegotiate_terminalReason _ _)
  | handled _ handled => exact handled.input.reason

theorem dispatch_closes (order : HashOrder) (s : Session) (htag : request.tag = notag)
    (hplain : ¬ Renegotiates request) :
    ∃ reason, dispatch order request s = .ok () (s.failProtocol order reason) := by
  have hdispatched := dispatched (fun _ => True) order request s
  generalize dispatch order request s = r at hdispatched ⊢
  cases hdispatched with
  | closed _ _ reason => exact ⟨reason, rfl⟩
  | renegotiated renegotiates => exact absurd renegotiates hplain
  | handled tag => exact absurd htag tag

/-- A request that `dispatch` refuses leaves the session active. -/
theorem dispatch_error_active {e : Abort SessionError} (h : dispatch order request s = .error e s') :
    s'.terminalReason = s.terminalReason := by
  have hactive := @dispatch_active request order s
  rw [h] at hactive
  refine hactive fun htag => ?_
  by_contra hplain
  obtain ⟨reason, hclosed⟩ := dispatch_closes order s htag hplain
  rw [h] at hclosed
  cases hclosed

/-- **Serving a request does not depend on the bytes behind it**, unless it renegotiates. -/
theorem dispatch_keeping (order : HashOrder) (active : s.terminalReason = none)
    (hnil : s.decoder.retained = []) {tail : Bytes} (htail : Renegotiates request → tail = []) :
    dispatch order request (s.retaining tail) =
      onState (·.keeping tail) (dispatch order request s) := by
  by_cases htag : request.tag = notag
  · rw [dispatch_resets order htag s tail]
    by_cases hplain : Renegotiates request
    · have hretained := dispatch_retained_nil order request hnil
      rw [htail hplain]
      cases hr : dispatch order request s with
      | ok u s' =>
        rw [hr] at hretained
        exact congrArg _ (keeping_nil hretained).symm
      | error e s' =>
        rw [hr] at hretained
        exact congrArg _ (keeping_nil hretained).symm
    · obtain ⟨reason, hr⟩ := dispatch_closes order s htag hplain
      have hclosing : (s.failProtocol order reason).terminalReason.isSome = true := by
        unfold Session.failProtocol startCleanup
        split
        · rfl
        · rw [drainFidsToCleanup_eq]
          rfl
      rw [hr]
      exact congrArg _ (keeping_of_closing hclosing tail).symm
  · have hactive := dispatch_active order s fun h => absurd h htag
    rw [dispatch_retaining order htag s tail]
    cases hr : dispatch order request s with
    | ok u s' =>
      rw [hr] at hactive
      exact congrArg _ (keeping_of_active (hactive.trans active) tail).symm
    | error e s' =>
      rw [hr] at hactive
      exact congrArg _ (keeping_of_active (hactive.trans active) tail).symm

/-! ## Feeding chunks -/

/-- The frames of a list that reach `dispatch` in the loop of `receive_bytes`. -/
def dispatchedFrames (order : HashOrder) : List Bytes → Session → List Bytes
  | [], _ => []
  | frame :: frames, s =>
    match decodeRequest frame s.limits s.activeMsize with
    | .error _ => []
    | .ok request =>
      frame :: match dispatch order request s with
        | .error _ _ => []
        | .ok () s' => if s'.terminalReason.isNone then dispatchedFrames order frames s' else []

/-- `receive_bytes`, with the frames that reached `dispatch`. -/
def receiveLogged (order : HashOrder) (s : Session) (bytes : Bytes) : List Bytes × Session :=
  (if s.terminalReason.isSome then [] else
    match s.decoder.push bytes s.activeMsize with
    | (.error _, _) => []
    | (.ok frames, decoder) => dispatchedFrames order frames { s with decoder },
    after (receiveBytes order bytes s))

/-- The chunks of a stream, one `receive_bytes` each. -/
def feed (order : HashOrder) : Session → List Bytes → List Bytes × Session
  | s, [] => ([], s)
  | s, chunk :: chunks =>
    ((receiveLogged order s chunk).1 ++ (feed order (receiveLogged order s chunk).2 chunks).1,
      (feed order (receiveLogged order s chunk).2 chunks).2)

def answersTo (order : HashOrder) : Session → List Bytes → List Answer
  | _, [] => []
  | s, chunk :: chunks =>
    (call order s (.receiveBytes chunk)).1 ::
      answersTo order (call order s (.receiveBytes chunk)).2 chunks

/-- The session after one frame was served. -/
def Session.deliver (order : HashOrder) (s : Session) (frame : Bytes) : Session :=
  if s.terminalReason.isSome then s else after (receiveDecodedFrame order frame s)

/-- The frames of a stream served one after another, until the session closes. -/
def frameByFrame (order : HashOrder) : Session → List Bytes → List Bytes × Session
  | s, [] => ([], s)
  | s, frame :: frames =>
    if s.terminalReason.isSome then ([], s)
    else (frame :: (frameByFrame order (s.deliver order frame) frames).1,
      (frameByFrame order (s.deliver order frame) frames).2)

/-- The stream consists of well-formed frames and an incomplete tail, each under the message size that
is negotiated when its turn comes. -/
def WellFormed (order : HashOrder) : Session → List Bytes → Bytes → Prop
  | s, [], tail => Incomplete s.activeMsize tail
  | s, frame :: frames, tail =>
    (∃ request, decodeRequest frame s.limits s.activeMsize = .ok request) ∧
      WellFormed order (s.deliver order frame) frames tail

/-- Nothing follows a frame that renegotiates, and no frame follows one that is refused. -/
def Undivided (order : HashOrder) : Session → List Bytes → Bytes → Prop
  | _, [], _ => True
  | s, frame :: frames, tail =>
    s.terminalReason.isSome = true ∨
      ((∀ request, decodeRequest frame s.limits s.activeMsize = .ok request →
          Renegotiates request → frames = [] ∧ tail = []) ∧
        (∀ e s', receiveDecodedFrame order frame s = .error e s' → frames = []) ∧
        Undivided order (s.deliver order frame) frames tail)

variable {frames : List Bytes} {frame tail : Bytes} {request : Request}

theorem receiveDecodedFrame_of_decode
    (hdecode : decodeRequest frame s.limits s.activeMsize = .ok request) :
    receiveDecodedFrame order frame s = dispatch order request s := by
  unfold receiveDecodedFrame
  rw [hdecode]

theorem dispatchedFrames_of_decode
    (hdecode : decodeRequest frame s.limits s.activeMsize = .ok request) (frames : List Bytes) :
    dispatchedFrames order (frame :: frames) s =
      frame :: match dispatch order request s with
        | .error _ _ => []
        | .ok () s' => if s'.terminalReason.isNone then dispatchedFrames order frames s' else [] := by
  rw [dispatchedFrames, hdecode]

theorem deliver_of_active (active : s.terminalReason = none) (frame : Bytes) :
    s.deliver order frame = after (receiveDecodedFrame order frame s) := by
  rw [Session.deliver, active]
  rfl

section

variable (closing : s.terminalReason.isSome = true)

include closing

theorem deliver_of_closing (frame : Bytes) :
    s.deliver order frame = s := if_pos closing

theorem feed_of_closing (chunks : List Bytes) :
    feed order s chunks = ([], s) := by
  have hreceive : ∀ chunk, receiveLogged order s chunk = ([], s) := by
    intro chunk
    rw [receiveLogged, if_pos closing, receiveBytes_of_closing closing]
    rfl
  induction chunks with
  | nil => rfl
  | cons chunk chunks ih => rw [feed, hreceive, ih, List.append_nil]

theorem frameByFrame_of_closing (frames : List Bytes) :
    frameByFrame order s frames = ([], s) := by
  cases frames with
  | nil => rfl
  | cons frame frames => exact if_pos closing

theorem undivided_of_closing (frames : List Bytes) (tail : Bytes) :
    Undivided order s frames tail := by
  cases frames with
  | nil => trivial
  | cons frame frames => exact .inl closing

end

theorem frameByFrame_append (frames more : List Bytes) (s : Session) :
    frameByFrame order s (frames ++ more) =
      ((frameByFrame order s frames).1 ++
        (frameByFrame order (frameByFrame order s frames).2 more).1,
      (frameByFrame order (frameByFrame order s frames).2 more).2) := by
  induction frames generalizing s with
  | nil => rfl
  | cons frame frames ih =>
    rw [List.cons_append, frameByFrame, frameByFrame]
    split
    · rename_i hclosing
      rw [frameByFrame_of_closing hclosing]
      rfl
    · rw [ih]
      rfl

variable {more : List Bytes}

theorem wellFormed_append (h : WellFormed order s (frames ++ more) tail) :
    WellFormed order (frameByFrame order s frames).2 more tail := by
  induction frames generalizing s with
  | nil => exact h
  | cons frame frames ih =>
    rw [frameByFrame]
    split
    · rename_i hclosing
      have hrest := ih h.2
      rw [deliver_of_closing hclosing, frameByFrame_of_closing hclosing] at hrest
      exact hrest
    · exact ih h.2

theorem undivided_append (h : Undivided order s (frames ++ more) tail) :
    Undivided order (frameByFrame order s frames).2 more tail := by
  induction frames generalizing s with
  | nil => exact h
  | cons frame frames ih =>
    rw [frameByFrame]
    split
    · rename_i hclosing
      exact undivided_of_closing hclosing more tail
    · rename_i hactive
      rcases h with hclosing | ⟨-, -, hrest⟩
      · exact absurd hclosing hactive
      · exact ih hrest

theorem failDecode_closing (order : HashOrder) (s : Session) (error : DecodeError) :
    (s.failDecode order error).terminalReason ≠ none := by
  unfold Session.failDecode startCleanup
  split
  · simp
  · rw [drainFidsToCleanup_eq]
    simp

/-! ## Every cut gives what frame by frame gives -/

theorem dispatch_same (hplain : ¬ Renegotiates request) :
    SameFraming s (after (dispatch order request s)) := by
  have hdispatched := dispatched (fun _ => True) order request s
  generalize dispatch order request s = r at hdispatched ⊢
  cases hdispatched with
  | closed _ _ reason => exact same_failProtocol s reason
  | renegotiated renegotiates => exact absurd renegotiates hplain
  | handled _ handled => exact handled.input.same

/-- All frames and the tail are within the message size of the beginning. -/
theorem wholeFrames_of_undivided (hwell : WellFormed order s frames tail)
    (hundivided : Undivided order s frames tail) :
    (∀ frame ∈ frames, WholeFrame s.activeMsize frame) ∧ Incomplete s.activeMsize tail := by
  induction frames generalizing s with
  | nil => exact ⟨by simp, hwell⟩
  | cons frame frames ih =>
    obtain ⟨⟨request, hdecode⟩, hrest⟩ := hwell
    have hframe := wholeFrame_of_decode hdecode
    suffices hothers : (∀ frame ∈ frames, WholeFrame s.activeMsize frame) ∧
        Incomplete s.activeMsize tail by
      refine ⟨?_, hothers.2⟩
      intro f hf
      rcases List.mem_cons.1 hf with rfl | hf
      · exact hframe
      · exact hothers.1 f hf
    rcases hundivided with hclosing | ⟨hlast, -, hnext⟩
    · rw [deliver_of_closing hclosing] at hrest
      exact ih hrest (undivided_of_closing hclosing frames tail)
    · by_cases hrenegotiates : Renegotiates request
      · obtain ⟨rfl, rfl⟩ := hlast request hdecode hrenegotiates
        exact ⟨by simp, incomplete_nil _⟩
      · have hsame : (s.deliver order frame).activeMsize = s.activeMsize := by
          rw [Session.deliver]
          split
          · rfl
          · rw [receiveDecodedFrame_of_decode hdecode]
            exact (dispatch_same hrenegotiates).activeMsize
        rw [← hsame]
        exact ih hrest hnext

variable {kept : Bytes}

/-- The loop over the frames of a chunk, with `kept` retained behind them. -/
theorem receiveFrames_keeping (active : s.terminalReason = none) (hnil : s.decoder.retained = [])
    (hwell : WellFormed order s (frames ++ more) tail)
    (hundivided : Undivided order s (frames ++ more) tail)
    (hlast : more = [] → tail = [] → kept = []) :
    dispatchedFrames order frames (s.retaining kept) = (frameByFrame order s frames).1 ∧
    after (receiveFrames order frames (s.retaining kept)) =
      (frameByFrame order s frames).2.keeping kept := by
  induction frames generalizing s with
  | nil => exact ⟨rfl, (keeping_of_active active kept).symm⟩
  | cons frame frames ih =>
    obtain ⟨⟨request, hdecode⟩, hrest⟩ := hwell
    have hactive : ¬ s.terminalReason.isSome = true := by rw [active]; simp
    rcases hundivided with hclosing | ⟨hversion, hrefused, hnext⟩
    · exact absurd hclosing hactive
    have htail : Renegotiates request → kept = [] := by
      intro h
      obtain ⟨hnone, htail⟩ := hversion request hdecode h
      exact hlast (List.append_eq_nil_iff.1 hnone).2 htail
    have hdecode' : decodeRequest frame (s.retaining kept).limits (s.retaining kept).activeMsize =
        .ok request := hdecode
    have hdispatch := dispatch_keeping order active hnil htail
    have hretained := dispatch_retained_nil order request hnil
    rw [deliver_of_active active, receiveDecodedFrame_of_decode hdecode] at hrest hnext
    rw [receiveFrames_cons, receiveDecodedFrame_of_decode hdecode',
      dispatchedFrames_of_decode hdecode', frameByFrame, if_neg hactive, deliver_of_active active,
      receiveDecodedFrame_of_decode hdecode, hdispatch]
    cases hr : dispatch order request s with
    | error e s' =>
      have hnone := hrefused e s' (by rw [receiveDecodedFrame_of_decode hdecode, hr])
      obtain ⟨rfl, -⟩ := List.append_eq_nil_iff.1 hnone
      exact ⟨rfl, rfl⟩
    | ok u s' =>
      rw [hr] at hretained hrest hnext
      simp only [onState]
      by_cases hclosing : s'.terminalReason.isSome = true
      · have hkept : (s'.keeping kept).terminalReason.isNone = false := by
          rw [keeping_of_closing hclosing, ← Option.not_isSome, hclosing]
          rfl
        simp only [hkept, Bool.false_eq_true, if_false, after, frameByFrame_of_closing hclosing,
          and_self]
      · have hnone := Option.not_isSome_iff_eq_none.1 hclosing
        have hkept : (s'.keeping kept).terminalReason.isNone = true := by
          rw [keeping_of_active hnone, retaining_terminalReason, hnone]
          rfl
        obtain ⟨hlog, hstate⟩ := ih hnone hretained hrest hnext
        simp only [hkept, if_true]
        rw [keeping_of_active hnone, hlog, hstate]
        exact ⟨rfl, rfl⟩

/-- Where a chunk ends: within one frame, or within the tail. -/
theorem split_stream {input more : Bytes} (h : input ++ more = frames.flatten ++ tail) :
    ∃ done left kept, frames = done ++ left ∧ input = done.flatten ++ kept ∧
      kept ++ more = left.flatten ++ tail ∧ (left = [] → kept ++ more = tail) ∧
      ∀ frame others, left = frame :: others → ∃ missing, missing ≠ [] ∧ frame = kept ++ missing := by
  induction frames generalizing input with
  | nil => exact ⟨[], [], input, rfl, rfl, h, fun _ => h, by simp⟩
  | cons frame frames ih =>
    rw [List.flatten_cons, List.append_assoc] at h
    by_cases hshort : input.length < frame.length
    · -- the chunk ends within this frame
      obtain ⟨missing, hframe⟩ : ∃ missing, frame = input ++ missing := by
        rcases List.append_eq_append_iff.1 h with ⟨missing, hf, -⟩ | ⟨beyond, hi, -⟩
        · exact ⟨missing, hf⟩
        · rw [hi, List.length_append] at hshort
          omega
      refine ⟨[], frame :: frames, input, rfl, rfl, ?_, by simp, ?_⟩
      · rw [List.flatten_cons, List.append_assoc, h]
      · rintro f others heq
        cases heq
        refine ⟨missing, ?_, hframe⟩
        rintro rfl
        rw [hframe, List.append_nil] at hshort
        omega
    · obtain ⟨rest, rfl, hrest⟩ : ∃ rest, input = frame ++ rest ∧
          rest ++ more = frames.flatten ++ tail := by
        rcases List.append_eq_append_iff.1 h with ⟨missing, hf, hm⟩ | ⟨beyond, hi, hm⟩
        · have hempty : missing = [] := by
            rw [hf, List.length_append] at hshort
            exact List.eq_nil_of_length_eq_zero (by omega)
          rw [hempty, List.append_nil] at hf
          rw [hempty, List.nil_append] at hm
          exact ⟨[], by rw [List.append_nil, hf], hm⟩
        · exact ⟨beyond, hi, hm.symm⟩
      obtain ⟨done, left, kept, hframes, hinput, hleft, htail, hnext⟩ := ih hrest
      refine ⟨frame :: done, left, kept, by rw [hframes]; rfl, ?_, hleft, htail, hnext⟩
      rw [hinput, List.flatten_cons, List.append_assoc]

variable {chunk : Bytes}

/-- The decoder cuts a chunk that completes `done` and leaves `kept`. -/
theorem Aligned.push_chunk (h : Aligned s) (active : s.terminalReason = none) {done : List Bytes}
    (hchunk : s.decoder.retained ++ chunk = done.flatten ++ kept)
    (hdone : ∀ frame ∈ done, WholeFrame s.activeMsize frame) (hkept : Incomplete s.activeMsize kept) :
    s.decoder.push chunk s.activeMsize = (.ok done, s.decoder.retaining kept) := by
  have hheaded := h.headed
  have hwithin := h.within
  have hbuffered := h.buffered
  have hroom := h.room
  refine FrameDecoder.push_frames (by omega) (by rw [h.maximum]; omega) ?_ (h.retained active)
  rw [h.maximum]
  exact ⟨hchunk, hdone, hkept⟩

/-- A chunk that completes `done` and leaves `kept`. -/
theorem receiveLogged_chunk (h : Aligned s) (active : s.terminalReason = none) {done : List Bytes}
    (hchunk : s.decoder.retained ++ chunk = done.flatten ++ kept)
    (hdone : ∀ frame ∈ done, WholeFrame s.activeMsize frame) (hkept : Incomplete s.activeMsize kept) :
    receiveLogged order s chunk = (dispatchedFrames order done (s.retaining kept),
      after (receiveFrames order done (s.retaining kept))) := by
  have hpush := h.push_chunk active hchunk hdone hkept
  have hactive : ¬ s.terminalReason.isSome = true := by rw [active]; simp
  rw [receiveLogged, if_neg hactive, hpush, receiveBytes_of_frames active hpush]
  rfl

theorem frameByFrame_retained_nil (order : HashOrder) (frames : List Bytes) (hnil : s.decoder.retained = []) :
    (frameByFrame order s frames).2.decoder.retained = [] := by
  induction frames generalizing s with
  | nil => exact hnil
  | cons frame frames ih =>
    rw [frameByFrame]
    split
    · exact hnil
    · rename_i hactive
      refine ih ?_
      rw [deliver_of_active (Option.not_isSome_iff_eq_none.1 hactive)]
      unfold receiveDecodedFrame
      split
      · exact (same_failDecode s _).retained_nil hnil
      · exact dispatch_retained_nil order _ hnil

theorem Aligned.frameByFrame (h : Aligned s) (order : HashOrder) (frames : List Bytes) :
    Aligned (frameByFrame order s frames).2 := by
  induction frames generalizing s with
  | nil => exact h
  | cons frame frames ih =>
    rw [W9pt.Connection.frameByFrame]
    split
    · exact h
    · rename_i hactive
      refine ih ?_
      rw [deliver_of_active (Option.not_isSome_iff_eq_none.1 hactive)]
      exact h.receiveDecodedFrame order frame

/-- **An undivided stream is served alike however it is cut.** -/
theorem feed_eq_frameByFrame (chunks : List Bytes) (h : Aligned s)
    (active : s.terminalReason = none)
    (hstream : s.decoder.retained ++ chunks.flatten = frames.flatten ++ tail)
    (hwell : WellFormed order (s.retaining []) frames tail)
    (hundivided : Undivided order (s.retaining []) frames tail) :
    feed order s chunks = ((frameByFrame order (s.retaining []) frames).1,
      (frameByFrame order (s.retaining []) frames).2.keeping tail) := by
  induction chunks generalizing s frames with
  | nil =>
    rw [List.flatten_nil, List.append_nil] at hstream
    obtain ⟨hwhole, -⟩ := wholeFrames_of_undivided hwell hundivided
    cases frames with
    | nil =>
      rw [List.flatten_nil, List.nil_append] at hstream
      have hkeep : (s.retaining []).keeping tail = s := by
        rw [keeping_of_active (s := s.retaining []) active, ← hstream]
        rfl
      rw [frameByFrame, hkeep]
      rfl
    | cons frame frames =>
      -- the retained bytes hold no whole frame
      have hincomplete := h.tail active
      rw [hstream, List.flatten_cons, List.append_assoc] at hincomplete
      exact absurd hincomplete (hwhole frame List.mem_cons_self).not_incomplete
  | cons chunk chunks ih =>
    rw [List.flatten_cons, ← List.append_assoc] at hstream
    obtain ⟨done, left, kept, rfl, hchunk, hleft, htail, hnext⟩ := split_stream hstream
    obtain ⟨hwhole, hincomplete⟩ := wholeFrames_of_undivided hwell hundivided
    have hkept : Incomplete s.activeMsize kept := by
      cases left with
      | nil =>
        rw [← htail rfl] at hincomplete
        exact hincomplete.take
      | cons frame others =>
        obtain ⟨missing, hmissing, rfl⟩ := hnext frame others rfl
        exact (hwhole _ (List.mem_append_right _ List.mem_cons_self)).incomplete hmissing
    have hlast : left = [] → tail = [] → kept = [] := by
      intro hnone hempty
      have hprefix := htail hnone
      rw [hempty] at hprefix
      exact (List.append_eq_nil_iff.1 hprefix).1
    obtain ⟨hlog, hstate⟩ := receiveFrames_keeping (s := s.retaining []) active rfl hwell hundivided
      hlast
    rw [feed, receiveLogged_chunk h active hchunk
      (fun f hf => hwhole f (List.mem_append_left _ hf)) hkept]
    rw [show s.retaining kept = (s.retaining []).retaining kept from rfl, hlog, hstate,
      frameByFrame_append]
    have hrest := wellFormed_append hwell
    have hundivided' := undivided_append hundivided
    have hnil := frameByFrame_retained_nil order (s := s.retaining []) done rfl
    have haligned := (h.retaining fun _ => incomplete_nil _).frameByFrame order done
    generalize frameByFrame order (s.retaining []) done = r at *
    by_cases hclosing : r.2.terminalReason.isSome = true
    · rw [keeping_of_closing hclosing, feed_of_closing hclosing, frameByFrame_of_closing hclosing,
        keeping_of_closing hclosing]
    · have hnone := Option.not_isSome_iff_eq_none.1 hclosing
      rw [keeping_of_active hnone]
      have hreset : (r.2.retaining kept).retaining [] = r.2 := retaining_nil hnil
      have hkeptAligned : Aligned (r.2.retaining kept) := by
        refine haligned.retaining fun _ => ?_
        cases left with
        | nil =>
          have hfinal : Incomplete r.2.activeMsize tail := hrest
          rw [← htail rfl] at hfinal
          exact hfinal.take
        | cons frame others =>
          obtain ⟨missing, hmissing, rfl⟩ := hnext frame others rfl
          obtain ⟨⟨request, hdecode⟩, -⟩ := hrest
          exact (wholeFrame_of_decode hdecode).incomplete hmissing
      rw [ih hkeptAligned hnone hleft (by rw [hreset]; exact hrest) (by rw [hreset]; exact hundivided'),
        hreset]

/-! ## A divided stream is not -/

/-- A string that is its own continuation one byte later repeats that byte. -/
theorem constant_of_shift {x : UInt8} {rest more : Bytes} (h : x :: (frame ++ rest) = frame ++ more) :
    ∀ y ∈ frame, y = x := by
  induction frame generalizing x with
  | nil => simp
  | cons b frame ih =>
    rw [List.cons_append, List.cons_append, List.cons.injEq] at h
    obtain ⟨rfl, h⟩ := h
    intro y hy
    rcases List.mem_cons.1 hy with rfl | hy
    · rfl
    · exact ih h y hy

/-- A first chunk that completes one frame, when what follows it does not matter to it. -/
theorem feed_first (h : Aligned s) (active : s.terminalReason = none)
    (hchunk : s.decoder.retained ++ chunk = frame ++ kept)
    (hdecode : decodeRequest frame s.limits s.activeMsize = .ok request)
    (hkept : Incomplete s.activeMsize kept)
    (hreset : dispatch order request (s.retaining kept) = dispatch order request (s.retaining []))
    (chunks : List Bytes) :
    feed order s (chunk :: chunks) =
      (frame :: (feed order ((s.retaining []).deliver order frame) chunks).1,
        (feed order ((s.retaining []).deliver order frame) chunks).2) := by
  have hwhole := wholeFrame_of_decode hdecode
  have hflat : s.decoder.retained ++ chunk = [frame].flatten ++ kept := by
    rw [hchunk, List.flatten_singleton]
  have hdecode' : decodeRequest frame (s.retaining kept).limits (s.retaining kept).activeMsize =
      .ok request := hdecode
  have hdecode₀ : decodeRequest frame (s.retaining []).limits (s.retaining []).activeMsize =
      .ok request := hdecode
  have hlog : dispatchedFrames order [frame] (s.retaining kept) = [frame] := by
    rw [dispatchedFrames_of_decode hdecode', hreset]
    cases dispatch order request (s.retaining []) with
    | error e s' => rfl
    | ok u s' =>
      simp only [dispatchedFrames]
      split <;> rfl
  have hstate : after (receiveFrames order [frame] (s.retaining kept)) =
      (s.retaining []).deliver order frame := by
    rw [receiveFrames_cons, receiveDecodedFrame_of_decode hdecode', hreset,
      deliver_of_active (s := s.retaining []) active, receiveDecodedFrame_of_decode hdecode₀]
    cases dispatch order request (s.retaining []) with
    | error e s' => rfl
    | ok u s' =>
      simp only
      split <;> rfl
  rw [feed, receiveLogged_chunk h active hflat
    (fun f hf => by rw [List.mem_singleton.1 hf]; exact hwhole) hkept, hlog, hstate]
  rfl

/-- A chunk that ends with the frame it completes needs no such agreement. -/
theorem feed_frame (order : HashOrder) (h : Aligned s) (active : s.terminalReason = none)
    (hchunk : s.decoder.retained ++ chunk = frame)
    (hdecode : decodeRequest frame s.limits s.activeMsize = .ok request) (chunks : List Bytes) :
    feed order s (chunk :: chunks) =
      (frame :: (feed order ((s.retaining []).deliver order frame) chunks).1,
        (feed order ((s.retaining []).deliver order frame) chunks).2) :=
  feed_first h active (by rw [hchunk, List.append_nil]) hdecode (incomplete_nil _) rfl chunks

/-- One more chunk after an empty tail: its first dispatched frame is where it begins. -/
theorem feed_head {log : List Bytes} (hnil : s.decoder.retained = [])
    (h : (feed order s [chunk]).1 = frame :: log) : ∃ others, chunk = frame ++ others := by
  rw [feed, feed, List.append_nil, receiveLogged] at h
  simp only at h
  split at h
  · cases h
  · split at h
    · cases h
    · rename_i whole decoder hpush
      have hchunk := FrameDecoder.push_conserves hnil hpush
      cases whole with
      | nil => cases h
      | cons first others =>
        rw [dispatchedFrames] at h
        split at h
        · cases h
        · rw [List.cons.injEq] at h
          rw [← h.1, hchunk, List.flatten_cons, List.append_assoc]
          exact ⟨_, rfl⟩

/-- One more chunk after an empty tail that reaches no request is retained, or closes the session. -/
theorem feed_quiet (active : s.terminalReason = none)
    (hnil : s.decoder.retained = []) (hlog : (feed order s [chunk]).1 = [])
    (hopen : (feed order s [chunk]).2.terminalReason = none) :
    (feed order s [chunk]).2.decoder.retained = chunk := by
  have hactive : ¬ s.terminalReason.isSome = true := by rw [active]; simp
  rw [feed, feed, List.append_nil, receiveLogged] at hlog
  rw [feed, feed, receiveLogged] at hopen ⊢
  simp only [if_neg hactive] at hlog hopen ⊢
  rcases hpush : s.decoder.push chunk s.activeMsize with ⟨result, decoder⟩
  rw [hpush] at hlog
  cases result with
  | error e =>
    rw [receiveBytes_of_error active hpush] at hopen
    exact absurd hopen (failDecode_closing order { s with decoder } e)
  | ok whole =>
    have hchunk := FrameDecoder.push_conserves hnil hpush
    rw [receiveBytes_of_frames active hpush] at hopen ⊢
    cases whole with
    | nil => exact hchunk.symm
    | cons first others =>
      simp only [dispatchedFrames] at hlog
      rw [receiveFrames_cons] at hopen
      split at hlog
      · rename_i e hdecode
        unfold receiveDecodedFrame at hopen
        rw [hdecode] at hopen
        exact absurd hopen (failDecode_closing order { s with decoder } e)
      · cases hlog

/-- A single chunk whose first frame is refused reaches no other one. -/
theorem feed_refused (h : Aligned s) (active : s.terminalReason = none) {rest : Bytes}
    (hchunk : s.decoder.retained ++ chunk = frame ++ rest)
    (hdecode : decodeRequest frame s.limits s.activeMsize = .ok request) {e : Abort SessionError}
    (hrefused : dispatch order request (s.retaining []) = .error e s') :
    (feed order s [chunk]).1 = [] ∨ (feed order s [chunk]).1 = [frame] := by
  have hactive : ¬ s.terminalReason.isSome = true := by rw [active]; simp
  rw [feed, feed, List.append_nil, receiveLogged, if_neg hactive]
  simp only
  rcases hpush : s.decoder.push chunk s.activeMsize with ⟨result, decoder⟩
  obtain ⟨kept, hkept, -⟩ := h.push active hpush
  cases result with
  | error e => exact .inl rfl
  | ok whole =>
    have hcut := (FrameDecoder.push_cut (h.retained active) hpush).1
    rw [hchunk, h.maximum] at hcut
    obtain ⟨others, rfl⟩ := hcut.head (wholeFrame_of_decode hdecode)
    have hdecode' : decodeRequest frame (s.retaining kept).limits (s.retaining kept).activeMsize =
        .ok request := hdecode
    have herror : ∃ s'', dispatch order request (s.retaining kept) = .error e s'' := by
      by_cases htag : request.tag = notag
      · exact ⟨s', (dispatch_resets order htag (s.retaining []) kept).trans hrefused⟩
      · have hblind := dispatch_retaining order htag (s.retaining []) kept
        rw [hrefused] at hblind
        exact ⟨_, hblind⟩
    obtain ⟨s'', herror⟩ := herror
    right
    simp only
    rw [hkept, dispatchedFrames_of_decode hdecode', herror]

theorem deliver_retained_nil (order : HashOrder) (frame : Bytes) (hnil : s.decoder.retained = []) :
    (s.deliver order frame).decoder.retained = [] := by
  rw [Session.deliver]
  split
  · exact hnil
  · unfold receiveDecodedFrame
    split
    · exact (same_failDecode s _).retained_nil hnil
    · exact dispatch_retained_nil order _ hnil

theorem Aligned.deliver (h : Aligned s) (order : HashOrder) (frame : Bytes) :
    Aligned (s.deliver order frame) := by
  rw [Session.deliver]
  split
  · exact h
  · exact h.receiveDecodedFrame order frame

/-- Nothing follows a frame that renegotiates: the byte behind it could be lost. -/
theorem nothing_follows {v : Session} (hv : Aligned v) (hopen : v.terminalReason = none)
    (hnil : v.decoder.retained = []) (hwell : WellFormed order v frames tail)
    (hnext : ∀ c₁ c₂ : List Bytes, c₁.flatten = frames.flatten ++ tail →
      c₂.flatten = frames.flatten ++ tail → feed order v c₁ = feed order v c₂)
    (hlost : ∀ (x : UInt8) (rest : Bytes), frames.flatten ++ tail = x :: rest →
      feed order v [x :: rest] = feed order v [rest]) : frames = [] ∧ tail = [] := by
  cases hbytes : frames.flatten ++ tail with
  | nil =>
    rw [List.append_eq_nil_iff] at hbytes
    refine ⟨?_, hbytes.2⟩
    cases frames with
    | nil => rfl
    | cons frame frames =>
      obtain ⟨⟨request, hdecode⟩, -⟩ := hwell
      have hheaded := (wholeFrame_of_decode hdecode).headed
      rw [List.flatten_cons, List.append_eq_nil_iff] at hbytes
      rw [hbytes.1.1] at hheaded
      simp at hheaded
  | cons x rest =>
    exfalso
    have hsame := hlost x rest hbytes
    cases frames with
    | nil =>
      -- only a tail follows: it would be retained without its first byte
      have htail : tail = x :: rest := hbytes
      have hwhole : feed order v [x :: rest] = ([], v.retaining (x :: rest)) := by
        have hchunk : v.decoder.retained ++ (x :: rest) = ([] : List Bytes).flatten ++ (x :: rest) := by
          rw [hnil]
          rfl
        have hincomplete : Incomplete v.activeMsize (x :: rest) := htail ▸ hwell
        rw [feed, feed, receiveLogged_chunk hv hopen hchunk (by simp) hincomplete]
        rfl
      have hlog : (feed order v [rest]).1 = [] := by rw [← hsame, hwhole]
      have hretained := feed_quiet hopen hnil hlog (by rw [← hsame, hwhole]; exact hopen)
      rw [← hsame, hwhole] at hretained
      have hlength := congrArg List.length hretained
      simp [Session.retaining, FrameDecoder.retaining] at hlength
    | cons frame frames =>
      -- a frame follows: it would have to begin one byte later as well
      obtain ⟨⟨request, hdecode⟩, -⟩ := hwell
      rw [List.flatten_cons, List.append_assoc] at hbytes
      have hcut := hnext [x :: rest] (frame :: [frames.flatten ++ tail]) (by simp [← hbytes])
        (by simp)
      have hwhole : v.decoder.retained ++ frame = frame := by rw [hnil, List.nil_append]
      rw [hsame, feed_frame order hv hopen hwhole hdecode] at hcut
      have hlog := congrArg Prod.fst hcut
      obtain ⟨others, rfl⟩ := feed_head hnil hlog
      exact decodeRequest_not_constant hdecode (constant_of_shift hbytes.symm)

/-- **A stream that every cut serves alike is undivided.** -/
theorem undivided_of_cuts {stream : Bytes} (h : Aligned s) (active : s.terminalReason = none)
    (hstream : s.decoder.retained ++ stream = frames.flatten ++ tail)
    (hwell : WellFormed order (s.retaining []) frames tail)
    (hcuts : ∀ c₁ c₂ : List Bytes, c₁.flatten = stream → c₂.flatten = stream →
      feed order s c₁ = feed order s c₂) :
    Undivided order (s.retaining []) frames tail := by
  induction frames generalizing s stream with
  | nil => trivial
  | cons frame frames ih =>
    obtain ⟨⟨request, hdecode⟩, hrest⟩ := hwell
    have hdecode' : decodeRequest frame s.limits s.activeMsize = .ok request := hdecode
    rw [List.flatten_cons, List.append_assoc] at hstream
    obtain ⟨more, -, hframe, rfl⟩ :=
      (wholeFrame_of_decode hdecode').split (h.tail active) hstream
    have hfirst := feed_frame order h active hframe.symm hdecode'
    have hactive₀ : (s.retaining []).terminalReason = none := active
    have haligned := (h.retaining fun _ => incomplete_nil _).deliver order frame
    have hnil := deliver_retained_nil (s := s.retaining []) order frame rfl
    have hdeliver : (s.retaining []).deliver order frame =
        after (dispatch order request (s.retaining [])) := by
      rw [deliver_of_active hactive₀ frame, receiveDecodedFrame_of_decode hdecode]
    generalize hv : (s.retaining []).deliver order frame = v at *
    -- whatever follows the first frame is cut alike as well
    have hnext : ∀ c₁ c₂ : List Bytes, c₁.flatten = frames.flatten ++ tail →
        c₂.flatten = frames.flatten ++ tail → feed order v c₁ = feed order v c₂ := by
      intro c₁ c₂ h₁ h₂
      have hsame := hcuts (more :: c₁) (more :: c₂) (by rw [List.flatten_cons, h₁])
        (by rw [List.flatten_cons, h₂])
      rw [hfirst, hfirst, Prod.mk.injEq, List.cons.injEq] at hsame
      exact Prod.ext hsame.1.2 hsame.2
    refine .inr ⟨?_, ?_, ?_⟩
    · intro request' hrequest hrenegotiates
      rw [hdecode] at hrequest
      cases hrequest
      have hopen : v.terminalReason = none := by
        rw [hdeliver, dispatch_active order _ fun _ => hrenegotiates]
        exact active
      refine nothing_follows haligned hopen hnil hrest hnext ?_
      intro x rest hbytes
      have hreset : dispatch order request (s.retaining [x]) =
          dispatch order request (s.retaining []) :=
        dispatch_resets order hrenegotiates.1 (s.retaining []) [x]
      have hlost := feed_first h active (by rw [← List.append_assoc, hframe]) hdecode'
        (incomplete_singleton _ x) hreset [rest]
      have hsame := hcuts (more :: [x :: rest]) ((more ++ [x]) :: [rest]) (by simp [hbytes])
        (by simp [hbytes])
      rw [hfirst, hlost, hv, Prod.mk.injEq, List.cons.injEq] at hsame
      exact Prod.ext hsame.1.2 hsame.2
    · intro e s' hrefused
      rw [receiveDecodedFrame_of_decode hdecode] at hrefused
      have hopen : v.terminalReason = none := by
        rw [hdeliver, hrefused]
        exact (dispatch_error_active hrefused).trans active
      cases frames with
      | nil => rfl
      | cons second frames =>
        exfalso
        obtain ⟨⟨request₂, hdecode₂⟩, -⟩ := hrest
        have hchunk : s.decoder.retained ++ (more ++ ((second :: frames).flatten ++ tail)) =
            frame ++ ((second :: frames).flatten ++ tail) := by
          rw [← List.append_assoc, hframe]
        have hsame := congrArg Prod.fst (hcuts [more ++ ((second :: frames).flatten ++ tail)]
          (more :: second :: [frames.flatten ++ tail]) (by simp) (by simp))
        have hwhole : v.decoder.retained ++ second = second := by rw [hnil, List.nil_append]
        have hsecond := feed_frame order haligned hopen hwhole hdecode₂ [frames.flatten ++ tail]
        rw [hfirst, hsecond] at hsame
        rcases feed_refused h active hchunk hdecode' hrefused with hlog | hlog <;>
          (rw [hlog] at hsame; simp at hsame)
    · by_cases hclosing : v.terminalReason.isSome = true
      · rw [hv]
        exact undivided_of_closing hclosing frames tail
      · have hopen := Option.not_isSome_iff_eq_none.1 hclosing
        have hreset := retaining_nil hnil
        have hundivided := ih haligned hopen (by rw [hnil, List.nil_append])
          (by rw [hreset]; exact hrest) hnext
        rw [hreset] at hundivided
        rw [hv]
        exact hundivided

/-- **When the cuts of a stream do not matter.** For every reachable session and every stream of
well-formed frames with an incomplete tail, any two ways to cut the stream dispatch the same frames
and leave the same session if and only if nothing follows a frame that renegotiates and no frame
follows one that is refused. -/
theorem chunking_transparent_iff (order : HashOrder) (s : Session) (stream : Bytes)
    (frames : List Bytes) (tail : Bytes) (reachable : Reachable s)
    (hstream : s.decoder.retained ++ stream = frames.flatten ++ tail)
    (hwell : WellFormed order (s.retaining []) frames tail) :
    (∀ c₁ c₂ : List Bytes, c₁.flatten = stream → c₂.flatten = stream →
      feed order s c₁ = feed order s c₂) ↔ Undivided order (s.retaining []) frames tail := by
  have haligned := aligned_of_reachable reachable
  by_cases hclosing : s.terminalReason.isSome = true
  · constructor
    · intro _
      exact undivided_of_closing (s := s.retaining []) hclosing frames tail
    · intro _ c₁ c₂ _ _
      rw [feed_of_closing hclosing, feed_of_closing hclosing]
  · have active := Option.not_isSome_iff_eq_none.1 hclosing
    constructor
    · intro hcuts
      exact undivided_of_cuts haligned active hstream hwell hcuts
    · intro hundivided c₁ c₂ h₁ h₂
      rw [feed_eq_frameByFrame c₁ haligned active (by rw [h₁, hstream]) hwell hundivided,
        feed_eq_frameByFrame c₂ haligned active (by rw [h₂, hstream]) hwell hundivided]

def wideSession : Session := .initial { narrowLimits with maxQueuedEffects := 8 } ⟨⟨1⟩, none⟩

theorem wideSession_reachable : Reachable wideSession :=
  .new (show Session.new { narrowLimits with maxQueuedEffects := 8 } ⟨⟨1⟩, none⟩ = .ok wideSession
    from rfl)

theorem decodes_of_isOk {limits : Limits} {maximum : UInt32}
    (hok : (decodeRequest frame limits maximum).isOk = true) :
    ∃ request, decodeRequest frame limits maximum = .ok request := by
  cases hdecode : decodeRequest frame limits maximum with
  | ok request => exact ⟨request, rfl⟩
  | error e => rw [hdecode] at hok; cases hok

/-- A `Tattach` and the first bytes of the next frame. -/
theorem chunking_transparent_iff_attach :
    (∀ c₁ c₂ : List Bytes, c₁.flatten = attachFrame ++ [23, 0] → c₂.flatten = attachFrame ++ [23, 0] →
      feed .sorted wideSession c₁ = feed .sorted wideSession c₂) ↔
      Undivided .sorted (wideSession.retaining []) [attachFrame] [23, 0] :=
  chunking_transparent_iff .sorted wideSession _ [attachFrame] [23, 0] wideSession_reachable rfl
    ⟨decodes_of_isOk (by decide +kernel), .inl (by decide)⟩

/-- A `Tversion` and a `Tattach` that arrive together: when the first chunk ends one byte behind the
`Tversion`, that byte is lost and the `Tattach` is never served. No call meets a limit. -/
theorem versionFrame_swallows_next_byte :
    Reachable wideSession ∧
    WellFormed .sorted (wideSession.retaining []) [versionFrame, attachFrame] [] ∧
    [versionFrame ++ [23], attachFrame.tail].flatten = [versionFrame, attachFrame].flatten ∧
    (feed .sorted wideSession [versionFrame ++ [23], attachFrame.tail]).1 = [versionFrame] ∧
    (feed .sorted wideSession [versionFrame, attachFrame]).1 = [versionFrame, attachFrame] ∧
    (answersTo .sorted wideSession [versionFrame ++ [23], attachFrame.tail]).any Answer.limited =
      false ∧
    (answersTo .sorted wideSession [versionFrame, attachFrame]).any Answer.limited = false :=
  ⟨wideSession_reachable,
    ⟨decodes_of_isOk (by decide +kernel), decodes_of_isOk (by decide +kernel), .inl (by decide)⟩,
    by decide, by decide +kernel, by decide +kernel, by decide +kernel, by decide +kernel⟩

end W9pt.Connection

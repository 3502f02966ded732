import W9pt.Session.Chunking

/-!
# What a chunk leaves behind a refused frame

`receive_bytes` takes all whole frames of a chunk out of the decoder before it serves the first one
(`session/mod.rs:176-189`). When a frame runs into a limit the loop returns, and the frames behind it
are gone with the iterator: neither draining the effects nor submitting the refused frame again brings
them back (`resumes_iff`). So the later frames of a chunk are kept exactly if there are none, that is
if only the last frame of a chunk is ever refused (`later_frames_kept_iff`).
-/

namespace W9pt.Connection

open Lib Protocol Session

variable {order : HashOrder} {s s' : Session} {frame : Bytes} {frames later : List Bytes}

/-! ## The host goes on -/

/-- The calls with which the host drains a session: they carry no input. -/
def Call.Drains : Call → Prop
  | .pollEffect | .complete _ => True
  | _ => False

/-- What the host does after a refusal, before it feeds more of the stream. -/
structure Pause where
  drained : List Call
  drains : ∀ c ∈ drained, c.Drains
  resubmits : Bool

/-- The session after the pause; the refused frame is submitted again if the host does so. -/
def Pause.after (order : HashOrder) (pause : Pause) (frame : Bytes) (s : Session) : Session :=
  if pause.resubmits then (call order (s.run order pause.drained) (.receiveFrame frame)).2
  else s.run order pause.drained

/-- However the host goes on, a further call that succeeds dispatches the frames that were left behind
and then its own. -/
def Resumes (order : HashOrder) (s : Session) (frame : Bytes) (later : List Bytes) : Prop :=
  ∀ (pause : Pause) (more : List Bytes) (s' : Session),
    (∀ f ∈ more, WholeFrame (pause.after order frame s).activeMsize f) →
    call order (pause.after order frame s) (.receiveBytes more.flatten) = (.received (.ok ()), s') →
    s'.terminalReason = none →
    (receiveLogged order (pause.after order frame s) more.flatten).1 = later ++ more

/-- A chunk that is refused at `frame` does not lose the frames behind it. -/
def KeepsLater (order : HashOrder) (s : Session) (chunk : Bytes) (frames : List Bytes) : Prop :=
  ∀ before frame later, frames = before ++ frame :: later →
    (receiveLogged order s chunk).1 = before ++ [frame] →
    (call order s (.receiveBytes chunk)).1.limited = true →
    Resumes order (call order s (.receiveBytes chunk)).2 frame later

/-- Served one after another, no frame but the last one runs into a limit. -/
def OnlyLastRefused (order : HashOrder) : Session → List Bytes → Prop
  | _, [] => True
  | s, frame :: later =>
    (∀ e s', receiveDecodedFrame order frame s = .error (.error (.limit e)) s' → later = []) ∧
      ∀ s', receiveDecodedFrame order frame s = .ok () s' → s'.terminalReason = none →
        OnlyLastRefused order s' later

/-! ## Refused frames -/

theorem receiveDecodedFrame_limit_open {e : LimitExceeded} (active : s.terminalReason = none)
    (h : receiveDecodedFrame order frame s = .error (.error (.limit e)) s') :
    s'.terminalReason = none ∧ ∃ request, decodeRequest frame s.limits s.activeMsize = .ok request := by
  unfold receiveDecodedFrame at h
  split at h
  · cases h
  · rename_i request hdecode
    exact ⟨(dispatch_error_active h).trans active, request, hdecode⟩

theorem receiveDecodedFrame_ok {u : Unit} (h : receiveDecodedFrame order frame s = .ok u s') :
    ∃ request, decodeRequest frame s.limits s.activeMsize = .ok request := by
  unfold receiveDecodedFrame at h
  split at h
  · cases h
  · rename_i request hdecode
    exact ⟨request, hdecode⟩

/-- Where a chunk is refused: the loop stops there, the session stays open, and the frames behind the
refused one are the ones that matter. -/
theorem receiveFrames_limit {e : LimitExceeded} (active : s.terminalReason = none)
    (h : receiveFrames order frames s = .error (.error (.limit e)) s') :
    ∃ before frame later, frames = before ++ frame :: later ∧
      dispatchedFrames order frames s = before ++ [frame] ∧ s'.terminalReason = none ∧
      (OnlyLastRefused order s frames ↔ later = []) := by
  induction frames generalizing s with
  | nil => cases h
  | cons first rest ih =>
    rw [receiveFrames_cons] at h
    cases hfirst : receiveDecodedFrame order first s with
    | error error s₁ =>
      rw [hfirst] at h
      cases h
      obtain ⟨hopen, request, hdecode⟩ := receiveDecodedFrame_limit_open active hfirst
      refine ⟨[], first, rest, rfl, ?_, hopen, ?_⟩
      · rw [dispatchedFrames_of_decode hdecode, ← receiveDecodedFrame_of_decode hdecode, hfirst]
        rfl
      · constructor
        · intro hlast
          exact hlast.1 e s' hfirst
        · intro hnil
          refine ⟨fun _ _ _ => hnil, fun s₁ hok => ?_⟩
          rw [hfirst] at hok
          cases hok
    | ok u s₁ =>
      simp only [hfirst] at h
      split at h
      · rename_i hnone
        have hopen := Option.isNone_iff_eq_none.1 hnone
        obtain ⟨before, frame, later, rfl, hlog, hstate, hlast⟩ := ih hopen h
        obtain ⟨request, hdecode⟩ := receiveDecodedFrame_ok hfirst
        refine ⟨first :: before, frame, later, rfl, ?_, hstate, ?_⟩
        · rw [dispatchedFrames_of_decode hdecode, ← receiveDecodedFrame_of_decode hdecode, hfirst]
          simp only [hnone, if_true, hlog, List.cons_append]
        · rw [← hlast]
          constructor
          · intro honly
            exact honly.2 s₁ hfirst hopen
          · intro honly
            refine ⟨fun e s₂ herror => ?_, fun s₂ hok _ => ?_⟩
            · rw [hfirst] at herror
              cases herror
            · rw [hfirst] at hok
              cases hok
              exact honly
      · cases h

/-- A chunk that is not refused refuses no frame. -/
theorem onlyLastRefused_of_served (active : s.terminalReason = none)
    (h : ∀ e s', receiveFrames order frames s ≠ .error (.error (.limit e)) s') :
    OnlyLastRefused order s frames := by
  induction frames generalizing s with
  | nil => trivial
  | cons first rest ih =>
    refine ⟨fun e s' hrefused => ?_, fun s' hok hopen => ?_⟩
    · refine absurd ?_ (h e s')
      rw [receiveFrames_cons, hrefused]
    · refine ih hopen fun e s'' hrun => h e s'' ?_
      rw [receiveFrames_cons, hok]
      simp only [hopen, Option.isNone_none, if_true]
      exact hrun

/-- A loop that ends well with the session open has served every frame. -/
theorem dispatchedFrames_of_ok {u : Unit} (h : receiveFrames order frames s = .ok u s')
    (hopen : s'.terminalReason = none) : dispatchedFrames order frames s = frames := by
  induction frames generalizing s with
  | nil => rfl
  | cons first rest ih =>
    rw [receiveFrames_cons] at h
    cases hfirst : receiveDecodedFrame order first s with
    | error e s₁ =>
      rw [hfirst] at h
      cases h
    | ok u s₁ =>
      obtain ⟨request, hdecode⟩ := receiveDecodedFrame_ok hfirst
      rw [dispatchedFrames_of_decode hdecode, ← receiveDecodedFrame_of_decode hdecode, hfirst]
      simp only [hfirst] at h ⊢
      split at h
      · rename_i hnone
        rw [if_pos hnone, ih h]
      · rename_i hclosing
        cases h
        rw [hopen] at hclosing
        exact absurd rfl hclosing

/-! ## Resuming -/

theorem call_receiveFrame_snd (order : HashOrder) (s : Session) (frame : Bytes) :
    (call order s (.receiveFrame frame)).2 = s.deliver order frame := by
  show (answerOf (receiveFrame order frame s)).2 = _
  rw [answerOf_snd, receiveFrame, whileActive, Session.deliver]
  split <;> rfl

/-- Draining leaves the decoder empty. -/
theorem run_retained_nil (order : HashOrder) {calls : List Call} (reachable : Reachable s)
    (drains : ∀ c ∈ calls, c.Drains)
    (hnil : s.decoder.retained = []) : (s.run order calls).decoder.retained = [] := by
  induction calls generalizing s with
  | nil => exact hnil
  | cons c calls ih =>
    refine ih (reachable.call order c) (fun c' hc' => drains c' (by simp [hc'])) ?_
    have hdrains := drains c (by simp)
    cases c with
    | pollEffect => exact (same_pollEffect s).retained_nil hnil
    | complete completion =>
      have hindexed := (bookkeeping_of_reachable reachable).indexed
      show (completionAnswerOf (complete order completion s)).2.decoder.retained = []
      rw [completionAnswerOf_snd]
      exact (same_complete hindexed completion).retained_nil hnil
    | receiveBytes | receiveFrame | beginClose | transportClosed => exact hdrains.elim

theorem Pause.reachable (pause : Pause) (order : HashOrder) (frame : Bytes) (h : Reachable s) :
    Reachable (pause.after order frame s) := by
  unfold Pause.after
  split
  · exact (h.run order pause.drained).call order _
  · exact h.run order pause.drained

theorem Pause.retained_nil (pause : Pause) (order : HashOrder) (frame : Bytes) (h : Reachable s)
    (hnil : s.decoder.retained = []) : (pause.after order frame s).decoder.retained = [] := by
  have hdrained := run_retained_nil order h pause.drains hnil
  unfold Pause.after
  split
  · rw [call_receiveFrame_snd]
    exact deliver_retained_nil order frame hdrained
  · exact hdrained

/-- What a chunk of whole frames does to an open session with an empty decoder. -/
theorem receiveBytes_whole (order : HashOrder) (h : Aligned s) (active : s.terminalReason = none)
    {chunk : Bytes}
    (hchunk : s.decoder.retained ++ chunk = frames.flatten)
    (hwhole : ∀ f ∈ frames, WholeFrame s.activeMsize f) :
    (receiveLogged order s chunk).1 = dispatchedFrames order frames (s.retaining []) ∧
      receiveBytes order chunk s = receiveFrames order frames (s.retaining []) := by
  have hflat : s.decoder.retained ++ chunk = frames.flatten ++ [] := by rw [hchunk, List.append_nil]
  have hpush := h.push_chunk active hflat hwhole (incomplete_nil _)
  refine ⟨?_, receiveBytes_of_frames active hpush⟩
  rw [receiveLogged_chunk h active hflat hwhole (incomplete_nil _)]

theorem receiveFrames_retained_nil (order : HashOrder) (frames : List Bytes)
    (hnil : s.decoder.retained = []) :
    (after (receiveFrames order frames s)).decoder.retained = [] := by
  induction frames generalizing s with
  | nil => exact hnil
  | cons first rest ih =>
    have hfirst : (after (receiveDecodedFrame order first s)).decoder.retained = [] := by
      unfold receiveDecodedFrame
      split
      · exact (same_failDecode s _).retained_nil hnil
      · exact dispatch_retained_nil order _ hnil
    rw [receiveFrames_cons]
    cases hr : receiveDecodedFrame order first s with
    | error e s' =>
      rw [hr] at hfirst
      exact hfirst
    | ok u s' =>
      rw [hr] at hfirst
      simp only
      split
      · exact ih hfirst
      · exact hfirst

/-- The frames behind a refused one are served later exactly if there are none. -/
theorem resumes_iff (order : HashOrder) (frame : Bytes) (later : List Bytes)
    (reachable : Reachable s) (active : s.terminalReason = none)
    (hnil : s.decoder.retained = []) : Resumes order s frame later ↔ later = [] := by
  constructor
  · intro h
    -- the host goes on without draining and feeds nothing: nothing is dispatched any more
    have hchunk : s.decoder.retained ++ ([] : List Bytes).flatten = ([] : List Bytes).flatten := by
      rw [hnil, List.nil_append]
    obtain ⟨hlog, hbytes⟩ := receiveBytes_whole order (aligned_of_reachable reachable) active
      hchunk (by simp)
    have hcall : call order s (.receiveBytes ([] : List Bytes).flatten) =
        (.received (.ok ()), s.retaining []) := by
      show answerOf (receiveBytes order _ s) = _
      rw [hbytes]
      rfl
    have hresumed := h ⟨[], by simp, false⟩ [] (s.retaining []) (by simp) hcall active
    rw [List.append_nil] at hresumed
    exact hresumed.symm.trans hlog
  · rintro rfl pause more s' hwhole hcall hopen
    have hreach := pause.reachable order frame reachable
    have hretained := pause.retained_nil order frame reachable hnil
    generalize pause.after order frame s = s₁ at *
    have haligned := aligned_of_reachable hreach
    have hactive : s₁.terminalReason = none := by
      by_contra hclosing
      have hsome := Option.isSome_iff_ne_none.2 hclosing
      have herror : call order s₁ (.receiveBytes more.flatten) = (.received (.error .closing), s₁) := by
        show answerOf (receiveBytes order more.flatten s₁) = _
        rw [receiveBytes_of_closing hsome]
        rfl
      rw [herror] at hcall
      cases hcall
    have hchunk : s₁.decoder.retained ++ more.flatten = more.flatten := by
      rw [hretained, List.nil_append]
    obtain ⟨hlog, hbytes⟩ := receiveBytes_whole order haligned hactive hchunk hwhole
    have hframes : answerOf (receiveFrames order more (s₁.retaining [])) = (.received (.ok ()), s') :=
      hbytes ▸ hcall
    rw [hlog, List.nil_append]
    cases hr : receiveFrames order more (s₁.retaining []) with
    | ok u s₂ =>
      rw [hr] at hframes
      cases hframes
      exact dispatchedFrames_of_ok hr hopen
    | error e s₂ =>
      rw [hr] at hframes
      cases e <;> cases hframes

/-- **When a refused chunk keeps its later frames.** For every reachable session and every chunk of
well-formed frames, the frames behind one that runs into a limit are still dispatched once, however the
host goes on, if and only if no frame but the last of the chunk runs into a limit. -/
theorem later_frames_kept_iff (order : HashOrder) (s : Session) (chunk : Bytes) (frames : List Bytes)
    (reachable : Reachable s) (hchunk : s.decoder.retained ++ chunk = frames.flatten)
    (hwell : ∀ f ∈ frames, ∃ request, decodeRequest f s.limits s.activeMsize = .ok request) :
    KeepsLater order s chunk frames ↔
      s.terminalReason ≠ none ∨ OnlyLastRefused order (s.retaining []) frames := by
  have haligned := aligned_of_reachable reachable
  have hwhole : ∀ f ∈ frames, WholeFrame s.activeMsize f := fun f hf => by
    obtain ⟨request, hdecode⟩ := hwell f hf
    exact wholeFrame_of_decode hdecode
  by_cases hclosing : s.terminalReason.isSome = true
  · have hcall : call order s (.receiveBytes chunk) = (.received (.error .closing), s) := by
      show answerOf (receiveBytes order chunk s) = _
      rw [receiveBytes_of_closing hclosing]
      rfl
    refine iff_of_true (fun before frame later _ _ hlimited => ?_)
      (.inl (Option.isSome_iff_ne_none.1 hclosing))
    rw [hcall] at hlimited
    cases hlimited
  have active := Option.not_isSome_iff_eq_none.1 hclosing
  obtain ⟨hlog, hbytes⟩ := receiveBytes_whole order haligned active hchunk hwhole
  have hcall : call order s (.receiveBytes chunk) =
      answerOf (receiveFrames order frames (s.retaining [])) := by rw [← hbytes]; rfl
  by_cases hlimit : ∃ e s', receiveFrames order frames (s.retaining []) = .error (.error (.limit e)) s'
  · -- the loop stops at a frame: what is behind it decides both sides
    obtain ⟨e, s', hrun⟩ := hlimit
    obtain ⟨before, frame, later, rfl, hdispatched, hopen, hlast⟩ :=
      receiveFrames_limit (s := s.retaining []) active hrun
    have hstate : (call order s (.receiveBytes chunk)).2 = s' := by rw [hcall, hrun]; rfl
    have hreach : Reachable s' := hstate ▸ reachable.call order (.receiveBytes chunk)
    have hnil : s'.decoder.retained = [] := by
      have hretained := receiveFrames_retained_nil order (before ++ frame :: later)
        (s := s.retaining []) rfl
      rw [hrun] at hretained
      exact hretained
    have hresumes := resumes_iff order frame later hreach hopen hnil
    constructor
    · intro hkeeps
      have hlimited : (call order s (.receiveBytes chunk)).1.limited = true := by rw [hcall, hrun]; rfl
      have hresumed := hkeeps before frame later rfl (hlog.trans hdispatched) hlimited
      rw [hstate, hresumes] at hresumed
      exact .inr (hlast.2 hresumed)
    · rintro (hterminal | honly) before' frame' later' hframes hlogged -
      · exact absurd active hterminal
      · rw [hlog, hdispatched] at hlogged
        obtain ⟨rfl, hframe⟩ := List.append_inj' hlogged rfl
        obtain rfl := (List.cons.inj hframe).1
        have hlater : later = later' := (List.cons.inj (List.append_cancel_left hframes)).2
        rw [hstate, ← hlater, hresumes]
        exact hlast.1 honly
  · have hserved : ∀ e s', receiveFrames order frames (s.retaining []) ≠ .error (.error (.limit e)) s' :=
      fun e s' hrun => hlimit ⟨e, s', hrun⟩
    refine iff_of_true (fun before frame later _ _ hlimited => ?_)
      (.inr (onlyLastRefused_of_served (s := s.retaining []) active hserved))
    rw [hcall] at hlimited
    cases hr : receiveFrames order frames (s.retaining []) with
    | ok u s' =>
      rw [hr] at hlimited
      cases hlimited
    | error abort s' =>
      rw [hr] at hlimited
      cases abort with
      | panicked => cases hlimited
      | error e =>
        cases e with
        | limit e => exact absurd hr (hserved e s')
        | _ => cases hlimited

/-- Two requests before negotiation, with room for one reply: the second runs into the limit, and it is
the last of its chunk. -/
theorem later_frames_kept_iff_two :
    KeepsLater .sorted narrowSession [attachFrame, attachFrame].flatten [attachFrame, attachFrame] ↔
      narrowSession.terminalReason ≠ none ∨
        OnlyLastRefused .sorted (narrowSession.retaining []) [attachFrame, attachFrame] :=
  later_frames_kept_iff .sorted narrowSession _ [attachFrame, attachFrame] narrowSession_reachable rfl
    fun f hf => by
      have hframe : f = attachFrame := by simpa using hf
      rw [hframe]
      exact decodes_of_isOk (by decide +kernel)

/-- Of three frames in one chunk the second runs into the limit. The host polls, submits the second
again with success, and goes on: the third is never dispatched. -/
theorem narrowSession_loses_frame :
    Reachable narrowSession ∧
    (receiveLogged .sorted narrowSession [attachFrame, attachFrame, statfsFrame].flatten).1 =
      [attachFrame, attachFrame] ∧
    (call .sorted narrowSession
      (.receiveBytes [attachFrame, attachFrame, statfsFrame].flatten)).1.limited = true ∧
    ¬ KeepsLater .sorted narrowSession [attachFrame, attachFrame, statfsFrame].flatten
      [attachFrame, attachFrame, statfsFrame] := by
  have hlog : (receiveLogged .sorted narrowSession
      [attachFrame, attachFrame, statfsFrame].flatten).1 = [attachFrame, attachFrame] := by
    decide +kernel
  have hlimited : (call .sorted narrowSession
      (.receiveBytes [attachFrame, attachFrame, statfsFrame].flatten)).1.limited = true := by
    decide +kernel
  refine ⟨narrowSession_reachable, hlog, hlimited, fun hkeeps => ?_⟩
  have hresumes := hkeeps [attachFrame] attachFrame [statfsFrame] rfl hlog hlimited
  have hlater := hresumes ⟨[.pollEffect], by simp [Call.Drains], true⟩ [] _ (by simp)
    (Prod.ext (show _ = Answer.received (.ok ()) from ?_) rfl) ?_
  · have hnothing : (receiveLogged .sorted (Pause.after .sorted ⟨[.pollEffect], by simp [Call.Drains], true⟩
      attachFrame (call .sorted narrowSession
        (.receiveBytes [attachFrame, attachFrame, statfsFrame].flatten)).2)
        ([] : List Bytes).flatten).1 = [] := by decide +kernel
    rw [hnothing] at hlater
    cases hlater
  · rfl
  · decide +kernel

end W9pt.Connection

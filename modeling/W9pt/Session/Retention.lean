import W9pt.Session.Backpressure

/-!
# What a session retains

The limits count tags, fids and queued effects. What a renegotiation or the end of a session leaves
to be cleaned up is counted by none of them: `reset_for_version` (`mod.rs:1577-1599`) moves every
outstanding operation to `abandoned_operations` and every fid to `cleanup`, and `cleanup_effect`
(`mod.rs:267-305`) moves each cleanup request to `abandoned_operations`, where it stays until the host
completes it.

* `retention_bounded`: while a session renegotiates only when the host is done with the cleanup of the
  negotiation before, the limits bound everything it retains.
* `retention_grows`: otherwise nothing but the supply of operation identifiers does.
-/

namespace W9pt.Connection

open Lib Protocol Session

def Session.backlog (s : Session) : Nat := s.cleanup.length + s.abandonedOperations.size

/-- The entries of all collections of a session. -/
def Session.entries (s : Session) : Nat :=
  s.pendingByTag.size + s.flushes.size + s.fids.size + s.effects.length + s.cleanup.length +
    s.abandonedOperations.size

/-- The bound that the limits set. -/
def retainedEntries (limits : Limits) : Nat :=
  5 * limits.maxInFlightTags + 3 * limits.maxFids + limits.maxQueuedEffects

/-- The host is done with all cleanup. -/
def Session.Clean (s : Session) : Prop := s.cleanup = [] ∧ s.abandonedOperations = ∅

/-! ## What closing and renegotiating add -/

variable {order : HashOrder} {s s' : Session}

theorem length_releases_le (order : HashOrder) (s : Session) :
    (order.releases s).length ≤ s.fids.size := by
  have hentry : ∀ entries : List (Fid × FidState),
      (entries.flatMap fun entry => (cleanupOf entry.2).toList).length ≤ entries.length := by
    intro entries
    induction entries with
    | nil => exact Nat.le_refl _
    | cons entry entries ih =>
      have hone : (cleanupOf entry.2).toList.length ≤ 1 := by
        cases cleanupOf entry.2 <;> simp
      rw [List.flatMap_cons, List.length_append, List.length_cons]
      omega
  have hlength : (order.fids s.fids).length = s.fids.size := by
    rw [(order.fids_perm _).length_eq, Std.ExtTreeMap.length_toList]
  exact hlength ▸ hentry _

theorem length_pending (order : HashOrder) (s : Session) :
    (order.pending s.pendingByTag).length = s.pendingByTag.size := by
  rw [(order.pending_perm _).length_eq, Std.ExtTreeMap.length_toList]

theorem length_cancels_le (order : HashOrder) (s : Session) :
    (order.cancels s).length ≤ s.pendingByTag.size := by
  rw [← length_pending order s]
  exact List.length_filterMap_le _ _

theorem size_abandoned_le (order : HashOrder) (s : Session) :
    (order.abandoned s).size ≤ s.abandonedOperations.size + s.pendingByTag.size := by
  have hfold : ∀ (entries : List (Tag × PendingOperation))
      (abandoned : Std.ExtTreeMap OperationId ExpectedCompletion),
      (entries.foldl (fun abandoned entry =>
        abandoned.insert entry.2.operationId entry.2.expected) abandoned).size ≤
          abandoned.size + entries.length := by
    intro entries
    induction entries with
    | nil => intro abandoned; exact Nat.le_refl _
    | cons entry entries ih =>
      intro abandoned
      have hinsert := Std.ExtTreeMap.size_insert_le (t := abandoned) (k := entry.2.operationId)
        (v := entry.2.expected)
      have hrest := ih (abandoned.insert entry.2.operationId entry.2.expected)
      rw [List.foldl_cons, List.length_cons]
      omega
  have hpending := hfold (order.pending s.pendingByTag) s.abandonedOperations
  rw [length_pending] at hpending
  exact hpending

theorem renegotiate_backlog (order : HashOrder) (s : Session) (msize : UInt32) (version : Bytes) :
    (s.renegotiate order msize version).backlog ≤
      s.backlog + 2 * s.pendingByTag.size + s.fids.size := by
  have hreleases := length_releases_le order s
  have habandoned := size_abandoned_le order s
  have hcleanup := renegotiate_cleanup order s msize version
  obtain ⟨cleanup, heq⟩ := renegotiate_eq order s msize version
  have hmap : (s.renegotiate order msize version).abandonedOperations = order.abandoned s := by
    rw [heq]
  rw [Session.backlog, Session.backlog, hmap, hcleanup, List.length_append, List.length_append,
    List.length_map, length_pending]
  omega

/-! ## The invariant -/

/-- What is retained outside the counters is bounded by them. While the session is closing, every
outstanding operation may still leave a fid behind, and a cancellation until the cleanup has started. -/
structure Modest (s : Session) : Prop where
  active : s.terminalReason = none →
    s.backlog ≤ 2 * s.limits.maxInFlightTags + s.limits.maxFids
  closing : s.terminalReason.isSome = true →
    s.backlog + s.fids.size + s.pendingByTag.size +
      (if s.cleanupStarted then 0 else s.pendingByTag.size) ≤
        4 * s.limits.maxInFlightTags + 2 * s.limits.maxFids

theorem Bookkeeping.sizes (books : Bookkeeping s) :
    s.pendingByTag.size + s.flushes.size ≤ s.limits.maxInFlightTags ∧
      s.fids.size ≤ s.limits.maxFids ∧ s.effects.length ≤ s.limits.maxQueuedEffects := by
  have htags := books.bounded.tags
  have hfids := books.bounded.fids
  have heffects := books.bounded.effects
  rw [books.counted.tags] at htags
  rw [books.counted.fids] at hfids
  rw [books.counted.effects] at heffects
  exact ⟨htags, hfids, heffects⟩

theorem Modest.of_same (h : Modest s) (limits : s'.limits = s.limits)
    (backlog : s'.backlog ≤ s.backlog) (fids : s'.fids.size ≤ s.fids.size)
    (pending : s'.pendingByTag.size = s.pendingByTag.size)
    (started : s'.cleanupStarted = s.cleanupStarted)
    (reason : s'.terminalReason = s.terminalReason) : Modest s' := by
  constructor
  · intro hactive
    rw [limits]
    exact backlog.trans (h.active (reason ▸ hactive))
  · intro hclosing
    have hold := h.closing (reason ▸ hclosing)
    rw [limits, pending, started]
    omega

theorem Modest.of_active (h : Modest s) (active : s.terminalReason = none)
    (limits : s'.limits = s.limits) (backlog : s'.backlog ≤ s.backlog)
    (reason : s'.terminalReason = s.terminalReason) : Modest s' := by
  constructor
  · intro _
    rw [limits]
    exact backlog.trans (h.active active)
  · intro hclosing
    rw [reason, active] at hclosing
    cases hclosing

/-- Closing a session of either kind. -/
theorem Modest.unstarted (h : Modest s) (books : Bookkeeping s) (fresh : s.cleanupStarted = false) :
    s.backlog + s.fids.size + 2 * s.pendingByTag.size ≤
      4 * s.limits.maxInFlightTags + 2 * s.limits.maxFids := by
  obtain ⟨htags, hfids, -⟩ := books.sizes
  cases hreason : s.terminalReason with
  | none =>
    have hbacklog := h.active hreason
    omega
  | some reason =>
    have hclosing := h.closing (by rw [hreason]; rfl)
    rw [fresh] at hclosing
    simp only [Bool.false_eq_true, if_false] at hclosing
    omega

theorem Modest.close (h : Modest s) (books : Bookkeeping s) (order : HashOrder)
    (decoder : FrameDecoder) (reason : CloseReason) : Modest (s.close order decoder reason) := by
  cases hstarted : s.cleanupStarted with
  | true =>
    have hsame : s.close order decoder reason = { s with decoder, terminalReason := some reason } :=
      startCleanup_of_started hstarted
    rw [hsame]
    constructor
    · intro hactive
      cases hactive
    · intro _
      exact h.closing (books.closing hstarted)
  | false =>
    have hbefore := h.unstarted books hstarted
    have hreleases := length_releases_le order s
    have hcancels := length_cancels_le order s
    have hclosed : s.close order decoder reason = _ :=
      startCleanup_eq (s := { s with decoder, terminalReason := some reason }) hstarted
    rw [hclosed]
    constructor
    · intro hactive
      cases hactive
    · intro _
      have hpending : (s.pendingByTag.map fun _ (p : PendingOperation) => p.silence).size =
          s.pendingByTag.size := Std.ExtTreeMap.size_map
      have hcleanup : (s.cleanup ++ order.cancels s ++ order.releases s).length =
          s.cleanup.length + (order.cancels s).length + (order.releases s).length := by
        rw [List.length_append, List.length_append]
      have hcleanup' : (s.cleanup ++
          order.cancels { s with decoder, terminalReason := some reason } ++
          order.releases { s with decoder, terminalReason := some reason }).length =
            s.cleanup.length + (order.cancels s).length + (order.releases s).length := hcleanup
      simp only [Session.backlog, hpending, hcleanup', Std.ExtTreeMap.size_empty, if_true]
      simp only [Session.backlog] at hbefore
      omega

/-- **Every step of a session that renegotiates only when it is clean stays within the bounds.** -/
theorem Modest.move (h : Modest s) (books : Bookkeeping s) (step : Move Session.Clean s s') :
    Modest s' := by
  cases step with
  | decode | frame | burn | cancel | joinFlush | dropFlush =>
    exact h.of_same rfl (Nat.le_refl _) (Nat.le_refl _) rfl rfl rfl
  | joinPending _ active _ =>
    exact h.of_same rfl (Nat.le_refl _) (Nat.le_refl _) (FinMap.size_insert_of_getElem? active) rfl rfl
  | clone active => exact h.of_active active rfl (Nat.le_refl _) rfl
  | emit active _ decided reserved =>
    obtain ⟨fids, count, rfl⟩ := (decided.reserved reserved).frame
    exact h.of_active active rfl (Nat.le_refl _) rfl
  | close order decoder reason => exact h.close books order decoder reason
  | renegotiate order active renews msize version =>
    have hbacklog := renegotiate_backlog order s msize version
    have hreason : (s.renegotiate order msize version).terminalReason = s.terminalReason :=
      s.renegotiate_terminalReason msize version
    have hempty : s.backlog = 0 := by
      rw [Session.backlog, renews.1, renews.2]
      simp
    obtain ⟨htags, hfids, -⟩ := books.sizes
    obtain ⟨cleanup, heq⟩ := renegotiate_eq order s msize version
    have hlimits : (s.renegotiate order msize version).limits = s.limits := by rw [heq]
    constructor
    · intro _
      rw [hlimits]
      omega
    · intro hclosing
      rw [hreason, active] at hclosing
      cases hclosing

theorem Settled.size_fids_le {owned : Option Fid} (settled : Settled s owned s') :
    s'.fids.size ≤ s.fids.size + 1 := by
  cases settled with
  | nothing => omega
  | installed => exact Std.ExtTreeMap.size_insert_le
  | retired =>
    unfold Session.retireFid
    split
    · exact Std.ExtTreeMap.size_erase_le.trans (Nat.le_succ _)
    · omega

theorem Modest.settle (h : Modest s) (order : HashOrder) {tag : Tag}
    {p : PendingOperation} (completion : Completion) (active : s.pendingByTag[tag]? = some p) :
    Modest (s.settled order tag p completion) := by
  have hsettled := settled_settle (s := s.untrack p.operationId tag p) p.continuation completion
  have hsize := FinMap.size_erase_add_one active
  unfold Session.settled
  generalize ((s.untrack p.operationId tag p).settle p.continuation completion).2 = s₁ at hsettled ⊢
  have hfids := hsettled.size_fids_le
  obtain ⟨fids, count, rfl⟩ := hsettled.frame
  simp only
  split
  · rename_i hclosing
    have hbefore := h.closing hclosing
    rw [drainFidsToCleanup_eq]
    constructor
    · intro hactive
      rw [show (s.untrack p.operationId tag p).terminalReason = none from hactive] at hclosing
      cases hclosing
    · intro _
      have hreleases := length_releases_le order { s.untrack p.operationId tag p with
        fids, accounting := { (s.untrack p.operationId tag p).accounting with fids := count } }
      cases hstarted : s.cleanupStarted <;>
        simp only [Session.backlog, Session.untrack, List.length_append, Std.ExtTreeMap.size_empty,
          hstarted, if_true, Bool.false_eq_true, if_false] at hbefore hreleases hfids ⊢ <;>
        omega
  · rename_i hactive
    exact h.of_active (Option.not_isSome_iff_eq_none.1 hactive) rfl (Nat.le_refl _) rfl

theorem Modest.forget (h : Modest s) (id : OperationId) :
    Modest { s with abandonedOperations := s.abandonedOperations.erase id } := by
  refine h.of_same rfl ?_ (Nat.le_refl _) rfl rfl rfl
  exact Nat.add_le_add_left Std.ExtTreeMap.size_erase_le _

/-- Polling takes a cleanup action out of the queue, and may enter it as an operation. -/
theorem Modest.poll (h : Modest s) (books : Bookkeeping s) {r : Option Effect × Session}
    (step : PollStep s r) :
    Modest r.2 := by
  cases step with
  | queued | closed => exact h.of_same rfl (Nat.le_refl _) (Nat.le_refl _) rfl rfl rfl
  | @cancelled id kind cleanup _ head =>
    refine h.of_same rfl ?_ (Nat.le_refl _) rfl rfl rfl
    simp only [Session.backlog, head, List.length_cons]
    omega
  | @handed work cleanup id _ head _ =>
    refine h.of_same rfl ?_ (Nat.le_refl _) rfl rfl rfl
    have hinsert := Std.ExtTreeMap.size_insert_le (t := s.abandonedOperations) (k := id)
      (v := work.expected)
    simp only [Session.backlog, Session.handOut, Session.issue, head, List.length_cons]
    omega
  | @exhausted work cleanup _ head _ =>
    -- the session closes here without starting its cleanup
    have hbacklog : s.backlog = cleanup.length + 1 + s.abandonedOperations.size := by
      rw [Session.backlog, head, List.length_cons]
    constructor
    · intro hactive
      cases hactive
    · intro _
      cases hstarted : s.cleanupStarted with
      | true =>
        have hbefore := h.closing (books.closing hstarted)
        rw [hstarted] at hbefore
        simp only [Session.backlog, if_true] at hbefore hbacklog ⊢
        omega
      | false =>
        have hbefore := h.unstarted books hstarted
        simp only [Session.backlog, Bool.false_eq_true, if_false] at hbefore hbacklog ⊢
        omega
  | idle => exact h

theorem modest_new {limits : Limits} {context : SessionContext}
    (created : Session.new limits context = .ok s) : Modest s := by
  simp only [Session.new, bind_eq_ok, pure_eq_ok] at created
  obtain ⟨_, -, rfl⟩ := created
  have hempty : (Session.initial limits context).backlog = 0 := by
    simp [Session.backlog, Session.initial]
  constructor
  · intro _
    rw [hempty]
    exact Nat.zero_le _
  · intro hclosing
    cases hclosing

theorem survives_modest : Survives Session.Clean (Renews Session.Clean) fun _ s => Modest s where
  renews permits := permits
  new created := modest_new created
  move books invariant step := invariant.move books step
  settle order _ invariant active _ _ _ := invariant.settle order _ active
  forget _ invariant _ _ := invariant.forget _
  poll books invariant step _ := invariant.poll books step

/-- **The limits bound what a session retains**, in every run in which it renegotiates only when all
cleanup of the negotiation before was handed out and completed. -/
theorem retention_bounded (events : List Event) (s : Session)
    (trace : Trace (Renews Session.Clean) events s) : s.entries ≤ retainedEntries s.limits := by
  have hmodest := trace.invariant survives_modest
  obtain ⟨htags, hfids, heffects⟩ := (bookkeeping_of_reachable trace.reachable).sizes
  have hbacklog : s.backlog ≤ 4 * s.limits.maxInFlightTags + 2 * s.limits.maxFids := by
    cases hreason : s.terminalReason with
    | none =>
      have hactive := hmodest.active hreason
      omega
    | some reason =>
      have hclosing := hmodest.closing (by rw [hreason]; rfl)
      omega
  simp only [Session.backlog] at hbacklog
  simp only [Session.entries, retainedEntries]
  omega

/-! ## Growth -/

/-- A negotiated session that has nothing to do, and its abandoned operations. -/
def idleSession (abandoned : Std.ExtTreeMap OperationId ExpectedCompletion)
    (next : Option OperationId) (last : OperationId) : Session :=
  { narrowSession with
    negotiatedMsize := some 4096
    operationIds := next
    lastIssuedOperationId := last
    abandonedOperations := abandoned }

/-- A client attaches and negotiates anew before the host has answered; the host polls everything
and completes nothing. -/
def renegotiationRound : List Call :=
  [.receiveFrame attachFrame, .pollEffect, .receiveFrame versionFrame, .pollEffect, .pollEffect]

theorem renews_receiveFrame (frame : Bytes)
    (h : s.cleanup.isEmpty = true ∧ s.abandonedOperations.isEmpty = true) :
    Renews Session.Clean order s (.receiveFrame frame) :=
  fun _ => ⟨fun _ _ _ => ⟨List.isEmpty_iff.1 h.1, Std.ExtTreeMap.isEmpty_iff.1 h.2⟩, fun _ _ _ => trivial⟩

/-- The client negotiates anew while it is attached, and once more when the host has polled the cleanup
and completed the abandoned operation. -/
def cleanRun : List Call :=
  [.receiveFrame versionFrame, .pollEffect] ++ renegotiationRound ++
    [.complete attachedCompletion, .receiveFrame attachFrame, .pollEffect, .receiveFrame versionFrame]

theorem retention_bounded_cleanRun :
    (narrowSession.run .sorted cleanRun).entries ≤ retainedEntries narrowLimits ∧
    (narrowSession.run .sorted cleanRun).entries = 3 := by
  have hcreated : Session.new narrowLimits ⟨⟨1⟩, none⟩ = .ok narrowSession := rfl
  refine ⟨retention_bounded _ _ (Trace.of_new hcreated ?_), by rfl⟩
  exact ⟨renews_receiveFrame _ ⟨rfl, rfl⟩, trivial, renews_receiveFrame _ ⟨rfl, rfl⟩, trivial,
    renews_receiveFrame _ ⟨rfl, rfl⟩, trivial, trivial, trivial, renews_receiveFrame _ ⟨rfl, rfl⟩,
    trivial, renews_receiveFrame _ ⟨rfl, rfl⟩, trivial⟩

section
variable (abandoned : Std.ExtTreeMap OperationId ExpectedCompletion) (id last : OperationId)

/-- The operation that `attachFrame` leads to. -/
def attachWork : Work := .policy (.attach 1 none (.fromWire [] 0xffffffff) [] none)

def attachingSession : Session :=
  (((idleSession abandoned (some id) last).claim 1).emitted 1 id attachWork (.attach 1) 0).pop
    (attachWork.effect id) []

theorem idleSession_attach :
    (idleSession abandoned (some id) last).run .sorted [.receiveFrame attachFrame, .pollEffect] =
      attachingSession abandoned id last := by
  have hdecode : decodeRequest attachFrame (idleSession abandoned (some id) last).limits
      (idleSession abandoned (some id) last).activeMsize =
        .ok ⟨1, .attach 1 0xffffffff [] [] 0xffffffff⟩ := by
    show decodeRequest attachFrame narrowLimits 4096 = _
    rfl
  have hserves : (idleSession abandoned (some id) last).Serves
      ⟨1, .attach 1 0xffffffff [] [] 0xffffffff⟩ := by
    refine ⟨by decide, ⟨?_, ?_⟩, by simp [idleSession], by simp, by simp⟩
    · simp [idleSession, narrowSession, Session.initial]
    · simp [idleSession, narrowSession, Session.initial]
  have hplan : (idleSession abandoned (some id) last).plan
      (.attach 1 0xffffffff [] [] 0xffffffff) = .emit (.claim 1) attachWork (.attach 1) 0 := rfl
  have hperform : (Plan.emit (.claim 1) attachWork (.attach 1) 0).perform 1
      (idleSession abandoned (some id) last) = .ok ()
        (((idleSession abandoned (some id) last).claim 1).emitted 1 id attachWork (.attach 1) 0) :=
    rfl
  have hreceive : receiveFrame .sorted attachFrame (idleSession abandoned (some id) last) = .ok ()
      (((idleSession abandoned (some id) last).claim 1).emitted 1 id attachWork (.attach 1) 0) := by
    rw [receiveFrame_of_active .sorted rfl hdecode, dispatch_of_serves .sorted hserves, hplan, hperform]
  simp only [Session.run, List.foldl_cons, List.foldl_nil, call, hreceive, answerOf]
  rfl

def versionReplyFrame : Bytes :=
  [21, 0, 0, 0, 101, 255, 255, 0, 16, 0, 0, 8, 0, 57, 80, 50, 48, 48, 48, 46, 76]

/-- The session when `Rversion` is about to be queued. -/
def renewedSession : Session :=
  { idleSession (abandoned.insert id (.policy .attached)) (checkedAdd id 1) id with
    cleanup := [.cancel id .policy] }

theorem attachingSession_version :
    (attachingSession abandoned id last).run .sorted
      [.receiveFrame versionFrame, .pollEffect, .pollEffect] =
      idleSession (abandoned.insert id (.policy .attached)) (checkedAdd id 1) id := by
  have hdecode : decodeRequest versionFrame (attachingSession abandoned id last).limits
      (attachingSession abandoned id last).activeMsize = .ok ⟨notag, .version 4096 dialect⟩ := by
    show decodeRequest versionFrame narrowLimits 4096 = _
    rfl
  have hrenew : (attachingSession abandoned id last).renegotiate .sorted 4096 dialect =
      renewedSession abandoned id := rfl
  have hresponse : (attachingSession abandoned id last).versionReply 4096 dialect =
      narrowSession.versionReply 4096 dialect := rfl
  have hreply : queueResponse (narrowSession.versionReply 4096 dialect)
      (renewedSession abandoned id) =
        .ok () ((renewedSession abandoned id).pushFrame versionReplyFrame) := rfl
  have hreceive : receiveFrame .sorted versionFrame (attachingSession abandoned id last) =
      .ok () ((renewedSession abandoned id).pushFrame versionReplyFrame) := by
    rw [receiveFrame_of_active .sorted rfl hdecode, dispatch_version .sorted rfl rfl (by decide),
      hrenew, hresponse, hreply]
  simp only [Session.run, List.foldl_cons, List.foldl_nil, call, hreceive, answerOf]
  rfl

theorem idleSession_round :
    (idleSession abandoned (some id) last).run .sorted renegotiationRound =
      idleSession (abandoned.insert id (.policy .attached)) (checkedAdd id 1) id := by
  have hfirst := idleSession_attach abandoned id last
  have hsecond := attachingSession_version abandoned id last
  simp only [Session.run, List.foldl_cons, List.foldl_nil, renegotiationRound] at hfirst hsecond ⊢
  rw [hfirst, hsecond]

end

/-- After `n` rounds, `n` operations are abandoned, all under identifiers up to `n`. -/
theorem idleSession_rounds (n : Nat) (h : n + 1 < 2 ^ 64) : ∃ abandoned,
    (idleSession ∅ (some 1) 0).run .sorted (List.replicate n renegotiationRound).flatten =
      idleSession abandoned (some (UInt64.ofNat (n + 1))) (UInt64.ofNat n) ∧
    abandoned.size = n ∧ ∀ id ∈ abandoned, id.toNat ≤ n := by
  induction n with
  | zero => exact ⟨∅, rfl, by simp, by simp⟩
  | succ n ih =>
    obtain ⟨abandoned, hrun, hsize, hold⟩ := ih (by omega)
    have hvalue : (UInt64.ofNat (n + 1)).toNat = n + 1 := by
      rw [UInt64.toNat_ofNat']
      omega
    have hnew : UInt64.ofNat (n + 1) ∉ abandoned := by
      intro hmem
      have hle := hold _ hmem
      omega
    have hnext : checkedAdd (UInt64.ofNat (n + 1)) 1 = some (UInt64.ofNat (n + 1 + 1)) := by
      rw [checkedAdd_eq_some, UInt64.toNat_ofNat', hvalue]
      exact Nat.mod_eq_of_lt h
    refine ⟨abandoned.insert (UInt64.ofNat (n + 1)) (.policy .attached), ?_, ?_, ?_⟩
    · rw [List.replicate_succ', List.flatten_append, List.flatten_singleton, Session.run,
        List.foldl_append]
      show Session.run .sorted (Session.run .sorted _ _) renegotiationRound = _
      rw [hrun, idleSession_round, hnext]
    · rw [FinMap.size_insert_of_notMem hnew, hsize]
    · intro id hmem
      rcases Std.ExtTreeMap.mem_insert.1 hmem with heq | hmem
      · rw [Std.compare_eq_iff_eq] at heq
        rw [← heq, hvalue]
      · have hle := hold id hmem
        omega

theorem narrowSession_version :
    narrowSession.run .sorted [.receiveFrame versionFrame, .pollEffect] =
      idleSession ∅ (some 1) 0 := by
  have hdecode : decodeRequest versionFrame narrowSession.limits narrowSession.activeMsize =
      .ok ⟨notag, .version 4096 dialect⟩ := rfl
  have hrenew : narrowSession.renegotiate .sorted 4096 dialect = idleSession ∅ (some 1) 0 := rfl
  have hreply : queueResponse (narrowSession.versionReply 4096 dialect)
      (idleSession ∅ (some 1) 0) =
        .ok () ((idleSession ∅ (some 1) 0).pushFrame versionReplyFrame) := rfl
  have hreceive : receiveFrame .sorted versionFrame narrowSession =
      .ok () ((idleSession ∅ (some 1) 0).pushFrame versionReplyFrame) := by
    rw [receiveFrame_of_active .sorted rfl hdecode, dispatch_version .sorted rfl rfl (by decide),
      hrenew, hreply]
  simp only [Session.run, List.foldl_cons, List.foldl_nil, call, hreceive, answerOf]
  rfl

/-- Whatever the limits are thought to allow, short of the number of identifiers there are: some run
of a session with these limits ends in a state that retains more. -/
theorem retention_grows : ¬ ∃ bound : Limits → Nat, bound narrowLimits + 2 < 2 ^ 64 ∧
    ∀ s, Reachable s → s.entries ≤ bound s.limits := by
  rintro ⟨bound, hsmall, hbound⟩
  obtain ⟨abandoned, hrun, hsize, -⟩ := idleSession_rounds (bound narrowLimits + 1) (by omega)
  have hreachable : Reachable (idleSession abandoned
      (some (UInt64.ofNat (bound narrowLimits + 1 + 1)))
      (UInt64.ofNat (bound narrowLimits + 1))) := by
    rw [← hrun, ← narrowSession_version]
    exact (narrowSession_reachable.run .sorted _).run .sorted _
  have hentries : abandoned.size ≤ bound narrowLimits :=
    Nat.le_trans (Nat.le_add_left _ _) (hbound _ hreachable)
  omega

end W9pt.Connection

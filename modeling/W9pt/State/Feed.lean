import W9pt.State.History

/-!
# The change feed (`change.rs`, `testing/memory.rs:921-1026`)

Every published revision leaves one event with the keys it wrote. The authority keeps the last events
and answers polls from a cursor with whole events of one filesystem, bounded by a number of events and
of keys.

| here | there |
|---|---|
| `pollLoop`, `pollChanges` | the loop of `poll_changes_request` and the rest of it |
| `ChangeBatch.new` | `ChangeBatch::new` (`change.rs:191-245`) |
| `Announced` | what one event says of its revision |
| `FeedClient` | a client that polls, reads and drops what the events name |
| `Chronicle`, `Follows` | the invariants: the retained history, and what the client has of it |
| `feed_complete` | nothing missed, nothing twice, nothing stale |

A poll sees only the retained events, so the first invariant says which part of the whole history they
are: all of it but events up to the oldest cursor, below which polls are refused.
-/

namespace W9pt.State

open Lib

/-! ## Polls -/

/-- Bounded request for whole commits after a revision (change.rs:38). -/
structure ChangePoll where
  filesystemId : FilesystemId
  after : StateRevision
  maxEvents : UInt32
  maxKeys : UInt32

/-- `ChangePoll::new` and `validate`. -/
def ChangePoll.validate (request : ChangePoll) (limits : StateLimits) :
    Except InvalidChangeRequest Unit := do
  ensure (request.maxEvents ≠ 0) .zeroEvents
  ensure (request.maxKeys ≠ 0) .zeroKeys
  mapErr .limit (requireAtMost .changeHistory request.maxEvents.toNat limits.maxChangeHistoryCommits)
  mapErr .limit (requireAtMost .changeKeys request.maxKeys.toNat limits.maxChangeKeys)

/-- Page of complete events (change.rs:185). -/
structure ChangeBatch where
  events : List ChangeEvent
  next : StateRevision
  currentRevision : StateRevision

/-- One iteration of the loop of `ChangeBatch::new`: the keys and the revision so
far. -/
def checkBatchEvent (request : ChangePoll) (current : StateRevision) (limits : StateLimits)
    (seen : Nat × StateRevision) (event : ChangeEvent) :
    Except InvalidChangeRequest (Nat × StateRevision) := do
  ensure (event.filesystemId = request.filesystemId) .eventOutsideFilesystem
  let total := seen.1 + event.keys.length
  event.keys.forM fun key => mapErr .limit (key.validateAgainstLimits limits)
  mapErr .limit (requireAtMost .changeKeys total request.maxKeys.toNat)
  ensure (seen.2.get < event.revision.get ∧ event.revision.get ≤ current.get)
    (.unorderedRevision seen.2 event.revision)
  return (total, event.revision)

/-- change.rs:193. -/
def ChangeBatch.new (events : List ChangeEvent) (request : ChangePoll) (next current : StateRevision)
    (limits : StateLimits) : Except InvalidChangeRequest ChangeBatch := do
  request.validate limits
  mapErr .limit (requireAtMost .changeHistory events.length request.maxEvents.toNat)
  let (_, previous) ← events.foldlM (checkBatchEvent request current limits) (0, request.after)
  ensure (previous.get ≤ next.get ∧ next.get ≤ current.get) (.invalidNextCursor previous next current)
  return ⟨events, next, current⟩

/-- Semantic outcome of polling (change.rs:265). -/
inductive ChangePollOutcome where
  | changes (batch : ChangeBatch)
  | revisionUnavailable (requested current : StateRevision)
  | revisionCompacted (oldestAvailable currentRevision : StateRevision)
  | pollBoundTooSmall (revision : StateRevision) (requiredKeys : UInt32)
  | malformedRequest (error : InvalidChangeRequest)

/-- The variables of the loop (`poll_changes_request`). -/
structure Collected where
  events : List ChangeEvent := []
  keyCount : Nat := 0
  next : StateRevision
  stoppedEarly : Bool := false

/-- The loop of `poll_changes_request`; an error is an event that does not fit
into an empty page. -/
def pollLoop (request : ChangePoll) : List ChangeEvent → Collected → Except ChangeEvent Collected
  | [], c => .ok c
  | event :: rest, c =>
    if event.filesystemId ≠ request.filesystemId then
      pollLoop request rest { c with next := event.revision }
    else if c.events.length = request.maxEvents.toNat then .ok { c with stoppedEarly := true }
    else if request.maxKeys.toNat < c.keyCount + event.keys.length then
      if c.events = [] then .error event else .ok { c with stoppedEarly := true }
    else pollLoop request rest { c with
      events := c.events ++ [event]
      keyCount := c.keyCount + event.keys.length
      next := event.revision }

/-- `poll_changes_request` (memory.rs:921). -/
def pollChanges (contract : Contract) (s : AuthorityState) (request : ChangePoll) :
    Except MemoryStateStoreError ChangePollOutcome :=
  match request.validate contract.limits with
  | .error error => .ok (.malformedRequest error)
  | .ok () =>
    if s.revision.get < request.after.get then
      .ok (.revisionUnavailable request.after s.revision)
    else if request.after.get < s.oldestChangeCursor.get then
      .ok (.revisionCompacted s.oldestChangeCursor s.revision)
    else
      let pending := s.changes.filter fun event => decide (request.after.get < event.revision.get)
      match pollLoop request pending { next := request.after } with
      | .error event => .ok (.pollBoundTooSmall event.revision
          (UInt32.ofNat (min event.keys.length (2 ^ 32 - 1))))
      | .ok collected =>
        let next := if collected.stoppedEarly then collected.next else s.revision
        match ChangeBatch.new collected.events request next s.revision contract.limits with
        | .error _ => .error ⟨.pollChanges, .corruption⟩
        | .ok batch => .ok (.changes batch)

/-! ## The event of a revision -/

/-- What one event says of the revision it announces. -/
structure Announced (limits : StateLimits) (step : AuthorityStep) (event : ChangeEvent) : Prop where
  next : step.before.revision.checkedNext = .ok event.revision
  revision : step.after.revision = event.revision
  complete : ∀ key : RecordKey, step.after.records[key]? ≠ step.before.records[key]? →
    key ∈ event.keys
  wellFormed : event.WellFormed limits
  retained : (step.after.changes, step.after.oldestChangeCursor) = compactChanges
    limits.maxChangeHistoryCommits (step.before.changes ++ [event]) step.before.oldestChangeCursor

/-- The event that a call published, read off the retained history. -/
def AuthorityStep.event (step : AuthorityStep) : Option ChangeEvent :=
  if step.after.revision = step.before.revision then none else step.after.changes.getLast?

section Compaction

variable {maximum : Nat} {events : List ChangeEvent} {oldest : StateRevision}

/-- Compaction drops a front part, and the cursor becomes the revision of the last event dropped. -/
theorem compactChanges_spec (maximum : Nat) (events : List ChangeEvent) (oldest : StateRevision) :
    ∃ dropped, events = dropped ++ (compactChanges maximum events oldest).1 ∧
      ((dropped = [] ∧ (compactChanges maximum events oldest).2 = oldest) ∨
        ∃ front last, dropped = front ++ [last] ∧
          (compactChanges maximum events oldest).2 = last.revision) := by
  induction events generalizing oldest with
  | nil => exact ⟨[], rfl, .inl ⟨rfl, rfl⟩⟩
  | cons event rest ih =>
    unfold compactChanges
    split
    · obtain ⟨dropped, hdropped, hcursor⟩ := ih event.revision
      refine ⟨event :: dropped, by rw [List.cons_append, ← hdropped], .inr ?_⟩
      rcases hcursor with ⟨rfl, hcursor⟩ | ⟨front, last, rfl, hcursor⟩
      · exact ⟨[], event, rfl, hcursor⟩
      · exact ⟨event :: front, last, rfl, hcursor⟩
    · exact ⟨[], rfl, .inl ⟨rfl, rfl⟩⟩

theorem compactChanges_getLast (hmaximum : 0 < maximum) (events : List ChangeEvent)
    (oldest : StateRevision) :
    (compactChanges maximum events oldest).1.getLast? = events.getLast? := by
  induction events generalizing oldest with
  | nil => rfl
  | cons event rest ih =>
    unfold compactChanges
    split
    · rename_i hlong
      rw [ih]
      cases rest with
      | nil => simp at hlong; omega
      | cons next rest => rw [List.getLast?_cons_cons]
    · rfl

theorem StateLimits.changeHistory_pos (limits : StateLimits) : 0 < limits.maxChangeHistoryCommits :=
  limits.valid.1 _ (by simp)

end Compaction

/-- In order of first use, and nothing else. -/
theorem mem_changedKeys {request : CommitRequest} {key : RecordKey} :
    key ∈ changedKeys request ↔
      key ∈ request.changes.flatMap (·.affectedKeys request.filesystemId) := by
  suffices hgen : ∀ (keys seen : List RecordKey),
      key ∈ keys.foldl (fun seen key => if key ∈ seen then seen else seen ++ [key]) seen ↔
        key ∈ seen ∨ key ∈ keys by
    simpa [changedKeys] using hgen (request.changes.flatMap (·.affectedKeys request.filesystemId)) []
  intro keys
  induction keys with
  | nil => simp
  | cons first keys ih =>
    intro seen
    rw [List.foldl_cons, ih]
    by_cases hmem : first ∈ seen
    · rw [if_pos hmem, List.mem_cons]
      exact ⟨fun h => h.imp_right .inr, fun h => h.elim .inl fun h => h.elim
        (fun heq => .inl (heq ▸ hmem)) .inr⟩
    · rw [if_neg hmem, List.mem_append, List.mem_singleton, List.mem_cons, or_assoc]

/-- The keys a commit writes are those of its event. -/
theorem Staged.event_keys {contract : Contract} {s : AuthorityState} {request : CommitRequest}
    {staged : RecordMap} {event : ChangeEvent} (h : Staged contract s request staged event)
    {key : RecordKey} (hkey : key ∈ request.writtenKeys) : key ∈ event.keys := by
  rw [(ChangeEvent.new_eq_ok h.recorded).1, List.mem_append, List.mem_singleton, mem_changedKeys]
  exact (List.mem_cons.1 hkey).symm

/-- **One call** publishes nothing, or one revision with the event that announces it. -/
theorem announced_of_effect {contract : Contract} {step : AuthorityStep}
    (h : CallEffect contract step) :
    (step.event = none ∧ Unchanged step.before step.after) ∨
      ∃ event, step.event = some event ∧ Announced contract.limits step event := by
  -- whatever was appended last is the event
  have hevent : ∀ {event : ChangeEvent} {keys : List RecordKey},
      Advances contract.limits step.before step.after event keys → step.event = some event := by
    intro event keys hadvances
    have hnext := Counter.checkedNext_eq_ok.1 hadvances.next
    have hne : step.after.revision ≠ step.before.revision := by
      rw [hadvances.revision]
      intro heq
      rw [heq] at hnext
      omega
    have hlast := compactChanges_getLast (StateLimits.changeHistory_pos contract.limits)
      (step.before.changes ++ [event]) step.before.oldestChangeCursor
    have hchanges : step.after.changes = _ := congrArg Prod.fst hadvances.changes
    rw [AuthorityStep.event, if_neg hne, hchanges, hlast, List.getLast?_concat]
  cases h with
  | none unchanged => exact .inl ⟨by rw [AuthorityStep.event, if_pos unchanged.revision], unchanged⟩
  | lease event advances wellFormed leases =>
    refine .inr ⟨event, hevent advances, advances.next, advances.revision, fun key hne => ?_,
      wellFormed, advances.changes⟩
    by_contra hmem
    exact hne (advances.stamps.frame hmem)
  | commit request event commits published staged advances =>
    refine .inr ⟨event, hevent advances, advances.next, advances.revision, fun key hne => ?_,
      (ChangeEvent.new_eq_ok staged.recorded).2, advances.changes⟩
    by_contra hmem
    exact hne (advances.stamps.frame fun hkey => hmem (staged.event_keys hkey))

/-! ## The whole history -/

def history (contract : Contract) (s : AuthorityState) (calls : List Call) : List ChangeEvent :=
  (trace (authority contract) s calls).filterMap AuthorityStep.event

/-- The events so far, in order; what is not retained any more lies below the oldest cursor. -/
structure Chronicle (limits : StateLimits) (events : List ChangeEvent) (s : AuthorityState) : Prop where
  increasing : events.Pairwise fun a b => a.revision.get < b.revision.get
  published : ∀ e ∈ events, e.revision.get ≤ s.revision.get
  wellFormed : ∀ e ∈ events, e.WellFormed limits
  retained : ∃ dropped, events = dropped ++ s.changes ∧
    ∀ e ∈ dropped, e.revision.get ≤ s.oldestChangeCursor.get

namespace Chronicle

variable {contract : Contract} {limits : StateLimits} {events : List ChangeEvent}

theorem new (clock : LeaseDeadline) : Chronicle limits [] (.new clock) :=
  ⟨.nil, by simp, by simp, [], rfl, by simp⟩

theorem lt_of_next {a b : StateRevision} (h : a.checkedNext = .ok b) : a.get < b.get := by
  have := Counter.checkedNext_eq_ok.1 h
  exact UInt64.lt_iff_toNat_lt.2 (by omega)

/-- A published event is later than all before it, and compaction drops from the front. -/
theorem publish {step : AuthorityStep} {event : ChangeEvent}
    (h : Chronicle limits events step.before) (hannounced : Announced limits step event) :
    Chronicle limits (events ++ [event]) step.after := by
  have hlt := lt_of_next hannounced.next
  have hincreasing : (events ++ [event]).Pairwise fun a b => a.revision.get < b.revision.get := by
    refine List.pairwise_append.2 ⟨h.increasing, List.pairwise_singleton _ _, fun a ha b hb => ?_⟩
    rw [List.mem_singleton.1 hb]
    exact UInt64.lt_of_le_of_lt (h.published a ha) hlt
  refine ⟨hincreasing, fun e he => ?_, fun e he => ?_, ?_⟩
  · rw [hannounced.revision]
    rcases List.mem_append.1 he with he | he
    · exact UInt64.le_trans (h.published e he) (UInt64.le_of_lt hlt)
    · rw [List.mem_singleton.1 he]
      exact UInt64.le_refl _
  · rcases List.mem_append.1 he with he | he
    · exact h.wellFormed e he
    · rw [List.mem_singleton.1 he]
      exact hannounced.wellFormed
  · obtain ⟨dropped, hdropped, hbelow⟩ := h.retained
    obtain ⟨more, hmore, hcursor⟩ := compactChanges_spec limits.maxChangeHistoryCommits
      (step.before.changes ++ [event]) step.before.oldestChangeCursor
    rw [← hannounced.retained] at hmore hcursor
    have hall : events ++ [event] = dropped ++ more ++ step.after.changes := by
      rw [hdropped, List.append_assoc, hmore, List.append_assoc]
    refine ⟨dropped ++ more, hall, fun e he => ?_⟩
    rcases hcursor with ⟨rfl, hcursor⟩ | ⟨front, last, rfl, hcursor⟩
    · rw [show step.after.oldestChangeCursor = _ from hcursor]
      exact hbelow e (by simpa using he)
    · -- the new cursor is the last revision dropped, so the largest
      rw [show step.after.oldestChangeCursor = _ from hcursor]
      rw [hall, ← List.append_assoc, List.pairwise_append] at hincreasing
      rw [← List.append_assoc] at he
      rcases List.mem_append.1 he with he | he
      · exact UInt64.le_of_lt ((List.pairwise_append.1 hincreasing.1).2.2 e he last List.mem_cons_self)
      · rw [List.mem_singleton.1 he]
        exact UInt64.le_refl _

theorem step {step : AuthorityStep} (h : Chronicle contract.limits events step.before)
    (heffect : CallEffect contract step) :
    Chronicle contract.limits (events ++ step.event.toList) step.after := by
  rcases announced_of_effect heffect with ⟨hnone, hsame⟩ | ⟨event, hevent, hannounced⟩
  · rw [hnone, Option.toList_none, List.append_nil]
    exact ⟨h.increasing, fun e he => hsame.revision ▸ h.published e he, h.wellFormed,
      by rw [hsame.changes, hsame.oldestChangeCursor]; exact h.retained⟩
  · rw [hevent]
    exact h.publish hannounced

end Chronicle

theorem history_append (contract : Contract) (s : AuthorityState) (before after : List Call) :
    history contract s (before ++ after) = history contract s before ++
      history contract (finalState (authority contract) s before) after := by
  rw [history, trace_append, List.filterMap_append]
  rfl

theorem history_singleton (contract : Contract) (s : AuthorityState) (call : Call) :
    history contract s [call] =
      (AuthorityStep.event (stepOf (authority contract) s call)).toList := by
  show List.filterMap AuthorityStep.event [stepOf (authority contract) s call] = _
  rw [List.filterMap_cons]
  cases AuthorityStep.event (stepOf (authority contract) s call) <;> rfl

/-! ## What a poll returns -/

/-- The events of a filesystem after one revision and up to another. -/
def window (fs : FilesystemId) (low high : StateRevision) (events : List ChangeEvent) :
    List ChangeEvent :=
  events.filter fun e => decide (e.filesystemId = fs ∧ low.get < e.revision.get ∧
    e.revision.get ≤ high.get)

section Windows

variable {fs : FilesystemId} {low mid high : StateRevision} {events more : List ChangeEvent}
  {e : ChangeEvent}

theorem mem_window : e ∈ window fs low high events ↔ e ∈ events ∧ e.filesystemId = fs ∧
    low.get < e.revision.get ∧ e.revision.get ≤ high.get := by
  simp [window]

theorem window_append_events : window fs low high (events ++ more) =
    window fs low high events ++ window fs low high more := List.filter_append ..

theorem window_eq_nil (h : ∀ e ∈ events, ¬ (low.get < e.revision.get ∧ e.revision.get ≤ high.get)) :
    window fs low high events = [] := by
  refine List.filter_eq_nil_iff.2 fun e he => ?_
  simpa using fun _ hlow => by simpa using fun hhigh => h e he ⟨hlow, hhigh⟩

/-- Two adjoining windows of an ordered history. -/
theorem window_append (h : events.Pairwise fun a b => a.revision.get < b.revision.get)
    (hlow : low.get ≤ mid.get) (hhigh : mid.get ≤ high.get) :
    window fs low mid events ++ window fs mid high events = window fs low high events := by
  induction events with
  | nil => rfl
  | cons e rest ih =>
    obtain ⟨hlater, hrest⟩ := List.pairwise_cons.1 h
    by_cases hmid : e.revision.get ≤ mid.get
    · -- the first event is in the lower window or in none
      have hnot : ¬ mid.get < e.revision.get := UInt64.not_lt.2 hmid
      have hin : e.revision.get ≤ high.get := UInt64.le_trans hmid hhigh
      have hrest := ih hrest
      unfold window at hrest ⊢
      rw [List.filter_cons, List.filter_cons, List.filter_cons]
      simp only [hmid, hnot, hin, and_true, and_false, decide_false, Bool.false_eq_true, if_false]
      split
      · rw [List.cons_append, hrest]
      · exact hrest
    · have hgt : mid.get < e.revision.get := UInt64.not_le.1 hmid
      have hnone : window fs low mid (e :: rest) = [] := by
        refine window_eq_nil fun b hb hwin => ?_
        rcases List.mem_cons.1 hb with rfl | hb
        · exact hmid hwin.2
        · exact UInt64.not_le.2 (UInt64.lt_trans hgt (hlater b hb)) hwin.2
      rw [hnone, List.nil_append]
      refine List.filter_congr fun b hb => ?_
      have hbmid : mid.get < b.revision.get := by
        rcases List.mem_cons.1 hb with rfl | hb
        · exact hgt
        · exact UInt64.lt_trans hgt (hlater b hb)
      simp [hbmid, UInt64.lt_of_le_of_lt hlow hbmid]

end Windows

/-- What the loop has collected after the events `taken`: those of the filesystem, within the bounds,
and the revision of the last one looked at. -/
structure PollLoop (request : ChangePoll) (start : Collected) (taken : List ChangeEvent)
    (result : Collected) : Prop where
  events : result.events = start.events ++
    taken.filter fun e => decide (e.filesystemId = request.filesystemId)
  next : (taken = [] ∧ result.next = start.next) ∨
    ∃ front last, taken = front ++ [last] ∧ result.next = last.revision
  keys : result.keyCount = start.keyCount +
    ((taken.filter fun e => decide (e.filesystemId = request.filesystemId)).map (·.keys.length)).sum
  keysBound : start.keyCount ≤ request.maxKeys.toNat → result.keyCount ≤ request.maxKeys.toNat
  eventsBound : start.events.length ≤ request.maxEvents.toNat →
    result.events.length ≤ request.maxEvents.toNat
  nonempty : result.stoppedEarly = true → start.stoppedEarly = false → request.maxEvents ≠ 0 →
    result.events ≠ []

namespace PollLoop

variable {request : ChangePoll} {c c' : Collected} {event : ChangeEvent} {taken : List ChangeEvent}

theorem nil (c : Collected) : PollLoop request c [] c :=
  ⟨by simp, .inl ⟨rfl, rfl⟩, by simp, id, id, fun h h' => by rw [h'] at h; cases h⟩

theorem stop (hnonempty : request.maxEvents ≠ 0 → c.events ≠ []) :
    PollLoop request c [] { c with stoppedEarly := true } :=
  ⟨by simp, .inl ⟨rfl, rfl⟩, by simp, id, id, fun _ _ => hnonempty⟩

theorem next_cons (h : (taken = [] ∧ c'.next = event.revision) ∨
    ∃ front last, taken = front ++ [last] ∧ c'.next = last.revision) :
    (event :: taken = [] ∧ c'.next = c.next) ∨
      ∃ front last, event :: taken = front ++ [last] ∧ c'.next = last.revision := by
  rcases h with ⟨rfl, hnext⟩ | ⟨front, last, rfl, hnext⟩
  · exact .inr ⟨[], event, rfl, hnext⟩
  · exact .inr ⟨event :: front, last, rfl, hnext⟩

theorem foreign (hfs : event.filesystemId ≠ request.filesystemId)
    (h : PollLoop request { c with next := event.revision } taken c') :
    PollLoop request c (event :: taken) c' where
  events := by
    rw [h.events, List.filter_cons_of_neg (by simpa using hfs)]
  next := next_cons h.next
  keys := by rw [h.keys, List.filter_cons_of_neg (by simpa using hfs)]
  keysBound := h.keysBound
  eventsBound := h.eventsBound
  nonempty := h.nonempty

theorem take (hfs : event.filesystemId = request.filesystemId)
    (hevents : c.events.length ≠ request.maxEvents.toNat)
    (hkeys : ¬ request.maxKeys.toNat < c.keyCount + event.keys.length)
    (h : PollLoop request { c with
      events := c.events ++ [event]
      keyCount := c.keyCount + event.keys.length
      next := event.revision } taken c') : PollLoop request c (event :: taken) c' where
  events := by
    rw [h.events, List.filter_cons_of_pos (by simpa using hfs), List.append_assoc]
    rfl
  next := next_cons h.next
  keys := by
    rw [h.keys, List.filter_cons_of_pos (by simpa using hfs), List.map_cons, List.sum_cons,
      Nat.add_assoc]
  keysBound _ := h.keysBound (Nat.not_lt.1 hkeys)
  eventsBound hlength := h.eventsBound (by
    rw [List.length_append, List.length_singleton]
    omega)
  nonempty := h.nonempty

end PollLoop

/-- The loop takes a front part of the events, all of them unless it stopped early. -/
theorem pollLoop_spec {request : ChangePoll} {events : List ChangeEvent} {c c' : Collected}
    (h : pollLoop request events c = .ok c') (hrunning : c.stoppedEarly = false) :
    ∃ taken rest, events = taken ++ rest ∧ PollLoop request c taken c' ∧
      (c'.stoppedEarly = false → rest = []) := by
  induction events generalizing c with
  | nil =>
    cases h
    exact ⟨[], [], rfl, .nil _, fun _ => rfl⟩
  | cons event events ih =>
    unfold pollLoop at h
    split at h
    · rename_i hfs
      obtain ⟨taken, rest, rfl, hloop, hrest⟩ := ih h hrunning
      exact ⟨event :: taken, rest, rfl, hloop.foreign hfs, hrest⟩
    rename_i hfs
    split at h
    · rename_i hfull
      cases h
      refine ⟨[], event :: events, rfl, .stop fun hmax hempty => hmax ?_, fun hrest => nomatch hrest⟩
      rw [hempty, List.length_nil] at hfull
      exact UInt32.toNat_inj.1 hfull.symm
    rename_i hroom
    split at h
    · split at h
      · cases h
      · rename_i hne
        cases h
        exact ⟨[], event :: events, rfl, .stop fun _ => hne, fun hrest => nomatch hrest⟩
    · rename_i hkeys
      obtain ⟨taken, rest, rfl, hloop, hrest⟩ := ih h hrunning
      exact ⟨event :: taken, rest, rfl, hloop.take (not_not.1 hfs) hroom hkeys, hrest⟩

section Polls

variable {contract : Contract} {s : AuthorityState} {request : ChangePoll} {events : List ChangeEvent}

/-- The retained events after a cursor that is not compacted are all events after it. -/
theorem Chronicle.pending (h : Chronicle contract.limits events s) {after : StateRevision}
    (hafter : s.oldestChangeCursor.get ≤ after.get) :
    s.changes.filter (fun e => decide (after.get < e.revision.get)) =
      events.filter fun e => decide (after.get < e.revision.get) := by
  obtain ⟨dropped, hdropped, hbelow⟩ := h.retained
  have hnone : dropped.filter (fun e => decide (after.get < e.revision.get)) = [] := by
    refine List.filter_eq_nil_iff.2 fun e he => ?_
    simpa using UInt64.le_trans (hbelow e he) hafter
  rw [hdropped, List.filter_append, hnone, List.nil_append]

/-- What the loop and the cursor after it come to: the window up to the new cursor. -/
structure Page (request : ChangePoll) (current : StateRevision) (events : List ChangeEvent)
    (collected : Collected) (next : StateRevision) : Prop where
  events : collected.events = window request.filesystemId request.after next events
  after : request.after.get ≤ next.get
  published : next.get ≤ current.get
  progress : request.after.get < current.get → request.maxEvents ≠ 0 → request.after.get < next.get
  bounded : collected.events.length ≤ request.maxEvents.toNat
  keys : (collected.events.map (·.keys.length)).sum ≤ request.maxKeys.toNat

theorem page_of_pollLoop (h : Chronicle contract.limits events s) {collected : Collected}
    (hcursor : request.after.get ≤ s.revision.get)
    (hloop : pollLoop request (events.filter fun e => decide (request.after.get < e.revision.get))
      { next := request.after } = .ok collected) :
    Page request s.revision events collected
      (if collected.stoppedEarly then collected.next else s.revision) := by
  obtain ⟨taken, rest, hsplit, hspec, hrest⟩ := pollLoop_spec hloop rfl
  have hlater : ∀ e ∈ taken ++ rest, e ∈ events ∧ request.after.get < e.revision.get := by
    intro e he
    rw [← hsplit] at he
    simpa using List.mem_filter.1 he
  have hincreasing : (taken ++ rest).Pairwise fun a b => a.revision.get < b.revision.get :=
    hsplit ▸ h.increasing.sublist List.filter_sublist
  -- the new cursor separates what was taken from the rest
  have hseparates : ∀ next : StateRevision,
      (∀ e ∈ taken, e.revision.get ≤ next.get) → (∀ e ∈ rest, next.get < e.revision.get) →
      collected.events = window request.filesystemId request.after next events := by
    intro next htaken hrest
    have hwindow : window request.filesystemId request.after next events =
        (taken ++ rest).filter fun e => decide (e.filesystemId = request.filesystemId ∧
          e.revision.get ≤ next.get) := by
      rw [← hsplit, List.filter_filter]
      refine List.filter_congr fun e _ => ?_
      simp only [← Bool.decide_and]
      exact decide_eq_decide.2 ⟨fun ⟨hfs, hlow, hhigh⟩ => ⟨⟨hfs, hhigh⟩, hlow⟩,
        fun ⟨⟨hfs, hhigh⟩, hlow⟩ => ⟨hfs, hlow, hhigh⟩⟩
    rw [hwindow, List.filter_append, hspec.events]
    have hnone : rest.filter (fun e => decide (e.filesystemId = request.filesystemId ∧
        e.revision.get ≤ next.get)) = [] := by
      refine List.filter_eq_nil_iff.2 fun e he => ?_
      simpa using fun _ => hrest e he
    rw [hnone, List.append_nil, List.nil_append]
    refine List.filter_congr fun e he => ?_
    simp [htaken e he]
  have hbounded := hspec.eventsBound (Nat.zero_le _)
  have hkeys : (collected.events.map (·.keys.length)).sum ≤ request.maxKeys.toNat := by
    have hbound := hspec.keysBound (Nat.zero_le _)
    rw [hspec.keys] at hbound
    rw [hspec.events]
    simpa using hbound
  cases hstopped : collected.stoppedEarly with
  | false =>
    obtain rfl := hrest hstopped
    rw [if_neg (by simp)]
    refine ⟨hseparates s.revision (fun e he => ?_) (by simp), hcursor, UInt64.le_refl _,
      fun hlt _ => hlt, hbounded, hkeys⟩
    exact h.published e (hlater e (List.mem_append_left _ he)).1
  | true =>
    rw [if_pos rfl]
    rcases hspec.next with ⟨rfl, hnext⟩ | ⟨front, last, rfl, hnext⟩
    · rw [hnext]
      refine ⟨hseparates _ (by simp) fun e he => (hlater e (by simpa using he)).2, UInt64.le_refl _,
        hcursor, fun _ hmax => ?_, hbounded, hkeys⟩
      exact absurd (hspec.events) (hspec.nonempty hstopped rfl hmax)
    · rw [hnext]
      obtain ⟨hmem, hlt⟩ := hlater last (by simp)
      rw [List.append_assoc, List.pairwise_append] at hincreasing
      refine ⟨hseparates _ (fun e he => ?_) fun e he => ?_, UInt64.le_of_lt hlt,
        h.published last hmem, fun _ _ => hlt, hbounded, hkeys⟩
      · rcases List.mem_append.1 he with he | he
        · exact UInt64.le_of_lt (hincreasing.2.2 e he last List.mem_cons_self)
        · rw [List.mem_singleton.1 he]
          exact UInt64.le_refl _
      · exact (List.pairwise_cons.1 hincreasing.2.1).1 e he

/-- **A page** of changes is the window from the cursor to the next one. -/
theorem pollChanges_changes (h : Chronicle contract.limits events s) {batch : ChangeBatch}
    (hpoll : pollChanges contract s request = .ok (.changes batch)) :
    batch.events = window request.filesystemId request.after batch.next events ∧
    request.after.get ≤ batch.next.get ∧ batch.next.get ≤ s.revision.get := by
  unfold pollChanges at hpoll
  split at hpoll
  · cases hpoll
  split at hpoll
  · cases hpoll
  rename_i hcursor
  split at hpoll
  · cases hpoll
  rename_i holdest
  rw [h.pending (UInt64.not_lt.1 holdest)] at hpoll
  dsimp only at hpoll
  split at hpoll
  · cases hpoll
  rename_i collected hloop
  have hpage := page_of_pollLoop h (UInt64.not_lt.1 hcursor) hloop
  split at hpoll
  · cases hpoll
  · rename_i batch' hbatch
    cases hpoll
    simp only [ChangeBatch.new, bind_eq_ok, pure_eq_ok] at hbatch
    obtain ⟨_, -, _, -, _, -, _, -, rfl⟩ := hbatch
    exact ⟨hpage.events, hpage.after, hpage.published⟩

/-- A loop whose key bound fits every single event does not fail. -/
theorem pollLoop_ok (pending : List ChangeEvent)
    (hfits : ∀ e ∈ pending, e.keys.length ≤ request.maxKeys.toNat) (c : Collected)
    (hcount : c.events = [] → c.keyCount = 0) : ∃ c', pollLoop request pending c = .ok c' := by
  induction pending generalizing c with
  | nil => exact ⟨c, rfl⟩
  | cons event rest ih =>
    have hrest : ∀ e ∈ rest, e.keys.length ≤ request.maxKeys.toNat := fun e he =>
      hfits e (List.mem_cons_of_mem _ he)
    unfold pollLoop
    split
    · exact ih hrest _ hcount
    split
    · exact ⟨_, rfl⟩
    split
    · rename_i hkeys
      split
      · rename_i hempty
        have hevent := hfits event List.mem_cons_self
        rw [hcount hempty] at hkeys
        omega
      · exact ⟨_, rfl⟩
    · exact ih hrest _ (by simp)

/-- The checks of `ChangeBatch::new` on an ordered list of well-formed events. -/
theorem checkBatch_ok {current next : StateRevision} {limits : StateLimits} {page : List ChangeEvent}
    (hfs : ∀ e ∈ page, e.filesystemId = request.filesystemId)
    (hwell : ∀ e ∈ page, e.WellFormed limits)
    (hincreasing : page.Pairwise fun a b => a.revision.get < b.revision.get)
    (hnext : ∀ e ∈ page, e.revision.get ≤ next.get) (hcurrent : next.get ≤ current.get)
    (seen : Nat × StateRevision) (hseen : ∀ e ∈ page, seen.2.get < e.revision.get)
    (hseenNext : seen.2.get ≤ next.get)
    (hkeys : seen.1 + (page.map (·.keys.length)).sum ≤ request.maxKeys.toNat) :
    ∃ result, page.foldlM (checkBatchEvent request current limits) seen = .ok result ∧
      result.2.get ≤ next.get := by
  induction page generalizing seen with
  | nil => exact ⟨seen, rfl, hseenNext⟩
  | cons event rest ih =>
    obtain ⟨hlater, hrest⟩ := List.pairwise_cons.1 hincreasing
    rw [List.map_cons, List.sum_cons] at hkeys
    have hstep : checkBatchEvent request current limits seen event =
        .ok (seen.1 + event.keys.length, event.revision) := by
      have hvalid : event.keys.forM (fun key => mapErr InvalidChangeRequest.limit
          (key.validateAgainstLimits limits)) = .ok () :=
        forM_eq_ok.2 fun key hkey => mapErr_eq_ok.2 ((hwell event List.mem_cons_self).valid key hkey)
      simp only [checkBatchEvent, hvalid, ok_bind, requireAtMost, pure, Except.pure,
        ensure_of (hfs event List.mem_cons_self)]
      rw [ensure_of (show seen.1 + event.keys.length ≤ request.maxKeys.toNat by omega)]
      simp only [mapErr, ok_bind]
      rw [ensure_of ⟨hseen event List.mem_cons_self,
        UInt64.le_trans (hnext event List.mem_cons_self) hcurrent⟩]
      rfl
    obtain ⟨result, hresult, hle⟩ := ih (fun e he => hfs e (List.mem_cons_of_mem _ he))
      (fun e he => hwell e (List.mem_cons_of_mem _ he)) hrest
      (fun e he => hnext e (List.mem_cons_of_mem _ he))
      (seen.1 + event.keys.length, event.revision) hlater (hnext event List.mem_cons_self)
      (by simp only; omega)
    exact ⟨result, foldlM_cons_eq_ok.2 ⟨_, hstep, hresult⟩, hle⟩

/-- **Progress**: a valid poll from a cursor that is neither compacted nor in the future, with room for
the keys of any one event, returns a page, and the next cursor is past the old one unless there is
nothing to come. -/
theorem pollChanges_progress (h : Chronicle contract.limits events s)
    (hvalid : request.validate contract.limits = .ok ())
    (hroom : request.maxKeys.toNat = contract.limits.maxChangeKeys)
    (hcursor : request.after.get ≤ s.revision.get)
    (holdest : s.oldestChangeCursor.get ≤ request.after.get) :
    ∃ batch, pollChanges contract s request = .ok (.changes batch) ∧
      (request.after.get < s.revision.get → request.after.get < batch.next.get) := by
  obtain ⟨collected, hloop⟩ := pollLoop_ok
    (events.filter fun e => decide (request.after.get < e.revision.get))
    (fun e he => hroom ▸ (h.wellFormed e (List.mem_filter.1 he).1).bounded)
    { next := request.after } fun _ => rfl
  have hpage := page_of_pollLoop h hcursor hloop
  generalize hnext : (if collected.stoppedEarly then collected.next else s.revision) = next at hpage
  have hevents : ∀ e ∈ collected.events, e ∈ events ∧ e.filesystemId = request.filesystemId ∧
      request.after.get < e.revision.get ∧ e.revision.get ≤ next.get := by
    intro e he
    rw [hpage.events] at he
    exact mem_window.1 he
  have hincreasing : collected.events.Pairwise fun a b => a.revision.get < b.revision.get := by
    rw [hpage.events]
    exact h.increasing.sublist List.filter_sublist
  obtain ⟨result, hfold, hlast⟩ := checkBatch_ok
    (fun e he => (hevents e he).2.1) (fun e he => h.wellFormed e (hevents e he).1) hincreasing
    (fun e he => (hevents e he).2.2.2) hpage.published (0, request.after)
    (fun e he => (hevents e he).2.2.1) hpage.after (by simpa using hpage.keys)
  have hbatch : ChangeBatch.new collected.events request next s.revision contract.limits =
      .ok ⟨collected.events, next, s.revision⟩ := by
    simp only [ChangeBatch.new, hvalid, hfold, ok_bind, requireAtMost, ensure_of hpage.bounded, mapErr,
      ensure_of (And.intro hlast hpage.published), pure, Except.pure]
  refine ⟨⟨collected.events, next, s.revision⟩, ?_, fun hlt => hpage.progress hlt ?_⟩
  · simp only [pollChanges, hvalid, UInt64.not_lt.2 hcursor, UInt64.not_lt.2 holdest, if_false,
      h.pending holdest, hloop, hnext, hbatch]
  · simp only [ChangePoll.validate, bind_eq_ok, ensure_eq_ok] at hvalid
    exact hvalid.choose_spec.1

end Polls

/-! ## A client of the feed -/

/-- What a client does, and what others do to the authority meanwhile. -/
inductive FeedInput where
  | call (call : Call)
  | read (key : RecordKey)
  | poll (maxEvents maxKeys : UInt32)

def FeedInput.call? : FeedInput → Option Call
  | .call made => some made
  | _ => none

/-- A client with its cursor, the events it received and the records it caches; a cached absence is
`some none`. -/
structure FeedClient where
  authority : AuthorityState
  cursor : StateRevision
  received : List ChangeEvent := []
  cache : RecordKey → Option (Option StateRecord) := fun _ => none

/-- One input: a page moves the cursor to its next one and drops the cached records that its events
name; any other answer leaves the client as it is. -/
def FeedClient.step (contract : Contract) (fs : FilesystemId) (c : FeedClient) :
    FeedInput → FeedClient
  | .call call => { c with authority := (State.authority contract c.authority call).2 }
  | .read key => { c with cache := Function.update c.cache key (some c.authority.records[key]?) }
  | .poll maxEvents maxKeys =>
    match pollChanges contract c.authority ⟨fs, c.cursor, maxEvents, maxKeys⟩ with
    | .ok (.changes batch) => { c with
        cursor := batch.next
        received := c.received ++ batch.events
        cache := fun key => if ∃ e ∈ batch.events, key ∈ e.keys then none else c.cache key }
    | _ => c

def FeedClient.run (contract : Contract) (fs : FilesystemId) (c : FeedClient)
    (inputs : List FeedInput) : FeedClient := inputs.foldl (FeedClient.step contract fs) c

/-- What a client that started at `first` has of the events so far: those of its filesystem up to its
cursor. What it caches is current as long as no later event names it; that is claimed of a client that
did not start ahead of the authority. -/
structure Follows (fs : FilesystemId) (first : StateRevision) (ahead : Prop)
    (events : List ChangeEvent) (c : FeedClient) : Prop where
  received : c.received = window fs first c.cursor events
  started : first.get ≤ c.cursor.get
  cursor : c.cursor = first ∧ ahead ∨ c.cursor.get ≤ c.authority.revision.get
  cached : ¬ ahead → ∀ key v, key.filesystemId = fs → c.cache key = some v →
    (∀ e ∈ events, e.filesystemId = fs → c.cursor.get < e.revision.get → key ∉ e.keys) →
    v = c.authority.records[key]?

section Client

variable {contract : Contract} {fs : FilesystemId} {first : StateRevision} {ahead : Prop}
  {events : List ChangeEvent} {c : FeedClient}

section

variable (h : Follows fs first ahead events c)

include h

/-- A published event is past the cursor, or the client started ahead of it. -/
theorem Follows.publish {step : AuthorityStep} {event : ChangeEvent}
    (hbefore : c.authority = step.before) (hannounced : Announced contract.limits step event) :
    Follows fs first ahead (events ++ [event]) { c with authority := step.after } := by
  have hlt := Chronicle.lt_of_next hannounced.next
  have hnew : c.cursor.get < event.revision.get ∨ c.cursor = first ∧ ahead := by
    rcases h.cursor with hahead | hle
    · exact .inr hahead
    · rw [hbefore] at hle
      exact .inl (UInt64.lt_of_le_of_lt hle hlt)
  refine ⟨?_, h.started, ?_, fun hcurrent key v hkey hv hlater => ?_⟩
  · have hnone : window fs first c.cursor [event] = [] := by
      refine window_eq_nil fun e he hwindow => ?_
      rw [List.mem_singleton.1 he] at hwindow
      rcases hnew with hpast | ⟨hcursor, -⟩
      · exact UInt64.not_le.2 hpast hwindow.2
      · rw [hcursor] at hwindow
        exact UInt64.not_le.2 hwindow.1 hwindow.2
    rw [window_append_events, hnone, List.append_nil]
    exact h.received
  · refine h.cursor.imp_right fun hle => ?_
    show c.cursor.get ≤ step.after.revision.get
    rw [hannounced.revision]
    rw [hbefore] at hle
    exact UInt64.le_trans hle (UInt64.le_of_lt hlt)
  · have hpast : c.cursor.get < event.revision.get := hnew.resolve_right fun hahead =>
      hcurrent hahead.2
    have hv := h.cached hcurrent key v hkey hv fun e he =>
      hlater e (List.mem_append_left _ he)
    rw [hv, hbefore]
    by_contra hchanged
    have hnamed := hannounced.complete key fun heq => hchanged heq.symm
    refine hlater event (by simp) ?_ hpast hnamed
    rw [← hannounced.wellFormed.owned key hnamed, hkey]

theorem Follows.call (call : Call) :
    Follows fs first ahead (events ++ history contract c.authority [call])
      (c.step contract fs (.call call)) := by
  rw [history_singleton]
  rcases announced_of_effect (callEffect_authority contract c.authority call) with
    ⟨hnone, hsame⟩ | ⟨event, hevent, hannounced⟩
  · rw [hnone, Option.toList_none, List.append_nil]
    have hrecords : (authority contract c.authority call).2.records = c.authority.records :=
      hsame.records
    have hrevision : (authority contract c.authority call).2.revision = c.authority.revision :=
      hsame.revision
    refine ⟨h.received, h.started, ?_, fun hcurrent key v hkey hv hlater => ?_⟩
    · simp only [FeedClient.step, hrevision]
      exact h.cursor
    · simp only [FeedClient.step, hrecords]
      exact h.cached hcurrent key v hkey hv hlater
  · rw [hevent]
    exact h.publish rfl hannounced

theorem Follows.read (key : RecordKey) :
    Follows fs first ahead events (c.step contract fs (.read key)) := by
  refine ⟨h.received, h.started, h.cursor, fun hcurrent k v hk hv hlater => ?_⟩
  simp only [FeedClient.step, Function.update_apply] at hv ⊢
  split at hv
  · rename_i heq
    rw [heq]
    exact (Option.some.inj hv).symm
  · exact h.cached hcurrent k v hk hv hlater

theorem Follows.poll (hchronicle : Chronicle contract.limits events c.authority)
    (maxEvents maxKeys : UInt32) :
    Follows fs first ahead events (c.step contract fs (.poll maxEvents maxKeys)) := by
  simp only [FeedClient.step]
  split
  · rename_i batch hpoll
    obtain ⟨hevents, hafter, hpublished⟩ := pollChanges_changes hchronicle hpoll
    simp only at hevents hafter
    refine ⟨?_, UInt64.le_trans h.started hafter, .inr hpublished, fun hcurrent key v hkey hv hlater => ?_⟩
    · simp only
      rw [h.received, hevents, window_append hchronicle.increasing h.started hafter]
    · simp only at hv
      split at hv
      · cases hv
      · rename_i hunnamed
        refine h.cached hcurrent key v hkey hv fun e he hfs hpast hnamed => ?_
        by_cases hnext : e.revision.get ≤ batch.next.get
        · refine hunnamed ⟨e, ?_, hnamed⟩
          rw [hevents]
          exact mem_window.2 ⟨he, hfs, hpast, hnext⟩
        · exact hlater e he hfs (UInt64.not_le.1 hnext) hnamed
  · exact h

/-- **A run of the client**, with anyone's calls between its polls. -/
theorem follows_run (hchronicle : Chronicle contract.limits events c.authority)
    (inputs : List FeedInput) :
    Follows fs first ahead
      (events ++ history contract c.authority (inputs.filterMap FeedInput.call?))
      (c.run contract fs inputs) ∧
    (c.run contract fs inputs).authority =
      finalState (authority contract) c.authority (inputs.filterMap FeedInput.call?) := by
  induction inputs generalizing c events with
  | nil =>
    refine ⟨?_, rfl⟩
    rw [List.filterMap_nil, show history contract c.authority [] = [] from rfl, List.append_nil]
    exact h
  | cons input inputs ih =>
    cases input with
    | call call =>
      have hstep := hchronicle.step (callEffect_authority contract c.authority call)
      rw [← history_singleton] at hstep
      obtain ⟨hfollows, hauthority⟩ := ih (h.call call) hstep
      refine ⟨?_, hauthority⟩
      rw [List.append_assoc] at hfollows
      rw [show List.filterMap FeedInput.call? (.call call :: inputs) =
        [call] ++ List.filterMap FeedInput.call? inputs from rfl, history_append]
      exact hfollows
    | read key => exact ih (h.read key) hchronicle
    | poll maxEvents maxKeys =>
      have hsame : (c.step contract fs (.poll maxEvents maxKeys)).authority = c.authority := by
        simp only [FeedClient.step]
        split <;> rfl
      have hnext := ih (h.poll hchronicle maxEvents maxKeys) (hsame.symm ▸ hchronicle)
      rw [hsame] at hnext
      exact hnext

end

end Client

/-- The chronicle of every run from the empty authority. -/
theorem chronicle_run (contract : Contract) (clock : LeaseDeadline) (calls : List Call) :
    Chronicle contract.limits (history contract (.new clock) calls)
      (finalState (authority contract) (.new clock) calls) := by
  suffices hgen : ∀ {s : AuthorityState} {events : List ChangeEvent} (calls : List Call),
      Chronicle contract.limits events s →
      Chronicle contract.limits (events ++ history contract s calls)
        (finalState (authority contract) s calls) from
    hgen calls (Chronicle.new clock)
  intro s events calls
  induction calls generalizing s events with
  | nil =>
    intro h
    rw [show history contract s [] = [] from rfl, List.append_nil]
    exact h
  | cons call calls ih =>
    intro h
    have hstep := h.step (callEffect_authority contract s call)
    rw [← history_singleton] at hstep
    have hrest := ih hstep
    rw [List.append_assoc] at hrest
    rw [← List.singleton_append, history_append]
    exact hrest

/-- Completeness of the feed for a client that started at `first` when the authority was at `start`:
what the whole run `steps` says of its events, and what the client has in the end. -/
structure FeedComplete (contract : Contract) (fs : FilesystemId) (first start : StateRevision)
    (steps : List AuthorityStep) (c : FeedClient) : Prop where
  /-- A step publishes nothing and changes no record, or its one event names every key whose record
  differs, all of them of the event's filesystem. -/
  announced : ∀ step ∈ steps,
    (AuthorityStep.event step = none ∧ step.after.revision = step.before.revision ∧
      step.after.records = step.before.records) ∨
    ∃ event, AuthorityStep.event step = some event ∧
      step.before.revision.checkedNext = .ok event.revision ∧
      step.after.revision = event.revision ∧
      (∀ key : RecordKey, step.after.records[key]? ≠ step.before.records[key]? →
        key ∈ event.keys) ∧
      ∀ key ∈ event.keys, key.filesystemId = event.filesystemId
  ordered : (steps.filterMap AuthorityStep.event).Pairwise fun a b =>
    a.revision.get < b.revision.get
  /-- At the current revision the client has the events of its filesystem after `first`: all of them,
  whole, in their order and each one once. -/
  received : c.cursor = c.authority.revision → c.received =
    (steps.filterMap AuthorityStep.event).filter fun e =>
      decide (e.filesystemId = fs ∧ first.get < e.revision.get)
  /-- And no cached record of its filesystem differs from the authority's. -/
  fresh : c.cursor = c.authority.revision → first.get ≤ start.get →
    ∀ key v, key.filesystemId = fs → c.cache key = some v → v = c.authority.records[key]?
  /-- A poll with the largest bounds gets there unless it is told that its cursor was compacted. -/
  progress : ∀ request, request.filesystemId = fs → request.after = c.cursor →
    request.validate contract.limits = .ok () →
    request.maxKeys.toNat = contract.limits.maxChangeKeys →
    c.cursor.get < c.authority.revision.get →
    c.authority.oldestChangeCursor.get ≤ c.cursor.get →
    ∃ batch, pollChanges contract c.authority request = .ok (.changes batch) ∧
      c.cursor.get < batch.next.get

/-- **Completeness of the change feed**, whatever calls came before the client's first poll and come
between its polls. -/
theorem feed_complete (contract : Contract) (clock : LeaseDeadline) (fs : FilesystemId)
    (first : StateRevision) (before : List Call) (inputs : List FeedInput) :
    FeedComplete contract fs first
      (finalState (authority contract) (.new clock) before).revision
      (trace (authority contract) (.new clock) (before ++ inputs.filterMap FeedInput.call?))
      (FeedClient.run contract fs
        { authority := finalState (authority contract) (.new clock) before, cursor := first }
        inputs) := by
  set s := finalState (authority contract) (.new clock) before with hs
  set c := FeedClient.run contract fs { authority := s, cursor := first } inputs with hc
  have hstart : Follows fs first (s.revision.get < first.get)
      (history contract (.new clock) before) { authority := s, cursor := first } := by
    refine ⟨?_, UInt64.le_refl _, ?_, fun _ key v _ hv => by simp at hv⟩
    · exact (window_eq_nil fun e _ hwindow => UInt64.not_le.2 hwindow.1 hwindow.2).symm
    · by_cases hahead : s.revision.get < first.get
      · exact .inl ⟨rfl, hahead⟩
      · exact .inr (UInt64.not_lt.1 hahead)
  obtain ⟨hfollows, hauthority⟩ :=
    follows_run hstart (chronicle_run contract clock before) inputs
  have hchronicle := chronicle_run contract clock (before ++ inputs.filterMap FeedInput.call?)
  rw [hs, ← history_append, ← hs, ← hc] at hfollows
  rw [finalState_append, ← hs, ← hauthority, ← hc] at hchronicle
  refine ⟨trace_forall (P := fun _ => True) (fun _ _ _ => trivial) (fun state call _ => ?_) trivial _,
    hchronicle.increasing, fun hcaught => ?_,
    fun hcaught hfirst key v hkey hv => ?_, fun request hfs hafter hvalid hroom hbehind hkept => ?_⟩
  · rcases announced_of_effect (callEffect_authority contract state call) with
      ⟨hnone, hsame⟩ | ⟨event, hevent, hannounced⟩
    · exact .inl ⟨hnone, hsame.revision, hsame.records⟩
    · exact .inr ⟨event, hevent, hannounced.next, hannounced.revision, hannounced.complete,
        hannounced.wellFormed.owned⟩
  · refine hfollows.received.trans (List.filter_congr fun e he => ?_)
    have hpublished := hchronicle.published e he
    rw [hcaught]
    simp only [hpublished, and_true]
  · refine hfollows.cached (UInt64.not_lt.2 hfirst) key v hkey hv fun e he _ hlater => ?_
    rw [hcaught] at hlater
    exact absurd (hchronicle.published e he) (UInt64.not_le.2 hlater)
  · rw [← hafter] at hbehind hkept ⊢
    obtain ⟨batch, hpoll, hmoves⟩ :=
      pollChanges_progress hchronicle hvalid hroom (UInt64.le_of_lt hbehind) hkept
    exact ⟨batch, hpoll, hmoves hbehind⟩

end W9pt.State

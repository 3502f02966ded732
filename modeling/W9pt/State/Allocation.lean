import W9pt.Lib.Dispenser
import W9pt.State.History

/-!
# QID paths and directory cookies (`testing/memory.rs:1249-1393`)

The header of a filesystem carries the next QID path and the next directory cookie. A new inode takes
the next path, a new entry the next cookie, unless it carries the cookie of an entry removed by the
same commit; both counters only grow while the header stays.

| here | there |
|---|---|
| `Staged.inode_qidPath` | an inode after a commit has its old QID path or one past the counter |
| `neverReused_run` | no QID path passes to another inode, no counter goes back |
| `Placement`, `Staged.placement` | where the cookie of an entry comes from |
| `cookiesUnique_run` | cookies are unique and keep their child |

The validators run only when the header is there before the commit, and compare each change with the
records before it, not with the other changes. `dropRun`, `shareCookie` and `retarget` are what this
admits.
-/

namespace W9pt.State

open Lib

/-! ## QID paths -/

section QidPaths

variable {contract : Contract} {s : AuthorityState} {request : CommitRequest} {staged : RecordMap}
  {event : ChangeEvent} {header : FilesystemRecord}

theorem checkQidChange_next {records : RecordMap} {a b : Allocation QidPath} {change : StateChange}
    (h : checkQidChange records a change = .ok b) : a.next.get ≤ b.next.get := by
  unfold checkQidChange at h
  split at h
  · simp only [Allocation.take, bind_eq_ok, mapErr_eq_ok] at h
    obtain ⟨_, -, next, hnext, _, -, hb⟩ := h
    cases hb
    have hsum := Counter.checkedNext_eq_ok.1 hnext
    exact UInt64.le_iff_toNat_le.2 (by simp only [hsum]; omega)
  · split at h
    · obtain ⟨_, -, hb⟩ := bind_eq_ok.1 h
      cases hb
      exact UInt64.le_refl _
    · cases h
      exact UInt64.le_refl _
  · simp only [Allocation.declare, bind_eq_ok] at h
    obtain ⟨_, -, hb⟩ := h
    cases hb
    exact UInt64.le_refl _
  · cases h
    exact UInt64.le_refl _

/-- A new inode takes a QID path that no inode had before. -/
theorem Staged.inserted_qidPath (h : Staged contract s request staged event)
    (hh : filesystemAt s.records request.filesystemId = some header) {key : RecordKey}
    {inode : InodeRecord} (hc : StateChange.insert key (.inode inode) ∈ request.changes) :
    header.nextQidPath.get ≤ inode.qidPath.get := by
  obtain ⟨a, hscan, -⟩ := h.qidScan hh
  obtain ⟨l₁, l₂, a₁, a₂, -, hbefore, hinsert, -⟩ := foldlM_ok_split hscan hc
  have hle : header.nextQidPath.get ≤ a₁.next.get :=
    foldlM_ok_invariant (P := fun a : Allocation QidPath => header.nextQidPath.get ≤ a.next.get)
      (fun hstep hle => UInt64.le_trans hle (checkQidChange_next hstep)) hbefore (UInt64.le_refl _)
  simp only [checkQidChange, bind_eq_ok, ensure_eq_ok] at hinsert
  obtain ⟨_, hqid, -⟩ := hinsert
  rwa [hqid]

/-- **The QID paths after a commit**: an inode keeps its path, or is new and its path is past the
counter. -/
theorem Staged.inode_qidPath (h : Staged contract s request staged event)
    (hs : Sound contract.limits s.records)
    (hh : filesystemAt s.records request.filesystemId = some header) {i : InodeId} {r' : InodeRecord}
    (hr' : inodeAt staged request.filesystemId i = some r') :
    (∃ r, inodeAt s.records request.filesystemId i = some r ∧ r.qidPath = r'.qidPath) ∨
      header.nextQidPath.get ≤ r'.qidPath.get := by
  cases hbefore : s.records[RecordKey.inode request.filesystemId i]? with
  | none =>
    right
    obtain ⟨inserted, hc, rfl⟩ := h.inode_inserted hbefore hr'
    have hle := h.inserted_qidPath hh hc
    exact hle
  | some record =>
    left
    have hmatches := hs.matchesKey rfl hbefore
    cases record with
    | inode r =>
      have hr := inodeAt_eq_some.2 hbefore
      rcases h.inode_advance hh hr hr' with rfl | hadvance
      · exact ⟨r', hr, rfl⟩
      · exact ⟨r, hr, hadvance.qidPath.symm⟩
    | _ => simp [StateRecord.matchesKey] at hmatches

end QidPaths

/-! ## Histories that keep the header -/

/-- The step is no accepted commit that deletes the header. -/
def KeepsHeader (fs : FilesystemId) (step : AuthorityStep) : Prop :=
  ∀ request, step.Commits request → step.Published →
    StateChange.delete (.filesystem fs) ∉ request.changes

/-- Between the two states no QID path passes to another inode and no counter goes back. -/
structure NeverReused (fs : FilesystemId) (s s' : AuthorityState) : Prop where
  qidPath : ∀ i j r r', inodeAt s.records fs i = some r → inodeAt s'.records fs j = some r' →
    r'.qidPath = r.qidPath → j = i
  counters : ∀ h h', filesystemAt s.records fs = some h → filesystemAt s'.records fs = some h' →
    h.nextQidPath.get ≤ h'.nextQidPath.get ∧
    h.nextDirectoryCookie.get ≤ h'.nextDirectoryCookie.get ∧ h.policyGeneration ≤ h'.policyGeneration

/-- The QID paths of a filesystem: inodes take them from the header. -/
def qidPaths (fs : FilesystemId) : Dispenser AuthorityState InodeId where
  next s := (filesystemAt s.records fs).map (·.nextQidPath.get.toNat)
  holds s i k := ∃ r, inodeAt s.records fs i = some r ∧ r.qidPath.get.toNat = k

/-- The header stays, and its counters do not go back. -/
def HeaderContinues (fs : FilesystemId) (s t : AuthorityState) : Prop :=
  ∀ h, filesystemAt s.records fs = some h →
    ∃ h', filesystemAt t.records fs = some h' ∧ HeaderAdvance h h'

section Steps

variable {contract : Contract} {fs : FilesystemId} {s t u : AuthorityState}

theorem HeaderContinues.refl (s : AuthorityState) : HeaderContinues fs s s :=
  fun h hh => ⟨h, hh, .refl h⟩

theorem HeaderContinues.trans (hst : HeaderContinues fs s t) (htu : HeaderContinues fs t u) :
    HeaderContinues fs s u := by
  intro h hh
  obtain ⟨h₁, hh₁, hadvance₁⟩ := hst h hh
  obtain ⟨h₂, hh₂, hadvance₂⟩ := htu h₁ hh₁
  exact ⟨h₂, hh₂, hadvance₁.trans hadvance₂⟩

section

variable {step : AuthorityStep} (h : CallEffect contract step)

include h

/-- What a call does to the records of one filesystem that a commit may write: nothing, or it is an
accepted commit on the filesystem. -/
theorem CallEffect.frame_or_commit (fs : FilesystemId) :
    (∀ key : RecordKey, key.filesystemId = fs → key.storeOwned = false →
      step.after.records[key]? = step.before.records[key]?) ∨
    ∃ request event, request.filesystemId = fs ∧ step.Commits request ∧ step.Published ∧
      Staged contract step.before request step.after.records event := by
  cases h with
  | none unchanged => exact .inl fun _ _ _ => by rw [unchanged.records]
  | lease event advances wellFormed leases =>
    refine .inl fun key _ howned => getElem?_of_lease advances leases ?_
    rintro heq
    simp [RecordKey.storeOwned, heq] at howned
  | commit request event commits published staged advances =>
    by_cases hfs : request.filesystemId = fs
    · exact .inr ⟨request, event, hfs, commits, published, staged⟩
    · exact .inl fun key hkey _ => staged.getElem?_foreign fun heq => hfs (heq.symm.trans hkey)

/-- A call that keeps the header. -/
theorem HeaderContinues.of_effect (hkeeps : KeepsHeader fs step) :
    HeaderContinues fs step.before step.after := by
  intro header hheader
  rcases h.frame_or_commit fs with hframe | ⟨request, event, rfl, commits, published, staged⟩
  · refine ⟨header, ?_, .refl header⟩
    rwa [filesystemAt_eq_some, hframe _ rfl rfl, ← filesystemAt_eq_some]
  · rcases staged.header_advance hheader with ⟨hdelete, -⟩ | hstays
    · exact absurd hdelete (hkeeps request commits published)
    · exact hstays

/-- **One call** that keeps the header hands out QID paths past the counter only. -/
theorem qidPaths_continues (hs : Sound contract.limits step.before.records)
    (hkeeps : KeepsHeader fs step) :
    (qidPaths fs).Continues step.before step.after := by
  intro n hn
  obtain ⟨header, hheader, rfl⟩ := Option.map_eq_some_iff.1 hn
  obtain ⟨header', hheader', hadvance⟩ := HeaderContinues.of_effect h hkeeps header hheader
  refine ⟨_, Option.map_eq_some_iff.2 ⟨header', hheader', rfl⟩,
    UInt64.le_iff_toNat_le.1 hadvance.qidPath, ?_⟩
  rintro i _ ⟨r', hr', rfl⟩
  rcases h.frame_or_commit fs with hframe | ⟨request, event, rfl, -, -, staged⟩
  · refine .inl ⟨r', ?_, rfl⟩
    rwa [inodeAt_eq_some, hframe _ rfl rfl, ← inodeAt_eq_some] at hr'
  · rcases staged.inode_qidPath hs hheader hr' with ⟨r, hr, hsame⟩ | hfresh
    · exact .inl ⟨r, hr, by rw [hsame]⟩
    · exact .inr (UInt64.le_iff_toNat_le.1 hfresh)

end

/-- In a sound state every QID path is below the counter and has one inode. -/
theorem qidPaths_consistent (hs : Sound contract.limits s.records) : (qidPaths fs).Consistent s where
  below := by
    rintro i _ ⟨r, hr, rfl⟩
    obtain ⟨header, hheader, hlt⟩ := hs.header hr
    exact ⟨_, Option.map_eq_some_iff.2 ⟨header, hheader, rfl⟩, UInt64.lt_iff_toNat_lt.1 hlt⟩
  unique := by
    rintro i j k ⟨r, hr, rfl⟩ ⟨r', hr', hk⟩
    exact hs.qid_injective hr hr' (Counter.ext (UInt64.toNat_inj.1 hk.symm))

end Steps

/-- What each step of a run from a sound state relates, the run relates. -/
theorem relates_run (contract : Contract) {R : AuthorityState → AuthorityState → Prop}
    {P : AuthorityStep → Prop} (refl : ∀ s, R s s) (trans : ∀ {s t u}, R s t → R t u → R s u)
    (one : ∀ {step}, CallEffect contract step → Sound contract.limits step.before.records → P step →
      R step.before step.after) {s : AuthorityState} (hs : Sound contract.limits s.records)
    (calls : List Call) (hsteps : ∀ step ∈ trace (authority contract) s calls, P step) :
    R s (finalState (authority contract) s calls) := by
  induction calls generalizing s with
  | nil => exact refl s
  | cons call calls ih =>
    have heffect := callEffect_authority contract s call
    exact trans (one heffect hs (hsteps _ List.mem_cons_self))
      (ih (heffect.sound hs) fun step hstep => hsteps step (List.mem_cons_of_mem _ hstep))

/-- **QID paths are never reused** in any history whose accepted commits do not delete the filesystem
record. -/
theorem neverReused_run (contract : Contract) (clock : LeaseDeadline) (fs : FilesystemId)
    (before after : List Call)
    (hkeeps : ∀ step ∈ trace (authority contract)
      (finalState (authority contract) (.new clock) before) after, KeepsHeader fs step) :
    NeverReused fs (finalState (authority contract) (.new clock) before)
      (finalState (authority contract) (.new clock) (before ++ after)) := by
  have hsound := sound_run contract clock before
  rw [finalState_append]
  constructor
  · intro i j r r' hr hr' hqid
    have hpaths : (qidPaths fs).Continues _ _ :=
      relates_run contract .refl .trans qidPaths_continues hsound after hkeeps
    exact hpaths.holder_eq (qidPaths_consistent hsound) ⟨r, hr, rfl⟩ ⟨r', hr', by rw [hqid]⟩
  · intro header header' hheader hheader'
    have hcontinues : HeaderContinues fs _ _ :=
      relates_run contract .refl .trans (fun h _ => .of_effect h) hsound after hkeeps
    obtain ⟨header₁, hheader₁, hadvance⟩ := hcontinues header hheader
    obtain rfl : header₁ = header' := Option.some.inj (hheader₁.symm.trans hheader')
    exact ⟨hadvance.qidPath, hadvance.cookie, hadvance.policy⟩

/-! ### A header that is deleted and inserted again -/

/-- One writer on one filesystem. -/
def sampleContract : Contract := ⟨.singleFencedWriter, .default, fun _ => 0⟩

def sampleAcquire : Call := .acquire ⟨⟨1⟩, ⟨1⟩, .filesystem, ⟨1⟩, ⟨1⟩, ⟨100, by decide⟩⟩

/-- A commit under the lease of `sampleAcquire`. -/
def sampleCommit (mutation : MutationId) (changes : List StateChange) : CommitRequest where
  filesystemId := ⟨1⟩
  mutation := ⟨mutation, ⟨0⟩, ⟨1⟩, ⟨0⟩⟩
  fence := ⟨.filesystem, ⟨1⟩, ⟨1⟩, .one _⟩
  preconditions := []
  changes := changes
  terminalResult := ⟨1, 1, [], by decide, by decide⟩

/-- A filesystem that holds only its root. -/
def bootstrap (mutation : MutationId) (root : InodeId) : Call := .commit (sampleCommit mutation
  [.insert (.filesystem ⟨1⟩) (.filesystem { sampleHeader with
      rootInodeId := root
      nextQidPath := qidAfter 1 }),
    .insert (.inode ⟨1⟩ root)
      (.inode (sampleDirectory root root (.one _)))])

/-- The header goes together with the last inode. -/
def drop (mutation : MutationId) (root : InodeId) : Call := .commit (sampleCommit mutation
  [.delete (.filesystem ⟨1⟩), .delete (.inode ⟨1⟩ root)])

/-- A filesystem is bootstrapped, dropped and bootstrapped with another root. -/
def dropRun : List Call := [bootstrap ⟨2⟩ ⟨1⟩, drop ⟨3⟩ ⟨1⟩, bootstrap ⟨4⟩ ⟨2⟩]

/-- The second root of `dropRun` has the QID path of the first. -/
theorem dropRun_reuses :
    (inodeAt (finalState (authority sampleContract) (.new ⟨0⟩)
      [sampleAcquire, bootstrap ⟨2⟩ ⟨1⟩]).records ⟨1⟩ ⟨1⟩).map (·.qidPath.get) = some 1 ∧
    (inodeAt (finalState (authority sampleContract) (.new ⟨0⟩)
      (sampleAcquire :: dropRun)).records ⟨1⟩ ⟨2⟩).map (·.qidPath.get) = some 1 := by
  decide +kernel

/-! ## Directory cookies -/

/-- The entry that an insertion or a move brings. -/
def StateChange.brought : StateChange → Option DirectoryEntryRecord
  | insert _ (.directoryEntry entry) => some entry
  | moveDirectoryEntry _ _ destination => some destination
  | _ => none

/-- No two of the entries that the commit inserts or moves carry one cookie. -/
def CommitRequest.CookiesDistinct (request : CommitRequest) : Prop :=
  ((request.changes.filterMap (·.brought)).map (·.cookie)).Nodup

instance (request : CommitRequest) : Decidable request.CookiesDistinct :=
  inferInstanceAs (Decidable (List.Nodup _))

/-- Every entry that the commit replaces keeps its child. -/
def CommitRequest.ChildrenKept (request : CommitRequest) (records : RecordMap) : Prop :=
  ∀ key entry current, StateChange.replace key (.directoryEntry entry) ∈ request.changes →
    records[key]? = some (.directoryEntry current) → entry.childInodeId = current.childInodeId

section Cookies

variable {contract : Contract} {s : AuthorityState} {request : CommitRequest} {staged : RecordMap}
  {event : ChangeEvent} {header : FilesystemRecord} {e e₁ e₂ : DirectoryEntryRecord}

theorem checkCookieChange_next {records : RecordMap} {fs : FilesystemId}
    {removed : List DirectoryEntryRecord} {a b : Allocation DirectoryCookie} {change : StateChange}
    (h : checkCookieChange records fs removed a change = .ok b) : a.next.get ≤ b.next.get := by
  unfold checkCookieChange at h
  split at h
  · split at h
    · cases h
      exact UInt64.le_refl _
    · simp only [Allocation.take, bind_eq_ok, mapErr_eq_ok] at h
      obtain ⟨_, -, next, hnext, _, -, hb⟩ := h
      cases hb
      unfold DirectoryCookie.checkedAdvance at hnext
      split at hnext
      · rename_i value hadd
        cases hnext
        exact HeaderAdvance.le_of_checkedAdd hadd
      · cases hnext
  · split at h
    · obtain ⟨_, -, hb⟩ := bind_eq_ok.1 h
      cases hb
      exact UInt64.le_refl _
    · cases h
      exact UInt64.le_refl _
  · split at h
    · obtain ⟨_, -, hb⟩ := bind_eq_ok.1 h
      cases hb
      exact UInt64.le_refl _
    · cases h
  · simp only [Allocation.declare, bind_eq_ok] at h
    obtain ⟨_, -, hb⟩ := h
    cases hb
    exact UInt64.le_refl _
  · cases h
    exact UInt64.le_refl _

/-- An inserted entry carries the cookie and the child of a removed one, or a cookie past the
counter. -/
theorem Staged.inserted_cookie (h : Staged contract s request staged event)
    (hh : filesystemAt s.records request.filesystemId = some header) {key : RecordKey}
    (hc : StateChange.insert key (.directoryEntry e) ∈ request.changes) :
    (∃ old ∈ request.changes.filterMap (·.removedEntry s.records request.filesystemId),
      old.cookie = e.cookie ∧ old.childInodeId = e.childInodeId) ∨
    header.nextDirectoryCookie.get ≤ e.cookie.get := by
  obtain ⟨a, hscan, -⟩ := h.cookieScan hh
  obtain ⟨l₁, l₂, a₁, a₂, -, hbefore, hinsert, -⟩ := foldlM_ok_split hscan hc
  have hle : header.nextDirectoryCookie.get ≤ a₁.next.get :=
    foldlM_ok_invariant
      (P := fun a : Allocation DirectoryCookie => header.nextDirectoryCookie.get ≤ a.next.get)
      (fun hstep hle => UInt64.le_trans hle (checkCookieChange_next hstep)) hbefore (UInt64.le_refl _)
  simp only [checkCookieChange] at hinsert
  split at hinsert
  · rename_i hcarried
    obtain ⟨old, hold, heq⟩ := List.any_eq_true.1 hcarried
    simp only [Bool.and_eq_true, beq_iff_eq] at heq
    exact .inl ⟨old, hold, heq⟩
  · right
    simp only [bind_eq_ok, ensure_eq_ok] at hinsert
    obtain ⟨_, hcookie, -⟩ := hinsert
    rwa [hcookie]

/-- A removed entry was there before the commit and leaves nothing under its key. -/
theorem Staged.removed (h : Staged contract s request staged event)
    (hs : Sound contract.limits s.records)
    (hold : e ∈ request.changes.filterMap (·.removedEntry s.records request.filesystemId)) :
    IsEntry s.records request.filesystemId e ∧
      staged[RecordKey.directoryEntry request.filesystemId e.parentInodeId e.name]? = none := by
  obtain ⟨change, hc, hremoved⟩ := List.mem_filterMap.1 hold
  cases change with
  | delete key =>
    simp only [StateChange.removedEntry] at hremoved
    split at hremoved
    · rename_i entry hget
      cases hremoved
      have haffected : key ∈ (StateChange.delete key).affectedKeys request.filesystemId :=
        List.mem_cons_self
      have howned := CommitRequest.affected_storeOwned h.preflight hc haffected
      have hfs := CommitRequest.affected_filesystem h.preflight hc haffected
      obtain rfl : key = .directoryEntry request.filesystemId e.parentInodeId e.name := by
        have hmatches := hs.matchesKey howned hget
        cases key <;> simp_all [StateRecord.matchesKey, RecordKey.filesystemId]
      obtain ⟨mid, mid', happlied, hkeys⟩ := (h.writes hc).applied
      simp only [applyChange, bind_eq_ok, pure_eq_ok] at happlied
      obtain ⟨_, -, rfl⟩ := happlied
      refine ⟨hget, ?_⟩
      rw [(hkeys _ haffected (by simp [RecordKey.family])).2, Std.ExtTreeMap.getElem?_erase_self]
    · cases hremoved
  | moveDirectoryEntry parent name destination =>
    simp only [StateChange.removedEntry] at hremoved
    split at hremoved
    · rename_i entry hget
      cases hremoved
      obtain ⟨_, heq, rfl, rfl⟩ := matchesKey_entry (hs.matchesKey rfl hget)
      cases heq
      exact ⟨hget, h.source_gone hc⟩
    · cases hremoved
  | _ => cases hremoved

/-- Where an entry after a commit comes from: it is an entry before it, in the same place, or it is
brought by a change, with the cookie and the child of an entry that is gone or with a cookie past the
counter. -/
inductive Placement (s : AuthorityState) (request : CommitRequest) (staged : RecordMap)
    (event : ChangeEvent) (e : DirectoryEntryRecord) : Prop
  | kept (e₀ : DirectoryEntryRecord) (before : IsEntry s.records request.filesystemId e₀)
      (parent : e₀.parentInodeId = e.parentInodeId) (name : e₀.name = e.name)
      (cookie : e₀.cookie = e.cookie) (child : e₀.childInodeId = e.childInodeId)
  | brought (e₀ : DirectoryEntryRecord) (member : e₀ ∈ request.changes.filterMap (·.brought))
      (stamped : e = { e₀ with revision := event.revision.toRecord })
      (origin : (∃ old, IsEntry s.records request.filesystemId old ∧
          staged[RecordKey.directoryEntry request.filesystemId old.parentInodeId old.name]? = none ∧
          old.cookie = e.cookie ∧ old.childInodeId = e.childInodeId) ∨
        ∀ header, filesystemAt s.records request.filesystemId = some header →
          header.nextDirectoryCookie.get ≤ e.cookie.get)

/-- **The entries after a commit** that keeps the children of replaced entries. -/
theorem Staged.placement (h : Staged contract s request staged event)
    (hs : Sound contract.limits s.records) (hkept : request.ChildrenKept s.records)
    (he : IsEntry staged request.filesystemId e) : Placement s request staged event e := by
  rcases h.written (.directoryEntry request.filesystemId e.parentInodeId e.name)
    (by simp [RecordKey.family]) with hsame | ⟨change, hc, hk⟩
  · exact .kept e (hsame.symm.trans he) rfl rfl rfl rfl
  obtain ⟨e₀, rfl, hwrite⟩ := h.entry_change hc hk he
  cases hwrite with
  | insert =>
    refine .brought e₀ (List.mem_filterMap.2 ⟨_, hc, rfl⟩) rfl ?_
    cases hheader : filesystemAt s.records request.filesystemId with
    | none => exact .inr fun _ heq => absurd heq (by simp)
    | some header =>
      rcases h.inserted_cookie hheader hc with ⟨old, hold, hcookie, hchild⟩ | hfresh
      · obtain ⟨hbefore, hgone⟩ := h.removed hs hold
        exact .inl ⟨old, hbefore, hgone, hcookie, hchild⟩
      · refine .inr fun header' hheader' => ?_
        cases hheader'
        exact hfresh
  | replace current hbefore =>
    obtain ⟨old, rfl, hparent, hname⟩ := matchesKey_entry (hs.matchesKey rfl hbefore)
    have hentry : IsEntry s.records request.filesystemId old := by
      rw [IsEntry, hparent, hname]
      exact hbefore
    obtain ⟨-, header, hheader, -⟩ := hs.entry hentry
    obtain ⟨a, hscan, -⟩ := h.cookieScan hheader
    obtain ⟨_, _, hcheck⟩ := foldlM_ok_forall hscan _ hc
    have hbefore' : s.records[RecordKey.directoryEntry request.filesystemId e₀.parentInodeId
        e₀.name]? = some (.directoryEntry old) := hbefore
    simp only [checkCookieChange, hbefore', bind_eq_ok, ensure_eq_ok] at hcheck
    exact .kept old hentry hparent hname hcheck.choose_spec.1 (hkept _ _ _ hc hbefore').symm
  | move parent name source hbefore hgone hcookie hchild =>
    refine .brought e₀ (List.mem_filterMap.2 ⟨_, hc, rfl⟩) rfl (.inl ?_)
    obtain ⟨_, heq, rfl, rfl⟩ := matchesKey_entry (hs.matchesKey rfl hbefore)
    cases heq
    exact ⟨source, hbefore, hgone, hcookie, hchild⟩

end Cookies

/-- The cookies of a filesystem: each is carried for one child. -/
def cookies (fs : FilesystemId) : Dispenser AuthorityState InodeId where
  next s := (filesystemAt s.records fs).map (·.nextDirectoryCookie.get.toNat)
  holds s child k := ∃ e, IsEntry s.records fs e ∧ e.childInodeId = child ∧ e.cookie.get.toNat = k

/-- No two entries of the filesystem carry one cookie. -/
def CookiesUnique (fs : FilesystemId) (s : AuthorityState) : Prop :=
  ∀ e e', IsEntry s.records fs e → IsEntry s.records fs e' → e'.cookie = e.cookie → e' = e

/-- The step keeps the header and, if it is an accepted commit on the filesystem, brings each cookie
once and keeps the children of the entries it replaces. -/
structure Orderly (fs : FilesystemId) (step : AuthorityStep) : Prop where
  header : KeepsHeader fs step
  cookies : ∀ request, step.Commits request → step.Published → request.filesystemId = fs →
    request.CookiesDistinct
  children : ∀ request, step.Commits request → step.Published → request.filesystemId = fs →
    request.ChildrenKept step.before.records

section CookieSteps

variable {contract : Contract} {s : AuthorityState} {fs : FilesystemId} {request : CommitRequest}
  {staged : RecordMap} {event : ChangeEvent} {e e' : DirectoryEntryRecord}

theorem isEntry_unique {records : RecordMap} (he : IsEntry records fs e) (he' : IsEntry records fs e')
    (hparent : e'.parentInodeId = e.parentInodeId) (hname : e'.name = e.name) : e' = e := by
  unfold IsEntry at he he'
  rw [hparent, hname, he] at he'
  simpa using he'.symm

/-- An entry before the commit whose place is kept, and an entry that the commit brings. -/
theorem Staged.kept_ne_brought (hs : Sound contract.limits s.records)
    (hunique : CookiesUnique request.filesystemId s) {e₀ e₁ : DirectoryEntryRecord}
    (he : IsEntry staged request.filesystemId e) (hbefore : IsEntry s.records request.filesystemId e₀)
    (hparent : e₀.parentInodeId = e.parentInodeId) (hname : e₀.name = e.name)
    (hcookie : e₀.cookie = e₁.cookie)
    (horigin : (∃ old, IsEntry s.records request.filesystemId old ∧
        staged[RecordKey.directoryEntry request.filesystemId old.parentInodeId old.name]? = none ∧
        old.cookie = e₁.cookie ∧ old.childInodeId = e₁.childInodeId) ∨
      ∀ header, filesystemAt s.records request.filesystemId = some header →
        header.nextDirectoryCookie.get ≤ e₁.cookie.get) : False := by
  rcases horigin with ⟨old, hold, hgone, hcookie', -⟩ | hfresh
  · obtain rfl : old = e₀ := hunique e₀ old hbefore hold (hcookie'.trans hcookie.symm)
    rw [hparent, hname, he] at hgone
    cases hgone
  · obtain ⟨-, header, hheader, hlt⟩ := hs.entry hbefore
    have hle := hfresh header hheader
    rw [← hcookie] at hle
    exact absurd hle (UInt64.not_le.2 hlt)

/-- **One commit** that is orderly keeps the cookies unique. -/
theorem Staged.cookiesUnique (h : Staged contract s request staged event)
    (hs : Sound contract.limits s.records) (hunique : CookiesUnique request.filesystemId s)
    (hdistinct : request.CookiesDistinct) (hkept : request.ChildrenKept s.records)
    (he : IsEntry staged request.filesystemId e) (he' : IsEntry staged request.filesystemId e')
    (hcookie : e'.cookie = e.cookie) : e' = e := by
  cases h.placement hs hkept he with
  | kept e₀ hbefore hparent hname hcookie₀ hchild₀ =>
    cases h.placement hs hkept he' with
    | kept e₁ hbefore' hparent' hname' hcookie₁ hchild₁ =>
      obtain rfl := hunique e₀ e₁ hbefore hbefore' (hcookie₁.trans (hcookie.trans hcookie₀.symm))
      exact isEntry_unique he he' (hparent'.symm.trans hparent) (hname'.symm.trans hname)
    | brought e₁ hmember hstamped horigin =>
      exact (kept_ne_brought hs hunique he hbefore hparent hname (hcookie₀.trans hcookie.symm)
        horigin).elim
  | brought e₀ hmember hstamped horigin =>
    cases h.placement hs hkept he' with
    | kept e₁ hbefore' hparent' hname' hcookie₁ hchild₁ =>
      exact (kept_ne_brought hs hunique he' hbefore' hparent' hname' (hcookie₁.trans hcookie)
        horigin).elim
    | brought e₁ hmember' hstamped' horigin' =>
      subst hstamped hstamped'
      rw [List.inj_on_of_nodup_map hdistinct hmember' hmember hcookie]

/-- **One call** that is orderly keeps the cookies unique. -/
theorem CallEffect.cookiesUnique {step : AuthorityStep} (h : CallEffect contract step)
    (hs : Sound contract.limits step.before.records) (horderly : Orderly fs step)
    (hunique : CookiesUnique fs step.before) : CookiesUnique fs step.after := by
  rcases h.frame_or_commit fs with hframe | ⟨request, event, rfl, commits, published, staged⟩
  · intro e e' he he' hcookie
    unfold IsEntry at he he'
    rw [hframe _ rfl rfl] at he he'
    exact hunique e e' he he' hcookie
  · exact fun e e' he he' hcookie => staged.cookiesUnique hs hunique
      (horderly.cookies request commits published rfl)
      (horderly.children request commits published rfl) he he' hcookie

/-- **One call** that is orderly hands out cookies past the counter only. -/
theorem cookies_continues {step : AuthorityStep} (h : CallEffect contract step)
    (hs : Sound contract.limits step.before.records) (horderly : Orderly fs step) :
    (cookies fs).Continues step.before step.after := by
  intro n hn
  obtain ⟨header, hheader, rfl⟩ := Option.map_eq_some_iff.1 hn
  obtain ⟨header', hheader', hadvance⟩ := HeaderContinues.of_effect h horderly.header header hheader
  refine ⟨_, Option.map_eq_some_iff.2 ⟨header', hheader', rfl⟩,
    UInt64.le_iff_toNat_le.1 hadvance.cookie, ?_⟩
  rintro child _ ⟨e', he', rfl, rfl⟩
  rcases h.frame_or_commit fs with hframe | ⟨request, event, rfl, commits, published, staged⟩
  · exact .inl ⟨e', (hframe _ rfl rfl).symm.trans he', rfl, rfl⟩
  · cases staged.placement hs (horderly.children request commits published rfl) he' with
    | kept e₀ hbefore _ _ hcookie hchild => exact .inl ⟨e₀, hbefore, hchild, by rw [hcookie]⟩
    | brought e₀ _ _ horigin =>
      rcases horigin with ⟨old, hold, -, hcookie, hchild⟩ | hfresh
      · exact .inl ⟨old, hold, hchild, by rw [hcookie]⟩
      · exact .inr (UInt64.le_iff_toNat_le.1 (hfresh header hheader))

theorem cookies_consistent (hs : Sound contract.limits s.records) (hunique : CookiesUnique fs s) :
    (cookies fs).Consistent s where
  below := by
    rintro child _ ⟨e, he, -, rfl⟩
    obtain ⟨-, header, hheader, hlt⟩ := hs.entry he
    exact ⟨_, Option.map_eq_some_iff.2 ⟨header, hheader, rfl⟩, UInt64.lt_iff_toNat_lt.1 hlt⟩
  unique := by
    rintro i j k ⟨e, he, rfl, rfl⟩ ⟨e', he', rfl, hk⟩
    have hcookie : e'.cookie = e.cookie := by
      cases hc : e.cookie
      cases hc' : e'.cookie
      simpa [hc, hc', UInt64.toNat_inj] using hk
    rw [hunique e e' he he' hcookie]

end CookieSteps

/-- **Directory cookies are unique**, and keep their child, in every history whose accepted commits
keep the header, bring each cookie once and keep the children of the entries they replace. -/
theorem cookiesUnique_run (contract : Contract) (clock : LeaseDeadline) (fs : FilesystemId)
    (before after : List Call)
    (horderly : ∀ step ∈ trace (authority contract) (.new clock) (before ++ after), Orderly fs step) :
    CookiesUnique fs (finalState (authority contract) (.new clock) (before ++ after)) ∧
    ∀ e e', IsEntry (finalState (authority contract) (.new clock) before).records fs e →
      IsEntry (finalState (authority contract) (.new clock) (before ++ after)).records fs e' →
      e'.cookie = e.cookie → e'.childInodeId = e.childInodeId := by
  have hsound := sound_run contract clock before
  have hunique : ∀ calls, (∀ step ∈ trace (authority contract) (.new clock) calls, Orderly fs step) →
      CookiesUnique fs (finalState (authority contract) (.new clock) calls) := by
    intro calls hcalls
    refine relates_run contract (R := fun s t => CookiesUnique fs s → CookiesUnique fs t)
      (fun _ => id) (fun hst htu => htu ∘ hst) (fun h hs => h.cookiesUnique hs) (sound_empty _) calls
      hcalls ?_
    intro e e' he
    cases he
  rw [trace_append] at horderly
  refine ⟨hunique _ (by rwa [trace_append]), fun e e' he he' hcookie => ?_⟩
  rw [finalState_append] at he'
  have hcontinues : (cookies fs).Continues _ _ := relates_run contract .refl .trans cookies_continues
    hsound after fun step hstep => horderly step (List.mem_append_right _ hstep)
  have hearlier := hunique before fun step hstep => horderly step (List.mem_append_left _ hstep)
  exact hcontinues.holder_eq (cookies_consistent hsound hearlier) ⟨e, he, rfl, rfl⟩
    ⟨e', he', rfl, by rw [hcookie]⟩

/-! ### Commits that share or retarget a cookie -/

/-- A root with a directory and two files in it; the first file has cookie two. -/
def bootstrapTree : CommitRequest :=
  let q := sampleName 0x71 (by decide)
  sampleCommit ⟨2⟩
    [.insert (.filesystem ⟨1⟩) (.filesystem { sampleHeader with
        nextDirectoryCookie := ⟨.ofNat 4⟩
        cookie_ne := cookie_succ_ne 3 }),
      .insert (.inode ⟨1⟩ ⟨1⟩) (.inode (sampleDirectory ⟨1⟩ ⟨1⟩ (.one _))),
      .insert (.inode ⟨1⟩ ⟨2⟩) (.inode (sampleDirectory ⟨2⟩ ⟨1⟩ (qidAfter 1))),
      .insert (.inode ⟨1⟩ ⟨3⟩) (.inode (sampleFifo ⟨3⟩ (qidAfter 2) 1)),
      .insert (.inode ⟨1⟩ ⟨4⟩) (.inode (sampleFifo ⟨4⟩ (qidAfter 3) 1)),
      .insert (.directoryEntry ⟨1⟩ ⟨1⟩ nameD)
        (.directoryEntry (sampleEntry ⟨1⟩ ⟨2⟩ nameD 0)),
      .insert (.directoryEntry ⟨1⟩ ⟨1⟩ nameP)
        (.directoryEntry (sampleEntry ⟨1⟩ ⟨3⟩ nameP 1)),
      .insert (.directoryEntry ⟨1⟩ ⟨1⟩ q) (.directoryEntry (sampleEntry ⟨1⟩ ⟨4⟩ q 2))]

/-- The entry with cookie two is deleted, and two entries of its child take the cookie. -/
def shareCookie : CommitRequest :=
  let x := sampleName 0x78 (by decide)
  sampleCommit ⟨3⟩
    [.delete (.directoryEntry ⟨1⟩ ⟨1⟩ nameP),
      .insert (.directoryEntry ⟨1⟩ ⟨1⟩ x) (.directoryEntry (sampleEntry ⟨1⟩ ⟨3⟩ x 1)),
      .insert (.directoryEntry ⟨1⟩ ⟨2⟩ x) (.directoryEntry (sampleEntry ⟨2⟩ ⟨3⟩ x 1)),
      .adjustLinkCount ⟨3⟩ (.increase ⟨1, Counter.one_ne⟩),
      .bumpDirectoryGeneration ⟨1⟩, .bumpDirectoryGeneration ⟨2⟩]

/-- The entry with cookie two is replaced by one of the other file. -/
def retarget : CommitRequest :=
  sampleCommit ⟨3⟩
    [.replace (.directoryEntry ⟨1⟩ ⟨1⟩ nameP)
        (.directoryEntry (sampleEntry ⟨1⟩ ⟨4⟩ nameP 1)),
      .delete (.inode ⟨1⟩ ⟨3⟩), .adjustLinkCount ⟨4⟩ (.increase ⟨1, Counter.one_ne⟩),
      .bumpDirectoryGeneration ⟨1⟩]

/-- The authority after the tree and the commits given. -/
def treeRun (commits : List CommitRequest) : AuthorityState :=
  finalState (authority sampleContract) (.new ⟨0⟩)
    (sampleAcquire :: .commit bootstrapTree :: commits.map .commit)

/-- The first file is deleted with its entry, and another one takes its name. -/
def recreate : List CommitRequest :=
  [sampleCommit ⟨3⟩ [.delete (.directoryEntry ⟨1⟩ ⟨1⟩ nameP), .delete (.inode ⟨1⟩ ⟨3⟩),
      .bumpDirectoryGeneration ⟨1⟩],
    sampleCommit ⟨4⟩ [.insert (.inode ⟨1⟩ ⟨5⟩) (.inode (sampleFifo ⟨5⟩ (qidAfter 4) 1)),
      .insert (.directoryEntry ⟨1⟩ ⟨1⟩ nameP) (.directoryEntry (sampleEntry ⟨1⟩ ⟨5⟩ nameP 3)),
      .advanceQidPath ⟨1, Counter.one_ne⟩, .advanceDirectoryCookie ⟨1, Counter.one_ne⟩,
      .bumpDirectoryGeneration ⟨1⟩]]

/-- The QID paths of the two files before and after `recreate`. -/
theorem neverReused_recreate :
    NeverReused ⟨1⟩ (treeRun []) (treeRun recreate) ∧
    [3, 5].map (fun i => (inodeAt (treeRun []).records ⟨1⟩ ⟨i⟩).map (·.qidPath.get)) = [some 3, none] ∧
    [3, 5].map (fun i => (inodeAt (treeRun recreate).records ⟨1⟩ ⟨i⟩).map (·.qidPath.get)) =
      [none, some 5] := by
  have hkeeps : ∀ request ∈ recreate, StateChange.delete (.filesystem ⟨1⟩) ∉ request.changes := by decide
  refine ⟨?_, by decide +kernel⟩
  refine neverReused_run sampleContract ⟨0⟩ ⟨1⟩ [sampleAcquire, .commit bootstrapTree]
    (recreate.map .commit) fun step hstep request hcommits _ => ?_
  have hinput := input_mem_of_mem_trace hstep
  rw [hcommits] at hinput
  exact hkeeps request (by simpa using hinput)

/-- The cookie and the child of an entry. -/
def cookieAt (s : AuthorityState) (parent : InodeId) (name : EntryName) : Option (UInt64 × InodeId) :=
  match s.records[RecordKey.directoryEntry ⟨1⟩ parent name]? with
  | some (.directoryEntry entry) => some (entry.cookie.get, entry.childInodeId)
  | _ => none

theorem cookiesUnique_bootstrapTree :
    (∀ step ∈ trace (authority sampleContract) (.new ⟨0⟩) [sampleAcquire, .commit bootstrapTree],
      Orderly ⟨1⟩ step) ∧
    CookiesUnique ⟨1⟩ (treeRun []) := by
  have horderly : ∀ step ∈ trace (authority sampleContract) (.new ⟨0⟩)
      ([sampleAcquire] ++ [.commit bootstrapTree]), Orderly ⟨1⟩ step := by
    intro step hstep
    have hcommits : ∀ request, AuthorityStep.Commits step request → request = bootstrapTree := by
      intro request hrequest
      have hinput := input_mem_of_mem_trace hstep
      rw [hrequest] at hinput
      simpa [sampleAcquire] using hinput
    refine ⟨fun request hrequest _ => ?_, fun request hrequest _ _ => ?_,
      fun request hrequest _ _ key entry current hmem => ?_⟩
    · rw [hcommits request hrequest]
      decide
    · rw [hcommits request hrequest]
      decide
    · rw [hcommits request hrequest] at hmem
      simp [bootstrapTree, sampleCommit] at hmem
  exact ⟨horderly, (cookiesUnique_run sampleContract ⟨0⟩ ⟨1⟩ [sampleAcquire] [.commit bootstrapTree]
    horderly).1⟩

/-- After `shareCookie` two entries carry cookie two; after `retarget` cookie two is carried for another
child than before. -/
theorem cookies_shared_and_retargeted :
    cookieAt (treeRun []) ⟨1⟩ (sampleName 0x70 (by decide)) = some (2, ⟨3⟩) ∧
    cookieAt (treeRun [shareCookie]) ⟨1⟩ (sampleName 0x78 (by decide)) = some (2, ⟨3⟩) ∧
    cookieAt (treeRun [shareCookie]) ⟨2⟩ (sampleName 0x78 (by decide)) = some (2, ⟨3⟩) ∧
    cookieAt (treeRun [retarget]) ⟨1⟩ (sampleName 0x70 (by decide)) = some (2, ⟨4⟩) := by
  decide +kernel

end W9pt.State

import W9pt.State.ExactlyOnce
import W9pt.State.Namespace

/-!
# What a commit does to one record (`testing/memory.rs:359-592`)

A commit is a list of changes, checked against the records before it and applied one after another to
a staged copy. `validate_preflight` admits at most one change per key, the filesystem header apart, so
the record under a key is written by one change that still finds the record the validators looked at
(`single_writer`). From that come, for each family, what can happen to its record across one commit:

| here | there |
|---|---|
| `InodeAdvance`, `inode_advance` | an inode that stays: one of the mutators, or a checked replacement |
| `HeaderAdvance`, `header_advance` | the allocation counters of the header |
| `Sound` | the part of the record-set validation that a later commit relies on |
-/

namespace W9pt.State

open Lib Storage

/-! ## One writer per record -/

section Targets

variable {limits : StateLimits} {fs : FilesystemId} {allocation : Bool} {s t : TargetScan}
  {key : RecordKey}

/-- What the scan remembers only grows. -/
structure TargetScan.Grows (s t : TargetScan) : Prop where
  targets : s.targets ⊆ t.targets
  seen : s.filesystemTargetSeen = true → t.filesystemTargetSeen = true
  allocations : t.filesystemTargetOnlyAllocations = true → s.filesystemTargetOnlyAllocations = true

theorem TargetScan.Grows.refl (s : TargetScan) : s.Grows s := ⟨List.Subset.refl _, id, id⟩

theorem TargetScan.Grows.trans {u : TargetScan} (hst : s.Grows t) (htu : t.Grows u) : s.Grows u :=
  ⟨List.Subset.trans hst.targets htu.targets, htu.seen ∘ hst.seen, hst.allocations ∘ htu.allocations⟩

/-- A key that the scan accepted: it was no target before, or it is the header and everything that
targeted it, this change included, is an allocation. -/
structure TargetScan.Accepts (allocation : Bool) (key : RecordKey) (s t : TargetScan) : Prop where
  grows : s.Grows t
  target : key ∈ t.targets
  seen : key.family = .filesystem → t.filesystemTargetSeen = true
  allocations : key.family = .filesystem → t.filesystemTargetOnlyAllocations = true →
    allocation = true
  fresh : key.family ≠ .filesystem → key ∉ s.targets
  shared : key.family = .filesystem → s.filesystemTargetSeen = true →
    allocation = true ∧ s.filesystemTargetOnlyAllocations = true

theorem accepts_scanTarget (h : scanTarget allocation s key = .ok t) :
    TargetScan.Accepts allocation key s t := by
  unfold scanTarget at h
  split at h
  · rename_i hfamily
    obtain ⟨_, hguard, ht⟩ := bind_eq_ok.1 h
    have hguard := ensure_eq_ok.1 hguard
    cases ht
    exact
      { grows := ⟨fun k hk => List.mem_insert_of_mem hk, fun _ => rfl, fun h => (Bool.and_eq_true _ _ ▸ h).1⟩
        target := List.mem_insert_self
        seen := fun _ => rfl
        allocations := fun _ h => (Bool.and_eq_true _ _ ▸ h).2
        fresh := fun hne => absurd hfamily hne
        shared := fun _ hseen => hguard.resolve_left (by simp [hseen]) }
  · rename_i hfamily
    obtain ⟨_, hfresh, ht⟩ := bind_eq_ok.1 h
    cases ht
    exact
      { grows := ⟨fun k hk => List.mem_insert_of_mem hk, id, id⟩
        target := List.mem_insert_self
        seen := fun heq => absurd heq hfamily
        allocations := fun heq => absurd heq hfamily
        fresh := fun _ => ensure_eq_ok.1 hfresh
        shared := fun heq => absurd heq hfamily }

theorem grows_count (scan : TargetScan) (family : RecordFamily) :
    scan.Grows (scan.count family) ∧ (scan.count family).Grows scan := by
  cases family <;> exact ⟨⟨List.Subset.refl _, id, id⟩, ⟨List.Subset.refl _, id, id⟩⟩

/-- The scan may go on after the key. -/
theorem TargetScan.Accepts.later {u : TargetScan} (h : TargetScan.Accepts allocation key s t)
    (htu : t.Grows u) : TargetScan.Accepts allocation key s u :=
  { grows := h.grows.trans htu
    target := htu.targets h.target
    seen := htu.seen ∘ h.seen
    allocations := fun hf hu => h.allocations hf (htu.allocations hu)
    fresh := h.fresh
    shared := h.shared }

/-- The scan may have gone on before the key. -/
theorem TargetScan.Accepts.earlier {u : TargetScan} (h : TargetScan.Accepts allocation key t u)
    (hst : s.Grows t) : TargetScan.Accepts allocation key s u :=
  { grows := hst.trans h.grows
    target := h.target
    seen := h.seen
    allocations := h.allocations
    fresh := fun hf hmem => h.fresh hf (hst.targets hmem)
    shared := fun hf hseen => (h.shared hf (hst.seen hseen)).imp_right hst.allocations }

theorem accepts_scanKey (h : scanKey limits fs allocation s key = .ok t) :
    TargetScan.Accepts allocation key s t := by
  simp only [scanKey, bind_eq_ok, pure_eq_ok] at h
  obtain ⟨_, -, _, -, scan, hscan, rfl⟩ := h
  exact (accepts_scanTarget hscan).later (grows_count scan _).1

theorem accepts_scanKeys {keys : List RecordKey}
    (h : keys.foldlM (scanKey limits fs allocation) s = .ok t) :
    s.Grows t ∧ ∀ k ∈ keys, TargetScan.Accepts allocation k s t := by
  induction keys generalizing s with
  | nil =>
    cases h
    exact ⟨.refl _, by simp⟩
  | cons key keys ih =>
    obtain ⟨mid, hmid, hrest⟩ := foldlM_cons_eq_ok.1 h
    have haccepts := accepts_scanKey hmid
    obtain ⟨hgrows, hkeys⟩ := ih hrest
    refine ⟨haccepts.grows.trans hgrows, List.forall_mem_cons.2 ⟨haccepts.later hgrows, ?_⟩⟩
    exact fun k hk => (hkeys k hk).earlier haccepts.grows

end Targets

/-- The change is one of the two allocations that may share the header. -/
def StateChange.allocates : StateChange → Bool
  | advanceDirectoryCookie _ | advanceQidPath _ => true
  | _ => false

section Changes

variable {limits : StateLimits} {fs : FilesystemId} {s t : TargetScan} {change : StateChange}

theorem scanAllocation_grows {flag : Bool} (h : scanAllocation fs s change = .ok (flag, t)) :
    flag = change.allocates ∧ s.Grows t := by
  cases change with
  | advanceDirectoryCookie count | advanceQidPath count =>
    obtain ⟨_, -, ht⟩ := bind_eq_ok.1 h
    cases ht
    exact ⟨rfl, List.Subset.refl _, id, id⟩
  | _ =>
    cases h
    exact ⟨rfl, .refl s⟩

theorem accepts_scanChange {mutation : MutationContext}
    (h : scanChange limits fs mutation s change = .ok t) :
    s.Grows t ∧ ∀ k ∈ change.affectedKeys fs, TargetScan.Accepts change.allocates k s t := by
  simp only [scanChange, bind_eq_ok, pure_eq_ok] at h
  obtain ⟨⟨flag, scan⟩, hallocation, _, hkeys, _, -, rfl⟩ := h
  obtain ⟨rfl, hgrows⟩ := scanAllocation_grows hallocation
  obtain ⟨hrest, haccepts⟩ := accepts_scanKeys hkeys
  exact ⟨hgrows.trans hrest, fun k hk => (haccepts k hk).earlier hgrows⟩

end Changes

/-- The changes write no key in common, but for allocations from the header. -/
def StateChange.Disjoint (fs : FilesystemId) (a b : StateChange) : Prop :=
  ∀ key ∈ a.affectedKeys fs, key ∈ b.affectedKeys fs →
    key.family = .filesystem ∧ a.allocates = true ∧ b.allocates = true

/-- What the scan remembers of a change. -/
def TargetScan.Remembers (fs : FilesystemId) (scan : TargetScan) (change : StateChange) : Prop :=
  ∀ k ∈ change.affectedKeys fs, k ∈ scan.targets ∧ (k.family = .filesystem →
    scan.filesystemTargetSeen = true ∧
    (scan.filesystemTargetOnlyAllocations = true → change.allocates = true))

theorem CommitRequest.changes_disjoint {limits : StateLimits} {request : CommitRequest}
    (h : request.validatePreflight limits = .ok ()) :
    request.changes.Pairwise (StateChange.Disjoint request.filesystemId) := by
  simp only [validatePreflight, bind_eq_ok] at h
  obtain ⟨_, -, _, -, _, -, _, -, _, -, scan, hscan, -⟩ := h
  refine (foldlM_ok_pairwise (S := TargetScan.Remembers request.filesystemId) ?_ ?_ ?_ hscan).1
  · intro s a t b hc hb k hk
    obtain ⟨hmem, hheader⟩ := hb k hk
    have hgrows := (accepts_scanChange hc).1
    exact ⟨hgrows.targets hmem, fun hf => ⟨hgrows.seen (hheader hf).1,
      fun ht => (hheader hf).2 (hgrows.allocations ht)⟩⟩
  · intro s a t hc k hk
    have haccepts := (accepts_scanChange hc).2 k hk
    exact ⟨haccepts.target, fun hf => ⟨haccepts.seen hf, haccepts.allocations hf⟩⟩
  · intro s a t b hc hb key hkb hka
    obtain ⟨hmem, hheader⟩ := hb key hkb
    have haccepts := (accepts_scanChange hc).2 key hka
    by_cases hf : key.family = .filesystem
    · obtain ⟨hallocates, honly⟩ := haccepts.shared hf (hheader hf).1
      exact ⟨hf, (hheader hf).2 honly, hallocates⟩
    · exact absurd hmem (haccepts.fresh hf)

theorem mutateRecord_eq_ok {records after : RecordMap} {key : RecordKey} {rev : RecordRevision}
    {mutate : StateRecord → Except CounterOverflow StateRecord} :
    mutateRecord records key rev mutate = .ok after ↔ ∃ record record',
      records[key]? = some record ∧ mutate record = .ok record' ∧
      after = records.insert key (record'.withRevision rev) := by
  simp only [mutateRecord, bind_eq_ok, okOr_eq_ok, mapErr_eq_ok, pure_eq_ok]
  constructor
  · rintro ⟨record, hget, record', hmutate, rfl⟩
    exact ⟨record, record', hget, hmutate, rfl⟩
  · rintro ⟨record, record', hget, hmutate, rfl⟩
    exact ⟨record, hget, record', hmutate, rfl⟩

section Writer

variable {contract : Contract} {s : AuthorityState} {request : CommitRequest} {staged : RecordMap}
  {event : ChangeEvent} {change : StateChange} {key : RecordKey}

/-- The change was applied to staged records that still hold, under the keys it writes, the records
before the commit, and what it leaves there is what the commit leaves. -/
structure Writes (contract : Contract) (s : AuthorityState) (request : CommitRequest)
    (staged : RecordMap) (event : ChangeEvent) (change : StateChange) : Prop where
  member : change ∈ request.changes
  applied : ∃ mid mid', applyChange mid request.filesystemId request.mutation change
      event.revision.toRecord contract.limits = .ok mid' ∧
    ∀ key ∈ change.affectedKeys request.filesystemId,
      ¬ (key.family = .filesystem ∧ change.allocates = true) →
      mid[key]? = s.records[key]? ∧ staged[key]? = mid'[key]?

section

variable (h : Staged contract s request staged event)

include h

/-- Outside the ledger the staged records are those the changes leave. -/
theorem Staged.getElem?_base :
    ∃ base, stageChanges contract.limits request event.revision.toRecord s.records = .ok base ∧
      validateRecordSetWithLimits base contract.limits = .ok () ∧
      ∀ key : RecordKey, key.family ≠ .mutation → staged[key]? = base[key]? := by
  obtain ⟨base, hbase, hvalid, rfl⟩ := h.applied
  refine ⟨base, hbase, hvalid, fun key hkey => ?_⟩
  rw [Std.ExtTreeMap.getElem?_insert, if_neg]
  rw [Std.compare_eq_iff_eq]
  rintro rfl
  exact hkey rfl

theorem Staged.affected_family (hc : change ∈ request.changes)
    (hk : key ∈ change.affectedKeys request.filesystemId) :
    key.family ≠ .mutation ∧ key.family ≠ .writerLease := by
  have howned := CommitRequest.affected_storeOwned h.preflight hc hk
  simpa [RecordKey.storeOwned] using howned

/-- **One writer**: each change of a commit writes records no other change of it writes. -/
theorem Staged.writes (hc : change ∈ request.changes) :
    Writes contract s request staged event change := by
  obtain ⟨base, hbase, -, hstaged⟩ := h.getElem?_base
  obtain ⟨l₁, l₂, mid, mid', hchanges, h₁, hmid, h₂⟩ := foldlM_ok_split hbase hc
  have hdisjoint := CommitRequest.changes_disjoint h.preflight
  rw [hchanges] at hdisjoint
  have hbefore := stamps_applyChanges l₁ h₁
  have hafter := stamps_applyChanges l₂ h₂
  refine ⟨hc, mid, mid', hmid, fun key hkey hne => ⟨hbefore.frame ?_, ?_⟩⟩
  · intro hmem
    obtain ⟨other, hother, hko⟩ := List.mem_flatMap.1 hmem
    obtain ⟨hf, -, hallocates⟩ := (List.pairwise_append.1 hdisjoint).2.2 other hother change
      List.mem_cons_self key hko hkey
    exact hne ⟨hf, hallocates⟩
  · rw [hstaged key (h.affected_family hc hkey).1]
    refine hafter.frame fun hmem => ?_
    obtain ⟨other, hother, hko⟩ := List.mem_flatMap.1 hmem
    obtain ⟨hf, hallocates, -⟩ := (List.pairwise_cons.1 (List.pairwise_append.1 hdisjoint).2.1).1
      other hother key hkey hko
    exact hne ⟨hf, hallocates⟩

end

/-- What a change makes of the record under its key, where that is all it writes. -/
def StateChange.Makes (revision : RecordRevision) (before after : Option StateRecord) : StateChange → Prop
  | .insert _ record => before = none ∧ after = some (record.withRevision revision)
  | .replace _ record => (∃ current, before = some current) ∧ after = some (record.withRevision revision)
  | .delete _ => (∃ current, before = some current) ∧ after = none
  | .moveDirectoryEntry .. | .retainResult | .publishContent _ | .rewrapContentMetadata _
  | .publishXattrStaging _ => True
  | change => ∃ current record, before = some current ∧ change.mutate current = .ok record ∧
      after = some (record.withRevision revision)

theorem Staged.makes (h : Staged contract s request staged event) (hc : change ∈ request.changes)
    (hk : key ∈ change.affectedKeys request.filesystemId)
    (hone : ¬ (key.family = .filesystem ∧ change.allocates = true)) :
    change.Makes event.revision.toRecord s.records[key]? staged[key]? := by
  obtain ⟨mid, mid', happlied, hkeys⟩ := (h.writes hc).applied
  obtain ⟨hmid, hstaged⟩ := hkeys key hk hone
  rw [← hmid, hstaged]
  cases change with
  | insert =>
    obtain rfl := List.mem_singleton.1 hk
    simp only [applyChange, bind_eq_ok, ensure_eq_ok, pure_eq_ok] at happlied
    obtain ⟨_, habsent, _, -, rfl⟩ := happlied
    exact ⟨by simpa using habsent, Std.ExtTreeMap.getElem?_insert_self⟩
  | replace =>
    obtain rfl := List.mem_singleton.1 hk
    simp only [applyChange, bind_eq_ok, okOr_eq_ok, pure_eq_ok] at happlied
    obtain ⟨current, hcurrent, _, -, rfl⟩ := happlied
    exact ⟨⟨current, hcurrent⟩, Std.ExtTreeMap.getElem?_insert_self⟩
  | delete =>
    obtain rfl := List.mem_singleton.1 hk
    simp only [applyChange, bind_eq_ok, ensure_eq_ok, pure_eq_ok] at happlied
    obtain ⟨_, hpresent, rfl⟩ := happlied
    exact ⟨Option.isSome_iff_exists.1 (Std.ExtTreeMap.mem_iff_isSome_getElem?.1 hpresent),
      Std.ExtTreeMap.getElem?_erase_self⟩
  | moveDirectoryEntry | retainResult | publishContent | rewrapContentMetadata | publishXattrStaging =>
    trivial
  | _ =>
    obtain rfl := List.mem_singleton.1 hk
    obtain ⟨current, record, hget, hmutate, rfl⟩ := mutateRecord_eq_ok.1 happlied
    exact ⟨current, record, hget, hmutate, Std.ExtTreeMap.getElem?_insert_self⟩

/-- A record is left alone or written by one change. -/
theorem Staged.written (h : Staged contract s request staged event) (key : RecordKey)
    (hkey : key.family ≠ .mutation) :
    staged[key]? = s.records[key]? ∨
      ∃ change ∈ request.changes, key ∈ change.affectedKeys request.filesystemId := by
  rcases h.stamps key with hsame | ⟨hmem, -⟩
  · exact .inl hsame
  · rcases List.mem_cons.1 hmem with rfl | hmem
    · exact absurd rfl hkey
    · obtain ⟨change, hc, hk⟩ := List.mem_flatMap.1 hmem
      exact .inr ⟨change, hc, hk⟩

end Writer

/-! ## What the validators saw -/

section Validators

variable {contract : Contract} {s : AuthorityState} {request : CommitRequest} {staged : RecordMap}
  {event : ChangeEvent} {header : FilesystemRecord} {key : RecordKey}

section

variable (h : Staged contract s request staged event)

include h

theorem Staged.transitions :
    validateDirectoryCookieTransition s.records request = .ok () ∧
    validateQidPathTransition s.records request = .ok () ∧
    validateMonotonicTransitions s.records request = .ok () := by
  have htransition := h.transition
  simp only [checkTransition, bind_eq_ok] at htransition
  obtain ⟨_, hcookie, _, hqid, _, hmonotonic, -⟩ := htransition
  exact ⟨hcookie, hqid, hmonotonic⟩

section

variable (hh : filesystemAt s.records request.filesystemId = some header)

include hh

/-- Both loops of `validate_monotonic_transitions` accepted the request. -/
theorem Staged.monotonic :
    (∀ parent ∈ request.namespaceParents s.records, ∃ change ∈ request.changes,
      change.advancesParent s.records request.filesystemId parent = true) ∧
    ∀ change ∈ request.changes, checkReplacement s.records request
      (request.namespaceParents s.records) change = .ok () := by
  have hmonotonic := h.transitions.2.2
  have hmem : RecordKey.filesystem request.filesystemId ∈ s.records := by
    rw [Std.ExtTreeMap.mem_iff_isSome_getElem?, filesystemAt_eq_some.1 hh]
    rfl
  simp only [validateMonotonicTransitions, hmem, not_true_eq_false, if_false, bind_eq_ok] at hmonotonic
  obtain ⟨_, hparents, hreplacements⟩ := hmonotonic
  refine ⟨fun parent hparent => ?_, forM_eq_ok.1 hreplacements⟩
  simpa using forM_eq_ok.1 hparents parent hparent

theorem Staged.replacement {record current : StateRecord}
    (hc : StateChange.replace key record ∈ request.changes)
    (hcurrent : s.records[key]? = some current) :
    replacementValid s.records request (request.namespaceParents s.records) current record = true := by
  have hcheck := (h.monotonic hh).2 _ hc
  simpa [checkReplacement, hcurrent] using hcheck

/-- The loop of `validate_qid_path_transition` over the changes. -/
theorem Staged.qidScan :
    ∃ a : Allocation QidPath, request.changes.foldlM (checkQidChange s.records)
      { next := header.nextQidPath } = .ok a ∧ a.allocations = a.declared := by
  have hqid := h.transitions.2.1
  simpa [validateQidPathTransition, filesystemAt_eq_some.1 hh, bind_eq_ok] using hqid

/-- The loop of `validate_directory_cookie_transition` over the changes. -/
theorem Staged.cookieScan :
    ∃ a : Allocation DirectoryCookie, request.changes.foldlM
      (checkCookieChange s.records request.filesystemId
        (request.changes.filterMap (·.removedEntry s.records request.filesystemId)))
      { next := header.nextDirectoryCookie } = .ok a ∧ a.allocations = a.declared := by
  have hcookie := h.transitions.1
  simpa [validateDirectoryCookieTransition, filesystemAt_eq_some.1 hh, bind_eq_ok] using hcookie

end

end

end Validators

/-! ## Inodes -/

/-- An optional counter as a number; a counter is never zero. -/
def Counter.number {kind : CounterKind} : Option (Counter kind) → Nat
  | some counter => counter.get.toNat
  | none => 0

theorem Counter.number_inj {kind : CounterKind} {a b : Option (Counter kind)}
    (h : Counter.number a = Counter.number b) : a = b := by
  cases a with
  | none =>
    cases b with
    | none => rfl
    | some d => exact absurd h d.toNat_pos.ne
  | some c =>
    cases b with
    | none => exact absurd h c.toNat_pos.ne'
    | some d => rw [Counter.ext (UInt64.toNat_inj.1 h)]

/-- The generation of the content: zero before the first publication and for inodes without
content. -/
def InodeRecord.dataNumber (r : InodeRecord) : Nat := Counter.number r.dataGeneration

/-- What a commit that rewrites an inode does to it. -/
structure InodeAdvance (r r' : InodeRecord) : Prop where
  generation : r.inodeGeneration.checkedNext = .ok r'.inodeGeneration
  qidPath : r'.qidPath = r.qidPath
  kind : r'.kind = r.kind
  directory : r'.directoryGeneration = r.directoryGeneration ∨
    directoryGenerationAdvancesOnce r r' = true
  contentFileId : r'.contentFileId = r.contentFileId
  content : r'.dataGeneration = r.dataGeneration ∧ r'.contentBase = r.contentBase ∨
    r.dataNumber < r'.dataNumber

namespace InodeAdvance

variable {r r' : InodeRecord} {parents : List InodeId}

/-- A rewrite that keeps the data. -/
theorem of_data (hgeneration : r.inodeGeneration.checkedNext = .ok r'.inodeGeneration)
    (hqid : r'.qidPath = r.qidPath) (hdata : r'.data = r.data) : InodeAdvance r r' where
  generation := hgeneration
  qidPath := hqid
  kind := by rw [InodeRecord.kind, hdata, InodeRecord.kind]
  directory := .inl (by rw [InodeRecord.directoryGeneration, hdata, InodeRecord.directoryGeneration])
  contentFileId := by rw [InodeRecord.contentFileId, hdata, InodeRecord.contentFileId]
  content := .inl ⟨by rw [InodeRecord.dataGeneration, hdata, InodeRecord.dataGeneration],
    by rw [InodeRecord.contentBase, hdata, InodeRecord.contentBase]⟩

theorem bumpInodeGeneration (h : r.bumpInodeGeneration = .ok r') : InodeAdvance r r' := by
  obtain ⟨next, hnext, hr⟩ := bind_eq_ok.1 h
  cases hr
  exact of_data hnext rfl rfl

theorem adjustLinkCount {adjustment : CounterAdjustment}
    (h : r.adjustLinkCount adjustment = .ok r') : InodeAdvance r r' := by
  simp only [InodeRecord.adjustLinkCount, bind_eq_ok] at h
  obtain ⟨_, -, next, hnext, hr⟩ := h
  cases hr
  exact of_data hnext rfl rfl

theorem bumpDirectoryGeneration (h : r.bumpDirectoryGeneration = .ok r') :
    InodeAdvance r r' ∧ directoryGenerationAdvancesOnce r r' = true := by
  unfold InodeRecord.bumpDirectoryGeneration at h
  split at h
  · rename_i generation parent hdata
    obtain ⟨next, hnext, h⟩ := bind_eq_ok.1 h
    obtain ⟨inodeNext, hinode, hr⟩ := bind_eq_ok.1 h
    cases hr
    have honce : directoryGenerationAdvancesOnce r
        { r with
          data := .directory next parent
          inodeGeneration := inodeNext
          data_valid := by simpa [hdata, validateInodeData] using r.data_valid } = true := by
      simp [directoryGenerationAdvancesOnce, InodeRecord.directoryGeneration, hdata,
        toOption_eq_some, hnext]
    refine ⟨⟨hinode, rfl, ?_, .inr honce, ?_, .inl ⟨?_, ?_⟩⟩, honce⟩
    · simp [InodeRecord.kind, hdata, InodeData.kind]
    · simp [InodeRecord.contentFileId, hdata]
    · simp [InodeRecord.dataGeneration, hdata]
    · simp [InodeRecord.contentBase, hdata]
  · cases h

end InodeAdvance

/-- What the data of an inode says of its content: an unpublished file has generation zero. -/
theorem InodeRecord.contentBase_generation {r : InodeRecord} {base : BaseContentIdentity}
    (h : r.contentBase = some base) : base.generation.toNat = r.dataNumber := by
  have hvalid := r.data_valid
  unfold InodeRecord.contentBase at h
  split at h
  · rename_i file content generation hdata
    simp only [hdata, validateInodeData, bind_eq_ok, ensure_eq_ok] at hvalid
    obtain ⟨_, -, _, -, hgeneration, hne⟩ := hvalid
    cases h
    simp [InodeRecord.dataNumber, InodeRecord.dataGeneration, hdata, Counter.new?, hne,
      BaseContentIdentity.fromContent, hgeneration, Counter.number]
  · rename_i file generation hdata
    simp only [hdata, validateInodeData, ensure_eq_ok] at hvalid
    cases h
    simp [InodeRecord.dataNumber, InodeRecord.dataGeneration, hdata, Counter.new?, hvalid.2,
      BaseContentIdentity.newFile, Counter.number]
  · cases h

namespace InodeRecord

variable {r r' : InodeRecord}

theorem dataNumber_of_contentBase_none (h : r.contentBase = none) : r.dataNumber = 0 := by
  unfold contentBase at h
  unfold dataNumber dataGeneration
  cases hdata : r.data with
  | regularFile file content generation => cases content <;> simp [hdata] at h
  | _ => rfl

/-- The content identity determines the content generation. -/
theorem dataGeneration_eq_of_contentBase (h : r'.contentBase = r.contentBase) :
    r'.dataGeneration = r.dataGeneration := by
  apply Counter.number_inj
  show r'.dataNumber = r.dataNumber
  cases hbase : r.contentBase with
  | none => rw [dataNumber_of_contentBase_none hbase, dataNumber_of_contentBase_none (h.trans hbase)]
  | some base =>
    rw [← contentBase_generation hbase, ← contentBase_generation (h.trans hbase)]

theorem contentBase_eq_of_content (hfile : r'.contentFileId = r.contentFileId)
    (hcontent : r'.content = r.content) : r'.contentBase = r.contentBase := by
  unfold contentFileId at hfile
  unfold content at hcontent
  unfold contentBase
  cases hr : r.data with
  | regularFile file content generation =>
    cases hr' : r'.data with
    | regularFile file' content' generation' =>
      simp only [hr, hr'] at hcontent
      subst hcontent
      cases content' <;> rfl
    | _ => simp [hr, hr'] at hfile
  | _ =>
    cases hr' : r'.data with
    | regularFile file' content' generation' => simp [hr, hr'] at hfile
    | _ => rfl

end InodeRecord

namespace InodeAdvance

variable {r r' : InodeRecord}

/-- A publication reaches the next content generation, or hands on the content it started from. -/
theorem publishContent {publication : PublishContent} {mutation : MutationContext}
    (h : validatePublishContent publication mutation r = .ok ())
    (hdata : validateInodeData publication.logicalSize (InodeRecord.publishedData publication)
      = .ok ()) : InodeAdvance r (r.publishContent publication hdata) := by
  simp only [validatePublishContent, bind_eq_ok, ensure_eq_ok, mapErr_eq_ok] at h
  obtain ⟨_, hkind, _, -, _, hidentity, _, hbase, _, hfile, _, -, generation, hgeneration, _,
    ⟨hcontent, hnumber⟩, next, hnext, hinode⟩ := h
  have hbase' : (r.publishContent publication hdata).contentBase =
      some (.fromContent publication.prepared.content) := rfl
  have hold := InodeRecord.contentBase_generation hbase
  have hnew := InodeRecord.contentBase_generation hbase'
  refine ⟨hnext.trans (by rw [← hinode]; rfl), rfl, hkind.symm, .inl ?_, hfile.symm, ?_⟩
  · have hdir : r.data.kind = .regularFile := hkind
    unfold InodeRecord.directoryGeneration
    cases hr : r.data <;> simp_all [InodeData.kind, InodeRecord.publishContent,
      InodeRecord.publishedData]
  · unfold PublishContent.expectedGeneration at hgeneration
    split at hgeneration
    · -- the content changed: the generation is one more than that of the base
      right
      have hadd := checkedAdd_eq_some.1 (okOr_eq_ok.1 hgeneration)
      have hone : (1 : UInt64).toNat = 1 := rfl
      rw [← hold, ← hnew]
      show _ < publication.prepared.content.generation.toNat
      rw [hcontent]
      omega
    · left
      rename_i hunchanged
      have hsame := publication.prepared.fromContent_unchanged (by simpa using hunchanged)
      have heq : (r.publishContent publication hdata).contentBase = r.contentBase := by
        rw [hbase', hbase, hsame, hidentity]
      exact ⟨InodeRecord.dataGeneration_eq_of_contentBase heq, heq⟩

/-- What `validate_monotonic_transitions` and `validate_qid_path_transition` leave of a
replacement. -/
theorem of_replacementValid {records : RecordMap} {request : CommitRequest} {parents : List InodeId}
    (h : replacementValid records request parents (.inode r) (.inode r') = true)
    (hqid : r.qidPath = r'.qidPath) : InodeAdvance r r' := by
  simp only [replacementValid, Bool.and_eq_true, beq_iff_eq, toOption_eq_some] at h
  obtain ⟨⟨⟨⟨⟨⟨hkind, hgeneration⟩, hcontent⟩, hfile⟩, -⟩, hdirectory⟩, -⟩ := h
  have hbase := InodeRecord.contentBase_eq_of_content hfile.symm hcontent.symm
  refine ⟨hgeneration, hqid.symm, hkind.symm, ?_, hfile.symm,
    .inl ⟨InodeRecord.dataGeneration_eq_of_contentBase hbase, hbase⟩⟩
  unfold directoryGenerationValid at hdirectory
  unfold directoryGenerationAdvancesOnce
  cases hold : r.directoryGeneration with
  | none => cases hnew : r'.directoryGeneration <;> simp_all
  | some old =>
    cases hnew : r'.directoryGeneration with
    | none => simp_all
    | some new =>
      simp only [hold, hnew] at hdirectory
      split at hdirectory
      · exact .inr hdirectory
      · exact .inl (by rw [beq_iff_eq.1 hdirectory])

/-- The revision stamped on a rewritten inode plays no part. -/
theorem withRevision (h : InodeAdvance r r') (rev : RecordRevision) :
    InodeAdvance r { r' with revision := rev } :=
  ⟨h.generation, h.qidPath, h.kind, h.directory, h.contentFileId, h.content⟩

end InodeAdvance

theorem withRevision_eq_inode {record : StateRecord} {rev : RecordRevision} {r : InodeRecord}
    (h : record.withRevision rev = .inode r) :
    ∃ r₀, record = .inode r₀ ∧ r = { r₀ with revision := rev } := by
  cases record with
  | inode r₀ => exact ⟨r₀, rfl, (StateRecord.inode.inj h).symm⟩
  | _ => cases h

section Inodes

variable {contract : Contract} {s : AuthorityState} {request : CommitRequest} {staged : RecordMap}
  {event : ChangeEvent} {header : FilesystemRecord} {change : StateChange} {i : InodeId}
  {r r' : InodeRecord}

/-- A counter change of an inode, from what its mutator does. -/
theorem inode_of_mutate {rev : RecordRevision}
    (h : ∃ current record, some (StateRecord.inode r) = some current ∧
      change.mutate current = .ok record ∧ some (StateRecord.inode r') = some (record.withRevision rev)) :
    ∃ r₁, change.mutate (.inode r) = .ok (.inode r₁) ∧ r' = { r₁ with revision := rev } := by
  obtain ⟨_, record, hcurrent, hmutate, hafter⟩ := h
  cases hcurrent
  obtain ⟨r₁, rfl, rfl⟩ := withRevision_eq_inode (Option.some.inj hafter).symm
  exact ⟨r₁, hmutate, rfl⟩

/-- How a change rewrites an inode, before the revision is stamped on it. -/
inductive InodeRewrite (records : RecordMap) (request : CommitRequest) (i : InodeId) (r : InodeRecord) :
    StateChange → InodeRecord → Prop
  | replaced {r₁ : InodeRecord} (valid : replacementValid records request
      (request.namespaceParents records) (.inode r) (.inode r₁) = true) (qid : r.qidPath = r₁.qidPath) :
      InodeRewrite records request i r (.replace (.inode request.filesystemId i) (.inode r₁)) r₁
  | bumped {r₁ : InodeRecord} (h : r.bumpInodeGeneration = .ok r₁) :
      InodeRewrite records request i r (.bumpInodeGeneration i) r₁
  | bumpedDirectory {r₁ : InodeRecord} (h : r.bumpDirectoryGeneration = .ok r₁) :
      InodeRewrite records request i r (.bumpDirectoryGeneration i) r₁
  | adjusted {r₁ : InodeRecord} {adjustment : CounterAdjustment}
      (h : r.adjustLinkCount adjustment = .ok r₁) :
      InodeRewrite records request i r (.adjustLinkCount i adjustment) r₁
  | published {publication : PublishContent} (own : publication.inodeId = i)
      (valid : validatePublishContent publication request.mutation r = .ok ())
      (hdata : validateInodeData publication.logicalSize (InodeRecord.publishedData publication) = .ok ()) :
      InodeRewrite records request i r (.publishContent publication) (r.publishContent publication hdata)

theorem InodeRewrite.advance {records : RecordMap} (h : InodeRewrite records request i r change r') :
    InodeAdvance r r' := by
  cases h with
  | replaced valid qid => exact .of_replacementValid valid qid
  | bumped h => exact .bumpInodeGeneration h
  | bumpedDirectory h => exact (InodeAdvance.bumpDirectoryGeneration h).1
  | adjusted h => exact .adjustLinkCount h
  | published own valid hdata => exact .publishContent valid hdata

section

variable (h : Staged contract s request staged event)

include h

section

variable (hh : filesystemAt s.records request.filesystemId = some header)
  (hc : change ∈ request.changes)
  (hk : RecordKey.inode request.filesystemId i ∈ change.affectedKeys request.filesystemId)
  (hr : inodeAt s.records request.filesystemId i = some r)
  (hr' : inodeAt staged request.filesystemId i = some r')

include hh hc hk hr hr'

/-- **The change of a commit that writes an inode which stays.** -/
theorem Staged.inode_rewrite :
    ∃ r₁, InodeRewrite s.records request i r change r₁ ∧
      r' = { r₁ with revision := event.revision.toRecord } := by
  have hmakes := h.makes hc hk (by simp [RecordKey.family])
  rw [inodeAt_eq_some] at hr hr'
  rw [hr, hr'] at hmakes
  cases change with
  | insert => cases hmakes.1
  | replace key record =>
    obtain rfl := List.mem_singleton.1 hk
    obtain ⟨r₁, rfl, rfl⟩ := withRevision_eq_inode (Option.some.inj hmakes.2).symm
    obtain ⟨a, hscan, -⟩ := h.qidScan hh
    obtain ⟨_, _, hqid⟩ := foldlM_ok_forall hscan _ hc
    simp only [checkQidChange, hr, bind_eq_ok, ensure_eq_ok] at hqid
    exact ⟨r₁, .replaced (h.replacement hh hc hr) hqid.choose_spec.1, rfl⟩
  | delete => cases hmakes.2
  | bumpInodeGeneration j =>
    obtain rfl : i = j := by simpa [StateChange.affectedKeys, StateChange.primaryKey] using hk
    obtain ⟨r₁, hr₁, rfl⟩ := inode_of_mutate hmakes
    obtain ⟨_, hbump, ⟨⟩⟩ := map_eq_ok.1 hr₁
    exact ⟨r₁, .bumped hbump, rfl⟩
  | bumpDirectoryGeneration j =>
    obtain rfl : i = j := by simpa [StateChange.affectedKeys, StateChange.primaryKey] using hk
    obtain ⟨r₁, hr₁, rfl⟩ := inode_of_mutate hmakes
    obtain ⟨_, hbump, ⟨⟩⟩ := map_eq_ok.1 hr₁
    exact ⟨r₁, .bumpedDirectory hbump, rfl⟩
  | adjustLinkCount j adjustment =>
    obtain rfl : i = j := by simpa [StateChange.affectedKeys, StateChange.primaryKey] using hk
    obtain ⟨r₁, hr₁, rfl⟩ := inode_of_mutate hmakes
    obtain ⟨_, hadjust, ⟨⟩⟩ := map_eq_ok.1 hr₁
    exact ⟨r₁, .adjusted hadjust, rfl⟩
  | publishContent publication =>
    obtain rfl : i = publication.inodeId := by
      simpa [StateChange.affectedKeys, StateChange.primaryKey] using hk
    obtain ⟨mid, mid', happlied, hkeys⟩ := (h.writes hc).applied
    obtain ⟨hmid, hstaged⟩ := hkeys _ hk (by simp [RecordKey.family])
    simp only [applyChange, applyPublishContent, requireInodeRecord, hmid.trans hr, ok_bind,
      bind_eq_ok] at happlied
    obtain ⟨metadata, -, happlied⟩ := happlied
    split at happlied
    · cases happlied
    · rename_i hvalid
      cases happlied
      rw [hr', Std.ExtTreeMap.getElem?_insert_self, Option.some.injEq] at hstaged
      cases hstaged
      obtain ⟨_, hpublish, -⟩ := bind_eq_ok.1 hvalid
      exact ⟨_, .published rfl hpublish _, rfl⟩
  | retainResult => cases hk
  | _ => simp [StateChange.affectedKeys, StateChange.primaryKey] at hk

/-- The change that advances the directory generation of a parent advances it once. -/
theorem Staged.inode_change :
    InodeAdvance r r' ∧ (change.advancesParent s.records request.filesystemId i = true →
      directoryGenerationAdvancesOnce r r' = true) := by
  obtain ⟨r₁, hrewrite, rfl⟩ := h.inode_rewrite hh hc hk hr hr'
  refine ⟨hrewrite.advance.withRevision _, fun hparent => ?_⟩
  rw [inodeAt_eq_some] at hr
  cases hrewrite with
  | replaced valid qid =>
    have honce : directoryGenerationAdvancesOnce r r₁ = true := by
      simpa [StateChange.advancesParent, hr] using hparent
    exact honce
  | bumpedDirectory hbump => exact (InodeAdvance.bumpDirectoryGeneration hbump).2
  | _ => cases hparent

end

theorem Staged.inode_inserted (hbefore : s.records[RecordKey.inode request.filesystemId i]? = none)
    (hr' : inodeAt staged request.filesystemId i = some r') :
    ∃ inserted, StateChange.insert (.inode request.filesystemId i) (.inode inserted) ∈
      request.changes ∧ r' = { inserted with revision := event.revision.toRecord } := by
  rw [inodeAt_eq_some] at hr'
  rcases h.written (.inode request.filesystemId i) (by simp [RecordKey.family]) with
    hsame | ⟨change, hc, hk⟩
  · rw [hbefore, hr'] at hsame
    cases hsame
  have hmakes := h.makes hc hk (by simp [RecordKey.family])
  rw [hbefore, hr'] at hmakes
  -- every other change needs the record
  cases change with
  | insert key record =>
    obtain rfl := List.mem_singleton.1 hk
    obtain ⟨inserted, rfl, rfl⟩ := withRevision_eq_inode (Option.some.inj hmakes.2).symm
    exact ⟨inserted, hc, rfl⟩
  | replace => cases hmakes.1.choose_spec
  | delete => cases hmakes.2
  | bumpInodeGeneration | bumpDirectoryGeneration | adjustLinkCount =>
    obtain ⟨_, _, ⟨⟩, -⟩ := hmakes
  | publishContent publication =>
    obtain rfl : i = publication.inodeId := by
      simpa [StateChange.affectedKeys, StateChange.primaryKey] using hk
    obtain ⟨mid, mid', happlied, hkeys⟩ := (h.writes hc).applied
    have hmid := (hkeys _ hk (by simp [RecordKey.family])).1.trans hbefore
    simp only [applyChange, applyPublishContent, requireInodeRecord, hmid, error_bind] at happlied
    cases happlied
  | retainResult => cases hk
  | _ => simp [StateChange.affectedKeys, StateChange.primaryKey] at hk

/-- **An inode that stays** is kept as it is or advances. -/
theorem Staged.inode_advance (hh : filesystemAt s.records request.filesystemId = some header)
    (hr : inodeAt s.records request.filesystemId i = some r)
    (hr' : inodeAt staged request.filesystemId i = some r') : r' = r ∨ InodeAdvance r r' := by
  rcases h.written (.inode request.filesystemId i) (by simp [RecordKey.family]) with
    hsame | ⟨change, hc, hk⟩
  · left
    rw [inodeAt_eq_some] at hr hr'
    rw [hr', hr] at hsame
    simpa using hsame
  · exact .inr (h.inode_change hh hc hk hr hr').1

end

end Inodes

/-! ## Directory entries -/

section Entries

variable {contract : Contract} {s : AuthorityState} {request : CommitRequest} {staged : RecordMap}
  {event : ChangeEvent} {header : FilesystemRecord} {change : StateChange} {parent : InodeId}
  {name : EntryName} {fs : FilesystemId}

variable {record : StateRecord}

theorem matchesKey_entry (h : StateRecord.matchesKey (.directoryEntry fs parent name) record = true) :
    ∃ entry, record = .directoryEntry entry ∧ entry.parentInodeId = parent ∧ entry.name = name := by
  cases record with
  | directoryEntry entry =>
    simp only [StateRecord.matchesKey, Bool.and_eq_true, beq_iff_eq] at h
    exact ⟨entry, rfl, h.1.symm, h.2.symm⟩
  | _ => simp [StateRecord.matchesKey] at h

theorem validateWritten_matchesKey {limits : StateLimits} {key : RecordKey}
    (h : validateWritten limits key record = .ok ()) :
    StateRecord.matchesKey key record = true := by
  simp only [validateWritten, bind_eq_ok, mapErr_eq_ok] at h
  obtain ⟨_, hkey, -⟩ := h
  exact StateRecord.validateKey_eq_ok.1 hkey

theorem withRevision_eq_entry {rev : RecordRevision} {e : DirectoryEntryRecord}
    (h : record.withRevision rev = .directoryEntry e) :
    ∃ e₀, record = .directoryEntry e₀ ∧ e = { e₀ with revision := rev } := by
  cases record with
  | directoryEntry e₀ => exact ⟨e₀, rfl, (StateRecord.directoryEntry.inj h).symm⟩
  | _ => cases h

variable {destination : DirectoryEntryRecord}

theorem CommitRequest.move_distinct {limits : StateLimits}
    (h : request.validatePreflight limits = .ok ())
    (hc : StateChange.moveDirectoryEntry parent name destination ∈ request.changes) :
    RecordKey.directoryEntry request.filesystemId parent name ≠
      .directoryEntry request.filesystemId destination.parentInodeId destination.name := by
  obtain ⟨s, t, hst⟩ := scanned h hc
  simp only [scanChange, bind_eq_ok, StateChange.affectedKeys] at hst
  obtain ⟨_, -, _, hkeys, -⟩ := hst
  obtain ⟨mid, hsource, hrest⟩ := foldlM_cons_eq_ok.1 hkeys
  obtain ⟨_, hdestination, -⟩ := foldlM_cons_eq_ok.1 hrest
  intro heq
  refine (accepts_scanKey hdestination).fresh (by simp [RecordKey.family]) ?_
  rw [← heq]
  exact (accepts_scanKey hsource).target

/-- Nothing is left at the source of a move. -/
theorem Staged.source_gone (h : Staged contract s request staged event)
    (hc : StateChange.moveDirectoryEntry parent name destination ∈ request.changes) :
    staged[RecordKey.directoryEntry request.filesystemId parent name]? = none := by
  obtain ⟨mid, mid', happlied, hkeys⟩ := (h.writes hc).applied
  rw [(hkeys (.directoryEntry request.filesystemId parent name) (by simp [StateChange.affectedKeys])
    (by simp [RecordKey.family])).2]
  simp only [applyChange, applyMove, bind_eq_ok, pure_eq_ok] at happlied
  obtain ⟨_, -, _, -, rfl⟩ := happlied
  rw [Std.ExtTreeMap.getElem?_insert, if_neg, Std.ExtTreeMap.getElem?_erase_self]
  rw [Std.compare_eq_iff_eq]
  exact (CommitRequest.move_distinct h.preflight hc).symm

/-- How a commit comes to leave an entry under a key it writes. -/
inductive EntryWrite (s : AuthorityState) (request : CommitRequest) (staged : RecordMap)
    (key : RecordKey) (e : DirectoryEntryRecord) : StateChange → Prop
  | insert : EntryWrite s request staged key e (.insert key (.directoryEntry e))
  | replace (current : StateRecord) (before : s.records[key]? = some current) :
      EntryWrite s request staged key e (.replace key (.directoryEntry e))
  | move (parent : InodeId) (name : EntryName) (source : DirectoryEntryRecord)
      (before : s.records[RecordKey.directoryEntry request.filesystemId parent name]? =
        some (.directoryEntry source))
      (after : staged[RecordKey.directoryEntry request.filesystemId parent name]? = none)
      (cookie : source.cookie = e.cookie) (child : source.childInodeId = e.childInodeId) :
      EntryWrite s request staged key e (.moveDirectoryEntry parent name e)

theorem Staged.entry_change (h : Staged contract s request staged event)
    (hc : change ∈ request.changes)
    (hk : RecordKey.directoryEntry request.filesystemId parent name ∈
      change.affectedKeys request.filesystemId) {e : DirectoryEntryRecord}
    (hafter : staged[RecordKey.directoryEntry request.filesystemId parent name]? =
      some (.directoryEntry e)) :
    ∃ e₀, e = { e₀ with revision := event.revision.toRecord } ∧ EntryWrite s request staged
      (.directoryEntry request.filesystemId parent name) e₀ change := by
  have hmakes := h.makes hc hk (by simp [RecordKey.family])
  rw [hafter] at hmakes
  cases change with
  | insert key record =>
    obtain rfl := List.mem_singleton.1 hk
    obtain ⟨e₀, rfl, rfl⟩ := withRevision_eq_entry (Option.some.inj hmakes.2).symm
    exact ⟨e₀, rfl, .insert⟩
  | replace key record =>
    obtain rfl := List.mem_singleton.1 hk
    obtain ⟨⟨current, hcurrent⟩, hafter⟩ := hmakes
    obtain ⟨e₀, rfl, rfl⟩ := withRevision_eq_entry (Option.some.inj hafter).symm
    exact ⟨e₀, rfl, .replace current hcurrent⟩
  | delete => cases hmakes.2
  | moveDirectoryEntry source sourceName destination =>
    have hgone := h.source_gone hc
    obtain ⟨mid, mid', happlied, hkeys⟩ := (h.writes hc).applied
    have hstaged := (hkeys _ hk (by simp [RecordKey.family])).2
    have hbefore := (hkeys (.directoryEntry request.filesystemId source sourceName)
      (by simp [StateChange.affectedKeys]) (by simp [RecordKey.family])).1
    simp only [applyChange, applyMove, requireEntryRecord, bind_eq_ok, ensure_eq_ok,
      pure_eq_ok] at happlied
    obtain ⟨current, hcurrent, _, ⟨hcookie, hchild⟩, rfl⟩ := happlied
    split at hcurrent
    · rename_i current' hget
      cases hcurrent
      simp only [StateChange.affectedKeys, List.mem_cons, RecordKey.directoryEntry.injEq, true_and,
        List.not_mem_nil, or_false] at hk
      rcases hk with ⟨rfl, rfl⟩ | ⟨rfl, rfl⟩
      · rw [hafter] at hgone
        cases hgone
      · rw [hafter, Std.ExtTreeMap.getElem?_insert_self, Option.some.injEq] at hstaged
        obtain ⟨e₀, heq, rfl⟩ := withRevision_eq_entry hstaged.symm
        cases heq
        exact ⟨destination, rfl, .move source sourceName current (hbefore.symm.trans hget) hgone
          hcookie hchild⟩
    · cases hcurrent
  | retainResult => cases hk
  | _ => simp [StateChange.affectedKeys, StateChange.primaryKey] at hk

/-- A commit that writes an entry names its directory among the touched ones. -/
theorem Staged.touches_parent (h : Staged contract s request staged event)
    (hkeyed : ∀ record, s.records[RecordKey.directoryEntry request.filesystemId parent name]? =
      some record → StateRecord.matchesKey (.directoryEntry request.filesystemId parent name) record
      = true) (hc : change ∈ request.changes)
    (hk : RecordKey.directoryEntry request.filesystemId parent name ∈
      change.affectedKeys request.filesystemId) :
    parent ∈ request.namespaceParents s.records := by
  refine List.mem_flatMap.2 ⟨change, hc, ?_⟩
  have hshape := CommitRequest.shape h.preflight hc
  cases change with
  | insert key record | replace key record =>
    obtain rfl := List.mem_singleton.1 hk
    simp only [validateChangeShape, bind_eq_ok] at hshape
    obtain ⟨entry, rfl, rfl, -⟩ := matchesKey_entry (validateWritten_matchesKey hshape.choose_spec.1)
    exact List.mem_cons_self
  | delete key =>
    obtain rfl := List.mem_singleton.1 hk
    obtain ⟨⟨record, hbefore⟩, -⟩ := h.makes hc hk (by simp [RecordKey.family])
    obtain ⟨entry, rfl, rfl, -⟩ := matchesKey_entry (hkeyed record hbefore)
    simp [StateChange.namespaceParents, hbefore]
  | moveDirectoryEntry source sourceName destination =>
    simp only [StateChange.affectedKeys, List.mem_cons, RecordKey.directoryEntry.injEq, true_and,
      List.not_mem_nil, or_false] at hk
    rcases hk with ⟨rfl, -⟩ | ⟨rfl, -⟩ <;> simp [StateChange.namespaceParents]
  | retainResult => cases hk
  | _ => simp [StateChange.affectedKeys, StateChange.primaryKey] at hk

theorem affected_of_advancesParent {records : RecordMap}
    (h : change.advancesParent records fs parent = true) :
    RecordKey.inode fs parent ∈ change.affectedKeys fs := by
  cases change with
  | bumpDirectoryGeneration inode =>
    simp only [StateChange.advancesParent, beq_iff_eq] at h
    simp [StateChange.affectedKeys, StateChange.primaryKey, h]
  | replace key record =>
    cases record with
    | inode replacement =>
      simp only [StateChange.advancesParent] at h
      split at h
      · rename_i hkey
        simp [StateChange.affectedKeys, StateChange.primaryKey, hkey]
      · cases h
    | _ => cases h
  | _ => cases h

/-- **A directory whose entries change** advances its directory generation. -/
theorem Staged.directory_advance (h : Staged contract s request staged event)
    (hh : filesystemAt s.records request.filesystemId = some header)
    {r r' : InodeRecord} (hr : inodeAt s.records request.filesystemId parent = some r)
    (hr' : inodeAt staged request.filesystemId parent = some r')
    (hparent : parent ∈ request.namespaceParents s.records) :
    directoryGenerationAdvancesOnce r r' = true := by
  obtain ⟨change, hc, hadvances⟩ := (h.monotonic hh).1 parent hparent
  exact (h.inode_change hh hc (affected_of_advancesParent hadvances) hr hr').2 hadvances

end Entries

/-! ## The header -/

/-- The counters of a header only grow, and the root stays. -/
structure HeaderAdvance (h h' : FilesystemRecord) : Prop where
  root : h'.rootInodeId = h.rootInodeId
  qidPath : h.nextQidPath.get ≤ h'.nextQidPath.get
  cookie : h.nextDirectoryCookie.get ≤ h'.nextDirectoryCookie.get
  policy : h.policyGeneration ≤ h'.policyGeneration

namespace HeaderAdvance

variable {h h' h'' : FilesystemRecord}

theorem refl (h : FilesystemRecord) : HeaderAdvance h h :=
  ⟨rfl, UInt64.le_refl _, UInt64.le_refl _, UInt64.le_refl _⟩

theorem trans (hab : HeaderAdvance h h') (hbc : HeaderAdvance h' h'') : HeaderAdvance h h'' :=
  ⟨hbc.root.trans hab.root, UInt64.le_trans hab.qidPath hbc.qidPath,
    UInt64.le_trans hab.cookie hbc.cookie, UInt64.le_trans hab.policy hbc.policy⟩

theorem le_of_checkedAdd {a b c : UInt64} (h : checkedAdd a b = some c) : a ≤ c := by
  have := checkedAdd_eq_some.1 h
  exact UInt64.le_iff_toNat_le.2 (by omega)

theorem advanceDirectoryCookie {count : NonZeroU64} (hr : h.advanceDirectoryCookie count = .ok h') :
    HeaderAdvance h h' := by
  unfold FilesystemRecord.advanceDirectoryCookie at hr
  split at hr
  · rename_i next hnext
    cases hr
    refine ⟨rfl, UInt64.le_refl _, ?_, UInt64.le_refl _⟩
    unfold DirectoryCookie.checkedAdvance at hnext
    split at hnext
    · rename_i value hadd
      cases hnext
      exact le_of_checkedAdd hadd
    · cases hnext
  · cases hr

theorem advanceQidPath {count : NonZeroU64} (hr : h.advanceQidPath count = .ok h') :
    HeaderAdvance h h' := by
  obtain ⟨next, hnext, hr⟩ := bind_eq_ok.1 hr
  cases hr
  have hsum := Counter.checkedAdvance_eq_ok.1 hnext
  exact ⟨rfl, UInt64.le_iff_toNat_le.2 (by simp only [hsum]; omega), UInt64.le_refl _,
    UInt64.le_refl _⟩

theorem bumpPolicyGeneration (hr : h.bumpPolicyGeneration = .ok h') : HeaderAdvance h h' := by
  unfold FilesystemRecord.bumpPolicyGeneration at hr
  split at hr
  · rename_i next hnext
    cases hr
    exact ⟨rfl, UInt64.le_refl _, UInt64.le_refl _, le_of_checkedAdd hnext⟩
  · cases hr

theorem of_replacementValid {records : RecordMap} {request : CommitRequest} {parents : List InodeId}
    (hr : replacementValid records request parents (.filesystem h) (.filesystem h') = true) :
    HeaderAdvance h h' := by
  simp only [replacementValid, Bool.and_eq_true, beq_iff_eq] at hr
  obtain ⟨⟨⟨hroot, hqid⟩, hcookie⟩, hpolicy⟩ := hr
  exact ⟨hroot.symm, by rw [hqid]; exact UInt64.le_refl _, by rw [hcookie]; exact UInt64.le_refl _,
    by rw [hpolicy]; exact UInt64.le_refl _⟩

theorem withRevision (hr : HeaderAdvance h h') (rev : RecordRevision) :
    HeaderAdvance h { h' with recordRevision := rev, revision := ⟨rev.get, rev.nonzero⟩ } :=
  ⟨hr.root, hr.qidPath, hr.cookie, hr.policy⟩

end HeaderAdvance

section Header

variable {contract : Contract} {s : AuthorityState} {request : CommitRequest} {staged : RecordMap}
  {event : ChangeEvent} {header : FilesystemRecord} {change : StateChange}

/-- A counter change of the header, from what its mutator does. -/
theorem header_of_mutate {mid mid' : RecordMap} {fs : FilesystemId} {rev : RecordRevision}
    (h : mutateRecord mid (.filesystem fs) rev change.mutate = .ok mid')
    (hh : filesystemAt mid fs = some header)
    (hmutate : ∀ record, change.mutate (.filesystem header) = .ok record →
      ∃ h₁, record = .filesystem h₁ ∧ HeaderAdvance header h₁) :
    ∃ header', filesystemAt mid' fs = some header' ∧ HeaderAdvance header header' := by
  obtain ⟨record, record', hget, hrecord, rfl⟩ := mutateRecord_eq_ok.1 h
  obtain rfl : record = .filesystem header :=
    Option.some.inj (hget.symm.trans (filesystemAt_eq_some.1 hh))
  obtain ⟨h₁, rfl, hadvance⟩ := hmutate record' hrecord
  exact ⟨_, filesystemAt_eq_some.2 Std.ExtTreeMap.getElem?_insert_self, hadvance.withRevision rev⟩

section

variable (h : Staged contract s request staged event)

include h

section

variable (hh : filesystemAt s.records request.filesystemId = some header)

include hh

/-- The change of a commit, other than an allocation, that writes the header. -/
theorem Staged.header_change (hc : change ∈ request.changes)
    (hk : RecordKey.filesystem request.filesystemId ∈ change.affectedKeys request.filesystemId)
    (hallocates : change.allocates = false) :
    (change = .delete (.filesystem request.filesystemId) ∧
      filesystemAt staged request.filesystemId = none) ∨
    ∃ header', filesystemAt staged request.filesystemId = some header' ∧
      HeaderAdvance header header' := by
  have hmakes := h.makes hc hk (by simp [hallocates])
  rw [filesystemAt_eq_some.1 hh] at hmakes
  cases change with
  | insert => cases hmakes.1
  | replace key record =>
    obtain rfl := List.mem_singleton.1 hk
    have hshape := CommitRequest.shape h.preflight hc
    simp only [validateChangeShape, bind_eq_ok] at hshape
    have hmatches := validateWritten_matchesKey hshape.choose_spec.1
    cases record with
    | filesystem h₁ =>
      have hvalid := h.replacement hh hc (filesystemAt_eq_some.1 hh)
      exact .inr ⟨_, filesystemAt_eq_some.2 hmakes.2,
        (HeaderAdvance.of_replacementValid hvalid).withRevision _⟩
    | _ => simp [StateRecord.matchesKey] at hmatches
  | delete key =>
    obtain rfl := List.mem_singleton.1 hk
    exact .inl ⟨rfl, by simp [filesystemAt, hmakes.2]⟩
  | bumpFilesystemPolicyGeneration =>
    obtain ⟨_, record, ⟨⟩, hrecord, hafter⟩ := hmakes
    obtain ⟨h₁, hbump, rfl⟩ := map_eq_ok.1 hrecord
    exact .inr ⟨_, filesystemAt_eq_some.2 hafter,
      (HeaderAdvance.bumpPolicyGeneration hbump).withRevision _⟩
  | advanceDirectoryCookie count | advanceQidPath count => cases hallocates
  | retainResult => cases hk
  | _ => simp [StateChange.affectedKeys, StateChange.primaryKey] at hk

/-- A header written by allocations only. -/
theorem Staged.header_allocations
    (hallocates : ∀ change ∈ request.changes,
      RecordKey.filesystem request.filesystemId ∈ change.affectedKeys request.filesystemId → change.allocates = true) :
    ∃ header', filesystemAt staged request.filesystemId = some header' ∧
      HeaderAdvance header header' := by
  obtain ⟨base, hbase, -, hstaged⟩ := h.getElem?_base
  suffices hkept : ∃ header', filesystemAt base request.filesystemId = some header' ∧
      HeaderAdvance header header' by
    obtain ⟨header', hheader', hadvance⟩ := hkept
    exact ⟨header', filesystemAt_eq_some.2 ((hstaged _ (by simp [RecordKey.family])).trans
      (filesystemAt_eq_some.1 hheader')), hadvance⟩
  refine foldlM_ok_invariant_mem (P := fun mid : RecordMap => ∃ header',
    filesystemAt mid request.filesystemId = some header' ∧ HeaderAdvance header header') ?_ hbase
    ⟨header, hh, .refl header⟩
  rintro mid change mid' hc happlied ⟨header₁, hheader₁, hadvance₁⟩
  by_cases hk : RecordKey.filesystem request.filesystemId ∈ change.affectedKeys request.filesystemId
  · have hchange := hallocates change hc hk
    cases change with
    | advanceDirectoryCookie count =>
      obtain ⟨header₂, hheader₂, hadvance₂⟩ := header_of_mutate happlied hheader₁
        fun record hrecord => by
          obtain ⟨h₁, hbump, hinj⟩ := map_eq_ok.1 hrecord
          exact ⟨h₁, hinj.symm, HeaderAdvance.advanceDirectoryCookie hbump⟩
      exact ⟨header₂, hheader₂, hadvance₁.trans hadvance₂⟩
    | advanceQidPath count =>
      obtain ⟨header₂, hheader₂, hadvance₂⟩ := header_of_mutate happlied hheader₁
        fun record hrecord => by
          obtain ⟨h₁, hbump, hinj⟩ := map_eq_ok.1 hrecord
          exact ⟨h₁, hinj.symm, HeaderAdvance.advanceQidPath hbump⟩
      exact ⟨header₂, hheader₂, hadvance₁.trans hadvance₂⟩
    | _ => cases hchange
  · refine ⟨header₁, filesystemAt_eq_some.2 ?_, hadvance₁⟩
    rw [(stamps_applyChange happlied).frame hk]
    exact filesystemAt_eq_some.1 hheader₁

/-- **The header** is deleted, or stays with counters that did not go back. -/
theorem Staged.header_advance :
    (StateChange.delete (.filesystem request.filesystemId) ∈ request.changes ∧
      filesystemAt staged request.filesystemId = none) ∨
    ∃ header', filesystemAt staged request.filesystemId = some header' ∧
      HeaderAdvance header header' := by
  by_cases hallocates : ∀ change ∈ request.changes,
      RecordKey.filesystem request.filesystemId ∈ change.affectedKeys request.filesystemId →
        change.allocates = true
  · exact .inr (h.header_allocations hh hallocates)
  · push Not at hallocates
    obtain ⟨change, hc, hk, hother⟩ := hallocates
    rcases h.header_change hh hc hk (by simpa using hother) with ⟨rfl, hnone⟩ | hstays
    · exact .inl ⟨hc, hnone⟩
    · exact .inr hstays

end

end

end Header

/-! ## Reachable record sets -/

/-- Outside the ledger and the leases, which a commit cannot write, the records are those of a set
that was validated. -/
def Sound (limits : StateLimits) (records : RecordMap) : Prop :=
  ∃ base, validateRecordSetWithLimits base limits = .ok () ∧
    ∀ key : RecordKey, key.storeOwned = false → records[key]? = base[key]?

namespace Sound

variable {limits : StateLimits} {records records' : RecordMap} {fs : FilesystemId} {i j : InodeId}
  {r r' : InodeRecord} {e : DirectoryEntryRecord}

section

variable (h : Sound limits records)

include h

theorem frame (hframe : ∀ key : RecordKey, key.storeOwned = false → records'[key]? = records[key]?) :
    Sound limits records' := by
  obtain ⟨base, hvalid, hbase⟩ := h
  exact ⟨base, hvalid, fun key hkey => (hframe key hkey).trans (hbase key hkey)⟩

theorem matchesKey {key : RecordKey} {record : StateRecord} (hkey : key.storeOwned = false)
    (hr : records[key]? = some record) :
    StateRecord.matchesKey key record = true := by
  obtain ⟨base, hvalid, hbase⟩ := h
  exact accepted_matchesKey hvalid (hbase key hkey ▸ hr)

/-- Where there is an inode there is a header, whose counter is past its QID path. -/
theorem header (hr : inodeAt records fs i = some r) :
    ∃ header, filesystemAt records fs = some header ∧ r.qidPath.get < header.nextQidPath.get := by
  obtain ⟨base, hvalid, hbase⟩ := h
  rw [inodeAt_eq_some, hbase _ rfl, ← inodeAt_eq_some] at hr
  obtain ⟨-, header, hheader, -⟩ := accepted_inode hvalid hr
  refine ⟨header, ?_, accepted_qidPath hvalid hr hheader⟩
  rwa [filesystemAt_eq_some, hbase _ rfl, ← filesystemAt_eq_some]

theorem qid_injective (hr : inodeAt records fs i = some r) (hr' : inodeAt records fs j = some r')
    (hqid : r.qidPath = r'.qidPath) : i = j := by
  obtain ⟨base, hvalid, hbase⟩ := h
  rw [inodeAt_eq_some, hbase _ rfl, ← inodeAt_eq_some] at hr hr'
  exact qid_injective_of_validate hvalid hr hr' hqid

/-- An entry lies in a directory, and the counter of its header is past its cookie. -/
theorem entry (he : IsEntry records fs e) :
    (∃ parent, inodeAt records fs e.parentInodeId = some parent ∧ parent.kind = .directory) ∧
    ∃ header, filesystemAt records fs = some header ∧
      e.cookie.get < header.nextDirectoryCookie.get := by
  obtain ⟨base, hvalid, hbase⟩ := h
  have he' : IsEntry base fs e := (hbase _ rfl).symm.trans he
  obtain ⟨⟨parent, hparent, hdir⟩, header, hheader⟩ := accepted_entry hvalid he'
  refine ⟨⟨parent, ?_, hdir⟩, header, ?_, accepted_cookie hvalid he' hheader⟩
  · rwa [inodeAt_eq_some, hbase _ rfl, ← inodeAt_eq_some]
  · rwa [filesystemAt_eq_some, hbase _ rfl, ← filesystemAt_eq_some]

end

end Sound

theorem sound_empty (limits : StateLimits) : Sound limits ∅ :=
  ⟨∅, rfl, fun _ _ => rfl⟩

theorem Staged.sound {contract : Contract} {s : AuthorityState} {request : CommitRequest}
    {staged : RecordMap} {event : ChangeEvent} (h : Staged contract s request staged event) :
    Sound contract.limits staged := by
  obtain ⟨base, -, hvalid, hstaged⟩ := h.getElem?_base
  refine ⟨base, hvalid, fun key hkey => hstaged key fun hmutation => ?_⟩
  simp [RecordKey.storeOwned, hmutation] at hkey

/-! ## One call of the authority -/

/-- A call changes nothing that clients observe, or publishes one revision: of a lease, or of a
commit. -/
inductive CallEffect (contract : Contract) (step : AuthorityStep) : Prop
  | none (unchanged : Unchanged step.before step.after)
  | lease (event : ChangeEvent)
      (advances : Advances contract.limits step.before step.after event event.keys)
      (wellFormed : event.WellFormed contract.limits)
      (leases : ∀ key ∈ event.keys, key.family = .writerLease)
      (keyed : ∀ key ∈ event.keys, ∀ r, step.after.records[key]? = some r →
        StateRecord.matchesKey key r = true)
  | commit (request : CommitRequest) (event : ChangeEvent) (commits : step.Commits request)
      (published : step.Published)
      (staged : Staged contract step.before request step.after.records event)
      (advances : Advances contract.limits step.before step.after event request.writtenKeys)

theorem callEffect_authority (contract : Contract) (s : AuthorityState) (call : Call) :
    CallEffect contract (stepOf (authority contract) s call) := by
  by_cases hcall : ∃ request, call = .commit request
  · obtain ⟨request, rfl⟩ := hcall
    rcases commitRequest_cases contract s request with
      ⟨staged, event, hstaged, hrecords, hadvances, hout⟩ | ⟨hunchanged, -⟩
    · subst hrecords
      refine .commit request event rfl ?_ hstaged hadvances
      rw [AuthorityStep.Published, output_commit]
      rcases hout with hout | hout
      · exact .inl ⟨_, by rw [hout]⟩
      · exact .inr ⟨_, by rw [hout]⟩
    · exact .none hunchanged
  · rcases authority_leaseStep contract s fun request heq => hcall ⟨request, heq⟩ with
      hunchanged | ⟨event, hadvances, hwell, hleases, hkeyed⟩
    · exact .none hunchanged
    · exact .lease event hadvances hwell hleases hkeyed

section Calls

variable {contract : Contract} {s s' : AuthorityState}

theorem getElem?_of_lease {event : ChangeEvent}
    (hadvances : Advances contract.limits s s' event event.keys)
    (hleases : ∀ key ∈ event.keys, key.family = .writerLease) {key : RecordKey}
    (hkey : key.family ≠ .writerLease) : s'.records[key]? = s.records[key]? :=
  hadvances.stamps.frame fun hmem => hkey (hleases key hmem)

theorem Staged.getElem?_foreign {request : CommitRequest} {staged : RecordMap} {event : ChangeEvent}
    (h : Staged contract s request staged event) {key : RecordKey}
    (hkey : key.filesystemId ≠ request.filesystemId) : staged[key]? = s.records[key]? := by
  refine h.stamps.frame fun hmem => hkey ?_
  rcases List.mem_cons.1 hmem with rfl | hmem
  · rfl
  · obtain ⟨change, hc, hk⟩ := List.mem_flatMap.1 hmem
    exact CommitRequest.affected_filesystem h.preflight hc hk

theorem CallEffect.sound {step : AuthorityStep} (h : CallEffect contract step)
    (hs : Sound contract.limits step.before.records) :
    Sound contract.limits step.after.records := by
  cases h with
  | none unchanged => rwa [unchanged.records]
  | lease event hadvances hwell hleases =>
    refine hs.frame fun key hkey => getElem?_of_lease hadvances hleases fun heq => ?_
    simp [RecordKey.storeOwned, heq] at hkey
  | commit request event commits published hstaged hadvances => exact hstaged.sound

end Calls

/-- **Every reachable record set is sound.** -/
theorem sound_run (contract : Contract) (clock : LeaseDeadline) (calls : List Call) :
    Sound contract.limits (finalState (authority contract) (.new clock) calls).records :=
  finalState_invariant (P := fun s => Sound contract.limits s.records)
    (fun s call hs => (callEffect_authority contract s call).sound hs) (sound_empty _) calls

end W9pt.State

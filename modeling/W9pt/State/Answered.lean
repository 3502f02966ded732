import W9pt.State.Allocation
import W9pt.State.Versions
import W9pt.State.Scans

/-!
# Which reads of a reachable state are answered

The memory authority evaluates the queries of a batch one after the other and then checks its own
results with the constructor that every consumer trusts. Producer and check agree on every query but
one: the content metadata selected with an inode that is not a regular file.

| here | there |
|---|---|
| `scannable_run` | the invariants behind `ScanPage::new` and `validate_against` |
| `boundedReads_complete` | `scan_records`, `directory_page` over several reads |
| `ReadQuery.Cramped` | `ScanBoundTooSmall` |
| `ReadQuery.Contentless` | the pair of `InodeWithContentMetadata` |
| `readQueries_cases` | the loop of `read_request` |
| `readRequest_answered_iff` | `read_request` (memory.rs:187) |
-/

namespace W9pt.State

open Lib

/-! ## Reachable record sets can be read -/

def Keyed (records : RecordMap) : Prop :=
  ∀ (key : RecordKey) r, records[key]? = some r → StateRecord.matchesKey key r = true

theorem Staged.keyed {contract : Contract} {s : AuthorityState} {request : CommitRequest}
    {staged : RecordMap} {event : ChangeEvent} (h : Staged contract s request staged event) :
    Keyed staged := by
  obtain ⟨base, -, hvalid, rfl⟩ := h.applied
  intro key r hr
  rw [Std.ExtTreeMap.getElem?_insert] at hr
  split at hr
  · rename_i hkey
    cases Std.compare_eq_iff_eq.1 hkey
    cases hr
    simp [CommitRequest.ledgerKey, CommitRequest.ledgerRecord, StateRecord.matchesKey]
  · exact accepted_matchesKey hvalid hr

theorem CallEffect.keyed {contract : Contract} {step : AuthorityStep}
    (h : CallEffect contract step) (hs : Keyed step.before.records) : Keyed step.after.records := by
  cases h with
  | none unchanged => rwa [unchanged.records]
  | lease event advances wellFormed leases keyed =>
    intro key r hr
    by_cases hkey : key ∈ event.keys
    · exact keyed key hkey r hr
    · exact hs key r ((advances.stamps.frame hkey).symm.trans hr)
  | commit request event commits published staged advances => exact staged.keyed

theorem keyed_run (contract : Contract) (clock : LeaseDeadline) (calls : List Call) :
    Keyed (finalState (authority contract) (.new clock) calls).records :=
  finalState_invariant (P := fun s => Keyed s.records)
    (fun s call => (callEffect_authority contract s call).keyed) (fun key r hr => by cases hr) calls

/-- **Every reachable record set can be scanned.** -/
theorem scannable_run (contract : Contract) (clock : LeaseDeadline) (calls : List Call) :
    Scannable (finalState (authority contract) (.new clock) calls).records
      (finalState (authority contract) (.new clock) calls).revision := by
  obtain ⟨base, hvalid, hbase⟩ := sound_run contract clock calls
  have hentry : ∀ fs e, IsEntry (finalState (authority contract) (.new clock) calls).records fs e →
      IsEntry base fs e := fun fs e he => (hbase _ rfl).symm.trans he
  refine ⟨keyed_run contract clock calls, dated_run contract clock calls, fun fs e he => ?_,
    fun fs e e' he he' hparent hcookie => ?_⟩
  · obtain ⟨child, hchild⟩ := accepted_child hvalid (hentry fs e he)
    exact ⟨child, inodeAt_eq_some.2 ((hbase _ rfl).trans (inodeAt_eq_some.1 hchild))⟩
  · exact cookie_injective_of_validate hvalid (hentry fs e' he') (hentry fs e he) hparent hcookie

/-- The records and the revision of a reachable state. -/
def Snapshot (contract : Contract) (records : RecordMap) (revision : StateRevision) : Prop :=
  ∃ clock calls, records = (finalState (authority contract) (.new clock) calls).records ∧
    revision = (finalState (authority contract) (.new clock) calls).revision

/-- **Bounded scans of reachable states are complete**, over every family and over directories with
their children. -/
theorem boundedReads_complete (contract : Contract) (fs : FilesystemId) (index : Nat) :
    (∀ scan, ScanComplete (Snapshot contract) fs scan index) ∧
      ∀ parent bounds, DirectoryComplete (Snapshot contract) fs parent bounds index := by
  have hscannable : ∀ records revision, Snapshot contract records revision →
      Scannable records revision := by
    rintro _ _ ⟨clock, calls, rfl, rfl⟩
    exact scannable_run contract clock calls
  exact ⟨fun scan => scanComplete hscannable fs scan index,
    fun parent bounds => directoryComplete hscannable fs parent bounds index⟩

/-- Every regular file of the record set is bound to its content metadata. -/
def ContentBound (records : RecordMap) : Prop :=
  ∀ fs i r, inodeAt records fs i = some r → r.kind = .regularFile → r.Bound records fs

theorem contentBound_run (contract : Contract) (clock : LeaseDeadline) (calls : List Call) :
    ContentBound (finalState (authority contract) (.new clock) calls).records := by
  obtain ⟨base, hvalid, hbase⟩ := sound_run contract clock calls
  intro fs i r hr hkind
  have hr' : inodeAt base fs i = some r :=
    inodeAt_eq_some.2 ((hbase _ rfl).symm.trans (inodeAt_eq_some.1 hr))
  obtain ⟨file, context, metadata, hfile, hcontext, hget, howner⟩ :=
    accepted_contentBinding hvalid hr' hkind
  exact ⟨file, context, metadata, hfile, hcontext, (hbase _ rfl).trans hget, howner⟩

/-! ## One query -/

section Queries

variable (records : RecordMap) (fs : FilesystemId)

def ReadQuery.Cramped : ReadQuery → Prop
  | .scan range => ∃ x, IsFirst ScanResume.Before position (range.Matches fs records) range.after x ∧
      range.bounds.maxBytes < itemBytes x
  | .directoryPage parent after bounds => ∃ x, IsFirst DirectoryCookie.Before
      DirectoryPageEntry.cookie (Listed fs parent records) (some after) x ∧
      bounds.maxBytes < x.retainedBytes
  | _ => False

/-- The pins of the inode do not fit the count. -/
def ReadQuery.Uncounted : ReadQuery → Prop
  | .openPinCount i => 2 ^ 64 ≤ pinCount records fs i
  | _ => False

/-- The query selects the content metadata of an inode that exists and is not a regular file. -/
def ReadQuery.Contentless : ReadQuery → Prop
  | .inodeWithContentMetadata i => ∃ r, inodeAt records fs i = some r ∧ r.kind ≠ .regularFile
  | _ => False

/-- The result of one query, wherever it stands in the batch. -/
def ReadQuery.Reads (query : ReadQuery) (result : ReadResult) : Prop :=
  ∃ index, readQuery records fs index query = .ok result

end Queries

section OneQuery

variable {records : RecordMap} {fs : FilesystemId} {revision : StateRevision} {query : ReadQuery}

theorem readQuery_point {key : RecordKey} (h : query.pointKey fs = some key) (index : Nat) :
    readQuery records fs index query = .ok (.point key records[key]?) := by
  cases query <;> cases h <;> rfl

theorem checkResult_point {key : RecordKey} (h : query.pointKey fs = some key) (index : Nat)
    (record : Option StateRecord) :
    checkResult fs revision index query (.point key record) = checkPoint key revision record := by
  have hcheck : checkResult fs revision index query (.point key record) = (do
      ensure (query.pointKey fs = some key) (.unexpectedResult index)
      checkPoint key revision record) := by
    cases query <;> rfl
  rw [hcheck, ensure_of h, ok_bind]

/-- A page respects its bounds, so a page that was read is not cramped. -/
theorem ScanPage.Holds.not_cramped {scan : RecordScan} {page : ScanPage}
    (h : page.Holds records fs scan) : ¬ ReadQuery.Cramped records fs (.scan scan) := by
  rintro ⟨x, hfirst, hlarge⟩
  have hsize : itemBytes x ≤ (page.records.map itemBytes).sum :=
    List.le_sum_of_mem (List.mem_map_of_mem (h.page.first_mem hfirst))
  have := h.bytes
  omega

theorem DirectoryPage.Holds.not_cramped {parent : InodeId} {after : DirectoryCookie}
    {bounds : ScanBounds} {page : DirectoryPage} (h : page.Holds records fs parent after bounds) :
    ¬ ReadQuery.Cramped records fs (.directoryPage parent after bounds) := by
  rintro ⟨x, hfirst, hlarge⟩
  have hsize : x.retainedBytes ≤ (page.entries.map DirectoryPageEntry.retainedBytes).sum :=
    List.le_sum_of_mem (List.mem_map_of_mem (h.page.first_mem hfirst))
  have := h.bytes
  omega

variable {limits : StateLimits}

/-- The items of a paged query of an accepted batch are not zero. -/
theorem nonzero_of_checkQuery (h : checkQuery limits fs query = .ok ()) {bounds : ScanBounds}
    (hbounds : query.bounds = some bounds) : bounds.maxItems ≠ 0 := by
  obtain ⟨_, -, hcheck⟩ := bind_eq_ok.1 h
  simp only [checkQueryBounds, hbounds, bind_eq_ok, mapErr_eq_ok, ScanBounds.new, ensure_eq_ok] at hcheck
  obtain ⟨_, ⟨_, hitems, -⟩, -⟩ := hcheck
  exact hitems

/-- **What one query gives**: a result, a page bound that is too small, or a count that does not fit. -/
theorem readQuery_cases (h : Scannable records revision)
    (hcheck : checkQuery limits fs query = .ok ()) (index : Nat) :
    (¬ query.Cramped records fs ∧ ¬ query.Uncounted records fs ∧
      ∃ result, readQuery records fs index query = .ok result) ∨
    (query.Cramped records fs ∧ ∃ bytes, readQuery records fs index query =
      .error (.outcome (.scanBoundTooSmall index bytes))) ∨
    (query.Uncounted records fs ∧ ¬ query.Cramped records fs ∧
      readQuery records fs index query = .error (.failure .corruption)) := by
  by_cases hpoint : ∃ key, query.pointKey fs = some key
  · obtain ⟨key, hkey⟩ := hpoint
    refine .inl ⟨?_, ?_, _, readQuery_point hkey index⟩
    all_goals cases query <;> first | exact id | cases hkey
  cases query with
  | inodeWithContentMetadata i => exact .inl ⟨id, id, _, rfl⟩
  | inodeByQidPath path => exact .inl ⟨id, id, _, rfl⟩
  | openPinCount i =>
    by_cases hcount : pinCount records fs i < 2 ^ 64
    · refine .inl ⟨id, not_le.2 hcount, .openPinCount i (UInt64.ofNat (pinCount records fs i)), ?_⟩
      simp only [readQuery, ensure_of hcount, ok_bind]
      rfl
    · refine .inr (.inr ⟨not_lt.1 hcount, id, ?_⟩)
      simp only [readQuery, ensure, if_neg hcount]
      rfl
  | scan scan =>
    rcases readScan_cases fs h index (nonzero_of_checkQuery hcheck rfl) with
      ⟨page, hpage, hholds⟩ | ⟨x, hfirst, hlarge, herror⟩
    · exact .inl ⟨hholds.not_cramped, id, .scan page, by simp only [readQuery, hpage, ok_bind]; rfl⟩
    · exact .inr (.inl ⟨⟨x, hfirst, hlarge⟩, itemBytes x, by simp only [readQuery, herror]; rfl⟩)
  | directoryPage parent after bounds =>
    rcases readDirectoryPage_cases fs parent after h index (nonzero_of_checkQuery hcheck rfl) with
      ⟨page, hpage, hholds⟩ | ⟨x, hfirst, hlarge, herror⟩
    · exact .inl ⟨hholds.not_cramped, id, .directoryPage page, by
        simp only [readQuery, hpage, ok_bind]; rfl⟩
    · exact .inr (.inl ⟨⟨x, hfirst, hlarge⟩, x.retainedBytes, by simp only [readQuery, herror]; rfl⟩)
  | _ => exact absurd ⟨_, rfl⟩ hpoint

/-- The pair that is selected for an inode passes its check unless it has no content to select. -/
theorem contentPairValid_iff (h : Scannable records revision) (hbound : ContentBound records)
    (i : InodeId) :
    contentPairValid i revision (inodeAt records fs i)
        ((inodeAt records fs i).bind (contentMetadataOf records fs)) = true ↔
      ¬ (ReadQuery.inodeWithContentMetadata i).Contentless records fs := by
  cases hr : inodeAt records fs i with
  | none => simp [contentPairValid, ReadQuery.Contentless, hr]
  | some r =>
    have hcontentless : (ReadQuery.inodeWithContentMetadata i).Contentless records fs ↔
        r.kind ≠ .regularFile := by simp [ReadQuery.Contentless, hr]
    rw [hcontentless, not_not, Option.bind_some]
    constructor
    · intro hvalid
      cases hmetadata : contentMetadataOf records fs r with
      | none => simp [hmetadata, contentPairValid] at hvalid
      | some metadata =>
        refine InodeRecord.contentFileId_isSome.1 ?_
        simp only [hmetadata, contentPairValid, Bool.and_eq_true, beq_iff_eq] at hvalid
        rw [hvalid.1.1.1.2]
        rfl
    · intro hkind
      obtain ⟨file, context, metadata, hfile, hcontext, hget, -, hid⟩ := hbound fs i r hr hkind
      have hmetadata : contentMetadataOf records fs r = some metadata := by
        simp only [contentMetadataOf, hfile, hget]
      have hinode := h.keyed _ _ (inodeAt_eq_some.1 hr)
      have hown := h.keyed _ _ hget
      simp only [StateRecord.matchesKey, beq_iff_eq] at hinode hown
      simp only [hmetadata, contentPairValid, ← hinode, hfile, hown, hcontext, hid, beq_self_eq_true,
        Bool.true_and, Bool.and_eq_true, decide_eq_true_eq]
      exact ⟨h.dated _ _ (inodeAt_eq_some.1 hr), h.dated _ _ hget⟩

theorem checkPoint_stored (h : Scannable records revision) (key : RecordKey) :
    checkPoint key revision records[key]? = .ok () := by
  cases hr : records[key]? with
  | none => rfl
  | some record =>
    simp only [checkPoint, bind_eq_ok, mapErr_eq_ok]
    exact ⟨(), StateRecord.validateKey_eq_ok.2 (h.keyed key record hr), ensure_of (h.dated key record hr)⟩

theorem inodeWithQidPath_eq_some {path : QidPath} {r : InodeRecord}
    (h : inodeWithQidPath records fs path = some r) :
    r.qidPath = path ∧ ∃ key : RecordKey, records[key]? = some (.inode r) := by
  obtain ⟨⟨key, record⟩, hmem, hitem⟩ := List.exists_of_findSome?_eq_some h
  cases key <;> cases record <;> simp only [reduceCtorEq] at hitem
  split at hitem
  · rename_i hpath
    cases hitem
    exact ⟨hpath.2, _, Std.ExtTreeMap.mem_toList_iff_getElem?_eq_some.1 hmem⟩
  · cases hitem

/-- **Producer and check agree** on every result but the content of an inode without content. -/
theorem checkResult_iff (h : Scannable records revision) (hbound : ContentBound records)
    (hcheck : checkQuery limits fs query = .ok ()) {result : ReadResult}
    (hread : query.Reads records fs result) (index : Nat) :
    checkResult fs revision index query result = .ok () ↔ ¬ query.Contentless records fs := by
  obtain ⟨position, hread⟩ := hread
  by_cases hpoint : ∃ key, query.pointKey fs = some key
  · obtain ⟨key, hkey⟩ := hpoint
    rw [readQuery_point hkey] at hread
    cases hread
    rw [checkResult_point hkey]
    refine iff_of_true (checkPoint_stored h key) ?_
    cases query <;> first | exact id | cases hkey
  cases query with
  | inodeWithContentMetadata i =>
    cases hread
    rw [← contentPairValid_iff h hbound i]
    simp only [checkResult, ensure, if_true, ok_bind]
    exact ensure_eq_ok
  | inodeByQidPath path =>
    cases hread
    refine iff_of_true ?_ id
    simp only [checkResult, ensure, if_true, ok_bind]
    cases hinode : inodeWithQidPath records fs path with
    | none => rfl
    | some r =>
      obtain ⟨hpath, key, hkey⟩ := inodeWithQidPath_eq_some hinode
      simp only [if_pos hpath, ok_bind]
      exact ensure_of (h.dated key _ hkey)
  | openPinCount i =>
    obtain ⟨_, -, hread⟩ := bind_eq_ok.1 hread
    cases hread
    exact iff_of_true (ensure_of rfl) id
  | scan scan =>
    obtain ⟨page, hpage, hread⟩ := bind_eq_ok.1 hread
    cases hread
    refine iff_of_true ?_ id
    rcases readScan_cases fs h position (nonzero_of_checkQuery hcheck rfl) with
      ⟨page', hpage', hholds⟩ | ⟨_, -, -, herror⟩
    · cases hpage.symm.trans hpage'
      exact hholds.validate h
    · cases hpage.symm.trans herror
  | directoryPage parent after bounds =>
    obtain ⟨page, hpage, hread⟩ := bind_eq_ok.1 hread
    cases hread
    refine iff_of_true ?_ id
    rcases readDirectoryPage_cases fs parent after h position (nonzero_of_checkQuery hcheck rfl) with
      ⟨page', hpage', hholds⟩ | ⟨_, -, -, herror⟩
    · cases hpage.symm.trans hpage'
      exact hholds.validate h
    · cases hpage.symm.trans herror
  | _ => exact absurd ⟨_, rfl⟩ hpoint

end OneQuery

/-! ## Whole batches -/

/-- The batch reaches a page whose bound is too small. -/
def StopsAtPage (records : RecordMap) (fs : FilesystemId) : List ReadQuery → Prop
  | [] => False
  | query :: rest => query.Cramped records fs ∨
      (¬ query.Uncounted records fs ∧ StopsAtPage records fs rest)

section Batches

variable {records : RecordMap} {fs : FilesystemId} {revision : StateRevision} {limits : StateLimits}
  {queries : List ReadQuery}

/-- **The loop over the queries** gives all results, or what stopped it. -/
theorem readQueries_cases (h : Scannable records revision)
    (hcheck : ∀ query ∈ queries, checkQuery limits fs query = .ok ()) (index : Nat) :
    (¬ StopsAtPage records fs queries ∧ (∀ query ∈ queries, ¬ query.Uncounted records fs) ∧
      ∃ results, readQueries records fs index queries = .ok results ∧
        List.Forall₂ (ReadQuery.Reads records fs) queries results) ∨
    (StopsAtPage records fs queries ∧ ∃ at_ bytes, readQueries records fs index queries =
      .error (.outcome (.scanBoundTooSmall at_ bytes))) ∨
    (¬ StopsAtPage records fs queries ∧ (∃ query ∈ queries, query.Uncounted records fs) ∧
      readQueries records fs index queries = .error (.failure .corruption)) := by
  induction queries generalizing index with
  | nil => exact .inl ⟨id, nofun, [], rfl, .nil⟩
  | cons query rest ih =>
    rcases readQuery_cases h (hcheck query List.mem_cons_self) index with
      ⟨hfits, hcounted, result, hresult⟩ | ⟨hcramped, bytes, herror⟩ | ⟨huncounted, hfits, herror⟩
    · rcases ih (fun q hq => hcheck q (List.mem_cons_of_mem _ hq)) (index + 1) with
        ⟨hruns, hall, results, hresults, hreads⟩ | ⟨hstops, at_, bytes, herror⟩ |
        ⟨hruns, ⟨q, hq, huncounted⟩, herror⟩
      · refine .inl ⟨fun hstops => hstops.elim hfits fun hrest => hruns hrest.2,
          List.forall_mem_cons.2 ⟨hcounted, hall⟩, result :: results, ?_, .cons ⟨index, hresult⟩ hreads⟩
        simp only [readQueries, hresult, hresults, ok_bind]
        rfl
      · refine .inr (.inl ⟨.inr ⟨hcounted, hstops⟩, at_, bytes, ?_⟩)
        simp only [readQueries, hresult, herror, ok_bind]
        rfl
      · refine .inr (.inr ⟨fun hstops => hstops.elim hfits fun hrest => hruns hrest.2,
          ⟨q, List.mem_cons_of_mem _ hq, huncounted⟩, ?_⟩)
        simp only [readQueries, hresult, herror, ok_bind]
        rfl
    · refine .inr (.inl ⟨.inl hcramped, index, bytes, ?_⟩)
      simp only [readQueries, herror]
      rfl
    · refine .inr (.inr ⟨fun hstops => hstops.elim hfits fun hrest => hrest.1 huncounted,
        ⟨query, List.mem_cons_self, huncounted⟩, ?_⟩)
      simp only [readQueries, herror]
      rfl

theorem checkResults_iff (h : Scannable records revision) (hbound : ContentBound records)
    (hcheck : ∀ query ∈ queries, checkQuery limits fs query = .ok ()) {results : List ReadResult}
    (hreads : List.Forall₂ (ReadQuery.Reads records fs) queries results) (index : Nat) :
    checkResults fs revision index queries results = .ok () ↔
      ∀ query ∈ queries, ¬ query.Contentless records fs := by
  induction hreads generalizing index with
  | nil => exact iff_of_true rfl nofun
  | cons hread _ ih =>
    rw [List.forall_mem_cons, ← ih (fun q hq => hcheck q (List.mem_cons_of_mem _ hq)) (index + 1),
      ← checkResult_iff h hbound (hcheck _ List.mem_cons_self) hread index]
    simp only [checkResults, bind_eq_ok]
    exact ⟨fun ⟨_, hfirst, hrest⟩ => ⟨hfirst, hrest⟩, fun ⟨hfirst, hrest⟩ => ⟨(), hfirst, hrest⟩⟩

end Batches

/-- The authority has not reached the revision that the batch asks for. -/
def ReadConsistency.Ahead (current : StateRevision) : ReadConsistency → Prop
  | latestLinearizable => False
  | atLeast required => current.get < required.get

/-- A semantic outcome of the batch at the state: the result of every query in its place at the
revision of the state, a revision that is not reached, or a page bound that is too small. -/
def ReadOutcome.Answers (s : AuthorityState) (batch : ReadBatch) : ReadOutcome → Prop
  | snapshot snap => snap.revision = s.revision ∧
      List.Forall₂ (ReadQuery.Reads s.records batch.filesystemId) batch.queries snap.results
  | revisionUnavailable .. => True
  | scanBoundTooSmall .. => True
  | malformedRequest _ => False

/-- Every query of the batch has a result that passes the check of the snapshot. -/
def ReadBatch.Selectable (batch : ReadBatch) (records : RecordMap) : Prop :=
  ∀ query ∈ batch.queries, ¬ query.Uncounted records batch.filesystemId ∧
    ¬ query.Contentless records batch.filesystemId

theorem checkConsistency_cases (current : StateRevision) (consistency : ReadConsistency) :
    (consistency.Ahead current ∧ ∃ required, checkConsistency current consistency =
      .error (.outcome (.revisionUnavailable required current))) ∨
    (¬ consistency.Ahead current ∧ checkConsistency current consistency = .ok ()) := by
  cases consistency with
  | latestLinearizable => exact .inr ⟨id, rfl⟩
  | atLeast required =>
    by_cases hreached : required.get ≤ current.get
    · exact .inr ⟨UInt64.not_lt.2 hreached, ensure_of hreached⟩
    · exact .inl ⟨UInt64.not_le.1 hreached, required, if_neg hreached⟩

/-- What is read from a state whose records can be scanned and whose files are bound. -/
theorem readRequest_cases (contract : Contract) (batch : ReadBatch) {s : AuthorityState}
    (h : Scannable s.records s.revision) (hbound : ContentBound s.records) :
    (∃ e, batch.validate contract.limits = .error e ∧
      readRequest contract s batch = .ok (.malformedRequest e)) ∨
    (batch.validate contract.limits = .ok () ∧ ((batch.consistency.Ahead s.revision ∧
        ∃ required current, readRequest contract s batch = .ok (.revisionUnavailable required current)) ∨
      (StopsAtPage s.records batch.filesystemId batch.queries ∧ ∃ at_ bytes,
        readRequest contract s batch = .ok (.scanBoundTooSmall at_ bytes)) ∨
      (batch.Selectable s.records ∧ ∃ results, readRequest contract s batch =
          .ok (.snapshot ⟨s.revision, results⟩) ∧
        List.Forall₂ (ReadQuery.Reads s.records batch.filesystemId) batch.queries results) ∨
      (¬ batch.consistency.Ahead s.revision ∧
        ¬ StopsAtPage s.records batch.filesystemId batch.queries ∧ ¬ batch.Selectable s.records ∧
        readRequest contract s batch = .error ⟨.read, .corruption⟩))) := by
  cases hvalid : batch.validate contract.limits with
  | error e =>
    refine .inl ⟨e, rfl, ?_⟩
    simp only [readRequest, readSnapshot, hvalid]
    rfl
  | ok u =>
    refine .inr ⟨rfl, ?_⟩
    have hcheck : ∀ query ∈ batch.queries, checkQuery contract.limits batch.filesystemId query = .ok () := by
      obtain ⟨_, -, hqueries⟩ := bind_eq_ok.1 hvalid
      exact forM_eq_ok.1 hqueries
    rcases checkConsistency_cases s.revision batch.consistency with
      ⟨hahead, required, hstop⟩ | ⟨hreached, hconsistency⟩
    · refine .inl ⟨hahead, required, s.revision, ?_⟩
      simp only [readRequest, readSnapshot, hvalid, mapErr, ok_bind, hstop]
      rfl
    · have hloop : readSnapshot contract s batch = (do
          let results ← readQueries s.records batch.filesystemId 0 batch.queries
          mapErr (fun _ => ReadStop.failure .corruption)
            (StateSnapshot.new s.revision batch results)) := by
        simp only [readSnapshot, hvalid, mapErr, hconsistency, ok_bind]
      right
      rcases readQueries_cases h hcheck 0 with
        ⟨hruns, hcounted, results, hresults, hreads⟩ | ⟨hstops, at_, bytes, herror⟩ |
        ⟨hruns, ⟨q, hq, huncounted⟩, herror⟩
      · have hresults' := checkResults_iff h hbound hcheck hreads 0
        by_cases hcontent : ∀ query ∈ batch.queries, ¬ query.Contentless s.records batch.filesystemId
        · refine .inr (.inl ⟨fun q hq => ⟨hcounted q hq, hcontent q hq⟩, results, ?_, hreads⟩)
          simp only [readRequest, hloop, hresults, ok_bind, StateSnapshot.new,
            ensure_of hreads.length_eq.symm, hresults'.2 hcontent]
          rfl
        · refine .inr (.inr ⟨hreached, hruns, fun hall => hcontent fun q hq => (hall q hq).2, ?_⟩)
          obtain ⟨e, he⟩ : ∃ e, checkResults batch.filesystemId s.revision 0 batch.queries results =
              .error e := by
            cases hchecked : checkResults batch.filesystemId s.revision 0 batch.queries results with
            | error e => exact ⟨e, rfl⟩
            | ok u => exact absurd (hresults'.1 hchecked) hcontent
          simp only [readRequest, hloop, hresults, ok_bind, StateSnapshot.new,
            ensure_of hreads.length_eq.symm, he]
          rfl
      · refine .inl ⟨hstops, at_, bytes, ?_⟩
        simp only [readRequest, hloop, herror]
        rfl
      · refine .inr (.inr ⟨hreached, hruns, fun hall => (hall q hq).1 huncounted, ?_⟩)
        simp only [readRequest, hloop, herror]
        rfl

/-- **Which reads are answered**: in every reachable state exactly the batches that the authority's
limits admit and that ask for a revision not reached, meet a page bound that is too small, or select no
content of an inode without content. -/
theorem readRequest_answered_iff (contract : Contract) (clock : LeaseDeadline) (calls : List Call)
    (batch : ReadBatch) :
    let s := finalState (authority contract) (.new clock) calls
    (∃ outcome, readRequest contract s batch = .ok outcome ∧ outcome.Answers s batch) ↔
      batch.validate contract.limits = .ok () ∧ (batch.consistency.Ahead s.revision ∨
        StopsAtPage s.records batch.filesystemId batch.queries ∨ batch.Selectable s.records) := by
  intro s
  rcases readRequest_cases contract batch (scannable_run contract clock calls)
    (contentBound_run contract clock calls) with
    ⟨e, hvalid, hread⟩ | ⟨hvalid, ⟨hahead, required, current, hread⟩ | ⟨hstops, at_, bytes, hread⟩ |
      ⟨hselectable, results, hread, hreads⟩ | ⟨hreached, hruns, hunselectable, hread⟩⟩
  · simp [s, hvalid, hread, ReadOutcome.Answers]
  · exact iff_of_true ⟨_, hread, trivial⟩ ⟨hvalid, .inl hahead⟩
  · exact iff_of_true ⟨_, hread, trivial⟩ ⟨hvalid, .inr (.inl hstops)⟩
  · exact iff_of_true ⟨_, hread, rfl, hreads⟩ ⟨hvalid, .inr (.inr hselectable)⟩
  · refine iff_of_false ?_ ?_
    · rintro ⟨outcome, houtcome, -⟩
      cases hread.symm.trans houtcome
    · rintro ⟨-, hahead | hstops | hselectable⟩
      · exact hreached hahead
      · exact hruns hstops
      · exact hunselectable hselectable

/-- **The root directory with its content metadata is reported as corruption**: the authority selects
the inode without metadata, and its own snapshot check wants both or neither. -/
theorem rootContent_reported_corrupt :
    let s := finalState (authority sampleContract) (.new ⟨0⟩) [sampleAcquire, bootstrap ⟨2⟩ ⟨1⟩]
    (inodeAt s.records ⟨1⟩ ⟨1⟩).map (·.kind) = some .directory ∧
    ∃ batch, ReadBatch.new ⟨1⟩ .latestLinearizable [.inodeWithContentMetadata ⟨1⟩]
        sampleContract.limits = .ok batch ∧
      readRequest sampleContract s batch = .error ⟨.read, .corruption⟩ := by
  refine ⟨by decide +kernel, ⟨⟨1⟩, .latestLinearizable, [.inodeWithContentMetadata ⟨1⟩]⟩, rfl, ?_⟩
  decide +kernel

end W9pt.State

import W9pt.State.Memory
import W9pt.State.Namespace

/-!
# Consistent reads (`w9pt-fs-state/src/read.rs`, `testing/memory.rs:186-358, 1920-2170`)

A batch of queries is answered from one revision. The adapter assembles the results and hands them
to `StateSnapshot::new`, which checks each result against its query; a result that fails the check
fails the whole read as corruption. Every answer is a function of the authority state, so a read is
not a step of the machine.
-/

namespace W9pt.State

open Lib

/-! ## Requests -/

/-- read.rs:14. -/
inductive ReadConsistency where
  | latestLinearizable
  | atLeast (required : StateRevision)

/-- Bounds of one page (read.rs:113). -/
structure ScanBounds where
  maxItems : UInt32
  maxBytes : Nat

/-- read.rs:168. -/
inductive InvalidScanBounds where
  | zeroItems
  | zeroBytes
  | limit (error : StateLimitError)

/-- read.rs:120. -/
def ScanBounds.new (maxItems : UInt32) (maxBytes : Nat) (limits : StateLimits) :
    Except InvalidScanBounds ScanBounds := do
  ensure (maxItems ≠ 0) .zeroItems
  ensure (maxBytes ≠ 0) .zeroBytes
  mapErr .limit (requireAtMost .scanItems maxItems.toNat limits.maxScanItems)
  mapErr .limit (requireAtMost .scanBytes maxBytes limits.maxScanBytes)
  return ⟨maxItems, maxBytes⟩

/-- Position after which a scan resumes (read.rs:218). -/
inductive ScanResume where
  | inode (inodeId : InodeId)
  | contentMetadata (fileId : FileId)
  | directoryEntry (cookie : DirectoryCookie)
  | openInstance (openId : OpenId)
  | openPin (inodeId : InodeId) (openId : OpenId)
  | orphan (inodeId : InodeId)
  | lock (inodeId : InodeId) (lockId : LockId)
  | xattr (inodeId : InodeId) (name : XattrName)
  | xattrStaging (stagingId : XattrStagingId)
  | mutation (mutationId : MutationId)
  | writerLease (scope : WriterScopeId)
deriving DecidableEq

/-- read.rs:245. -/
def ScanResume.family : ScanResume → RecordFamily
  | inode _ => .inode
  | contentMetadata _ => .contentMetadata
  | directoryEntry _ => .directoryEntry
  | openInstance _ => .openInstance
  | openPin _ _ => .openPin
  | orphan _ => .orphan
  | lock _ _ => .lock
  | xattr _ _ => .xattr
  | xattrStaging _ => .xattrStaging
  | mutation _ => .mutation
  | writerLease _ => .writerLease

/-- The derived order of two cursors of one family. -/
def ScanResume.sortKey : ScanResume → List Nat
  | inode i => [0, i.rank]
  | contentMetadata f => [1, f.rank]
  | directoryEntry c => [2, c.get.toNat]
  | openInstance o => [3, o.rank]
  | openPin i o => [4, i.rank, o.rank]
  | orphan i => [5, i.rank]
  | lock i l => [6, i.rank, l.rank]
  | xattr i name => 7 :: i.rank :: name.bytes.map UInt8.toNat
  | xattrStaging s => [8, s.rank]
  | mutation m => [9, m.rank]
  | writerLease s => [10, s.rank]

/-- `a < b` in the derived order. -/
def ScanResume.before (a b : ScanResume) : Bool := (compare a.sortKey b.sortKey).isLT

/-- Ordered range read of one record family (read.rs:264). -/
inductive RecordScan where
  | inodes (after : Option InodeId) (bounds : ScanBounds)
  | contentMetadata (after : Option FileId) (bounds : ScanBounds)
  | directoryEntries (parentInodeId : InodeId) (after : DirectoryCookie) (bounds : ScanBounds)
  | opens (after : Option OpenId) (bounds : ScanBounds)
  | openPins (after : Option (InodeId × OpenId)) (bounds : ScanBounds)
  | orphans (after : Option InodeId) (bounds : ScanBounds)
  | locks (after : Option (InodeId × LockId)) (bounds : ScanBounds)
  | xattrs (after : Option (InodeId × XattrName)) (bounds : ScanBounds)
  | xattrStaging (after : Option XattrStagingId) (bounds : ScanBounds)
  | mutations (after : Option MutationId) (bounds : ScanBounds)
  | writerLeases (after : Option WriterScopeId) (bounds : ScanBounds)

namespace RecordScan

/-- read.rs:348. -/
def family : RecordScan → RecordFamily
  | inodes .. => .inode
  | contentMetadata .. => .contentMetadata
  | directoryEntries .. => .directoryEntry
  | opens .. => .openInstance
  | openPins .. => .openPin
  | orphans .. => .orphan
  | locks .. => .lock
  | xattrs .. => .xattr
  | xattrStaging .. => .xattrStaging
  | mutations .. => .mutation
  | writerLeases .. => .writerLease

/-- read.rs:365. -/
def bounds : RecordScan → ScanBounds
  | inodes _ b | contentMetadata _ b | directoryEntries _ _ b | opens _ b | openPins _ b
  | orphans _ b | locks _ b | xattrs _ b | xattrStaging _ b | mutations _ b | writerLeases _ b => b

def after : RecordScan → Option ScanResume
  | inodes after _ => after.map .inode
  | contentMetadata after _ => after.map .contentMetadata
  | directoryEntries _ after _ => some (.directoryEntry after)
  | opens after _ => after.map .openInstance
  | openPins after _ => after.map fun cursor => .openPin cursor.1 cursor.2
  | orphans after _ => after.map .orphan
  | locks after _ => after.map fun cursor => .lock cursor.1 cursor.2
  | xattrs after _ => after.map fun cursor => .xattr cursor.1 cursor.2
  | xattrStaging after _ => after.map .xattrStaging
  | mutations after _ => after.map .mutation
  | writerLeases after _ => after.map .writerLease

/-- `after.is_none_or(|cursor| position > cursor)`. -/
def beyond (scan : RecordScan) (position : ScanResume) : Bool :=
  scan.after.all (·.before position)

end RecordScan

/-- The cursor of a key whose order within its family is that of the key. -/
def RecordKey.resume : RecordKey → Option ScanResume
  | filesystem _ | directoryEntry .. => none
  | inode _ i => some (.inode i)
  | contentMetadata _ f => some (.contentMetadata f)
  | openInstance _ o => some (.openInstance o)
  | openPin _ i o => some (.openPin i o)
  | orphan _ i => some (.orphan i)
  | lock _ i l => some (.lock i l)
  | xattr _ i name => some (.xattr i name)
  | xattrStaging _ s => some (.xattrStaging s)
  | mutation _ m => some (.mutation m)
  | writerLease _ s => some (.writerLease s)

/-- One read of a batch (read.rs:384). -/
inductive ReadQuery where
  | filesystem
  | inode (inodeId : InodeId)
  | contentMetadata (fileId : FileId)
  | inodeWithContentMetadata (inodeId : InodeId)
  | inodeByQidPath (qidPath : QidPath)
  | directoryEntry (parentInodeId : InodeId) (name : EntryName)
  | directoryPage (parentInodeId : InodeId) (after : DirectoryCookie) (bounds : ScanBounds)
  | openInstance (openId : OpenId)
  | openPin (inodeId : InodeId) (openId : OpenId)
  | openPinCount (inodeId : InodeId)
  | orphan (inodeId : InodeId)
  | lock (inodeId : InodeId) (lockId : LockId)
  | xattr (inodeId : InodeId) (name : XattrName)
  | xattrStaging (stagingId : XattrStagingId)
  | mutation (mutationId : MutationId)
  | writerLease (scope : WriterScopeId)
  | scan (scan : RecordScan)

/-- read.rs:452. -/
def ReadQuery.pointKey (fs : FilesystemId) : ReadQuery → Option RecordKey
  | filesystem => some (.filesystem fs)
  | inode i => some (.inode fs i)
  | contentMetadata f => some (.contentMetadata fs f)
  | directoryEntry parent name => some (.directoryEntry fs parent name)
  | openInstance o => some (.openInstance fs o)
  | openPin i o => some (.openPin fs i o)
  | orphan i => some (.orphan fs i)
  | lock i l => some (.lock fs i l)
  | xattr i name => some (.xattr fs i name)
  | xattrStaging s => some (.xattrStaging fs s)
  | mutation m => some (.mutation fs m)
  | writerLease s => some (.writerLease fs s)
  | inodeWithContentMetadata _ | inodeByQidPath _ | directoryPage .. | openPinCount _ | scan _ =>
    none

def ReadQuery.bounds : ReadQuery → Option ScanBounds
  | scan s => some s.bounds
  | directoryPage _ _ bounds => some bounds
  | _ => none

/-- Queries against one filesystem at one revision (read.rs:23). -/
structure ReadBatch where
  filesystemId : FilesystemId
  consistency : ReadConsistency
  queries : List ReadQuery

/-- read.rs:31. -/
def ReadBatch.new (fs : FilesystemId) (consistency : ReadConsistency) (queries : List ReadQuery)
    (limits : StateLimits) : Except StateLimitError ReadBatch := do
  requireAtMost .readQueries queries.length limits.maxReadQueries
  return ⟨fs, consistency, queries⟩

/-- How an invalid bound of a batch is reported (`ReadBatch::validate`). -/
def InvalidScanBounds.limitError (limits : StateLimits) : InvalidScanBounds → StateLimitError
  | limit error => error
  | zeroItems => ⟨.scanItems, 0, limits.maxScanItems⟩
  | zeroBytes => ⟨.scanBytes, 0, limits.maxScanBytes⟩

/-- The name inside an attribute cursor (`ReadBatch::validate`). -/
def checkXattrCursor (limits : StateLimits) : ReadQuery → Except StateLimitError Unit
  | .scan (.xattrs (some cursor) _) =>
    requireAtMost .xattrName cursor.2.bytes.length limits.maxXattrNameBytes
  | _ => .ok ()

/-- The paging of one query (`ReadBatch::validate`). -/
def checkQueryBounds (limits : StateLimits) (query : ReadQuery) : Except StateLimitError Unit :=
  match query.bounds with
  | some bounds => do
    let _ ← mapErr (·.limitError limits) (ScanBounds.new bounds.maxItems bounds.maxBytes limits)
    checkXattrCursor limits query
  | none => .ok ()

/-- The point key of one query (`ReadBatch::validate`). -/
def checkQueryKey (limits : StateLimits) (fs : FilesystemId) (query : ReadQuery) :
    Except StateLimitError Unit :=
  match query.pointKey fs with
  | some key => key.validateAgainstLimits limits
  | none => .ok ()

/-- One iteration of `ReadBatch::validate`. -/
def checkQuery (limits : StateLimits) (fs : FilesystemId) (query : ReadQuery) :
    Except StateLimitError Unit := do
  checkQueryKey limits fs query
  checkQueryBounds limits query

/-- read.rs:65. -/
def ReadBatch.validate (batch : ReadBatch) (limits : StateLimits) : Except StateLimitError Unit := do
  requireAtMost .readQueries batch.queries.length limits.maxReadQueries
  batch.queries.forM (checkQuery limits batch.filesystemId)

/-! ## Results -/

/-- One entry of a directory page with its child's summary (read.rs:494). -/
structure DirectoryPageEntry where
  entry : DirectoryEntryRecord
  childKind : InodeKind
  childQidPath : QidPath
  childRecordRevision : RecordRevision
deriving DecidableEq

/-- read.rs:537. -/
def DirectoryPageEntry.retainedBytes (e : DirectoryPageEntry) : Nat :=
  e.entry.name.bytes.length * 2 + 192

/-- read.rs:549. -/
structure DirectoryPage where
  entries : List DirectoryPageEntry
  resume : Option DirectoryCookie
deriving DecidableEq

/-- read.rs:622. -/
structure ScanPage where
  family : RecordFamily
  records : List (RecordKey × StateRecord)
  resume : Option ScanResume
deriving DecidableEq

/-- Result of one query (read.rs:825). -/
inductive ReadResult where
  | point (key : RecordKey) (record : Option StateRecord)
  | inodeByQidPath (qidPath : QidPath) (inode : Option InodeRecord)
  | inodeWithContentMetadata (inodeId : InodeId) (inode : Option InodeRecord)
      (metadata : Option ContentMetadataRecord)
  | directoryPage (page : DirectoryPage)
  | openPinCount (inodeId : InodeId) (count : UInt64)
  | scan (page : ScanPage)
deriving DecidableEq

/-- Results of one batch at one revision (read.rs:864). -/
structure StateSnapshot where
  revision : StateRevision
  results : List ReadResult
deriving DecidableEq

/-- read.rs:871. -/
inductive ReadOutcome where
  | snapshot (snapshot : StateSnapshot)
  | revisionUnavailable (required current : StateRevision)
  | malformedRequest (error : StateLimitError)
  | scanBoundTooSmall (queryIndex requiredBytes : Nat)
deriving DecidableEq

/-- Invalid adapter-produced result (read.rs:985). -/
inductive InvalidStateSnapshot where
  | resultCount (expected actual : Nat)
  | unexpectedResult (index : Nat)
  | unexpectedRecordFamily (expected actual : RecordFamily)
  | invalidRecord (error : RecordValidationError)
  | scanOutsideFilesystem
  | recordOutsideScan
  | unorderedScan
  | scanItemLimit
  | scanByteLimit
  | invalidResumeCursor
  | recordRevisionAfterSnapshot

/-- What the loop over a page remembers: the position before the next entry and the bytes used. -/
structure PageScan (α : Type) where
  previous : α
  bytes : Nat := 0

/-- One iteration of `DirectoryPage::validate_against`. -/
def checkPageEntry (parent : InodeId) (bounds : ScanBounds) (revision : StateRevision)
    (s : PageScan DirectoryCookie) (e : DirectoryPageEntry) :
    Except InvalidStateSnapshot (PageScan DirectoryCookie) := do
  ensure (e.entry.parentInodeId = parent ∧ s.previous.get < e.entry.cookie.get) .recordOutsideScan
  ensure (e.entry.revision.get ≤ revision.get ∧ e.childRecordRevision.get ≤ revision.get)
    .recordRevisionAfterSnapshot
  ensure (s.bytes + e.retainedBytes ≤ bounds.maxBytes) .scanByteLimit
  return ⟨e.entry.cookie, s.bytes + e.retainedBytes⟩

/-- read.rs:576. -/
def DirectoryPage.validateAgainst (page : DirectoryPage) (parent : InodeId)
    (after : DirectoryCookie) (bounds : ScanBounds) (revision : StateRevision) :
    Except InvalidStateSnapshot Unit := do
  ensure (page.entries.length ≤ bounds.maxItems.toNat) .scanItemLimit
  let s ← page.entries.foldlM (checkPageEntry parent bounds revision) ⟨after, 0⟩
  ensure (∀ resume ∈ page.resume, page.entries ≠ [] ∧ resume = s.previous) .invalidResumeCursor

/-- read.rs:630. -/
def ScanPage.new (family : RecordFamily) (records : List (RecordKey × StateRecord))
    (resume : Option ScanResume) : Except InvalidStateSnapshot ScanPage := do
  records.forM fun item => do
    ensure (item.1.family = family) (.unexpectedRecordFamily family item.1.family)
    mapErr .invalidRecord (item.2.validateKey item.1)
  match resume with
  | some cursor => ensure (cursor.family = family) (.unexpectedRecordFamily family cursor.family)
  | none => .ok ()
  return ⟨family, records, resume⟩

/-- `scan_cursor` (read.rs:728): the cursor of a record lying in the scanned range. -/
def scanCursor (scan : RecordScan) (key : RecordKey) (record : StateRecord) : Option ScanResume :=
  match scan, key, record with
  | .directoryEntries wanted after _, .directoryEntry _ parent _, .directoryEntry entry =>
    if parent = wanted ∧ after.get < entry.cookie.get then some (.directoryEntry entry.cookie)
    else none
  | _, _, _ =>
    if key.family = scan.family ∧ record.family = scan.family then
      key.resume.filter scan.beyond
    else none

/-- One iteration of `ScanPage::validate_against`. -/
def checkScanRecord (fs : FilesystemId) (scan : RecordScan) (revision : StateRevision)
    (s : PageScan (Option ScanResume)) (item : RecordKey × StateRecord) :
    Except InvalidStateSnapshot (PageScan (Option ScanResume)) := do
  ensure (item.1.filesystemId = fs) .scanOutsideFilesystem
  ensure (item.2.revision.get ≤ revision.get) .recordRevisionAfterSnapshot
  let cursor ← okOr (scanCursor scan item.1 item.2) .recordOutsideScan
  ensure (s.previous.all (·.before cursor)) .unorderedScan
  let bytes := s.bytes + (item.1.retainedBytes + item.2.retainedBytes)
  ensure (bytes ≤ scan.bounds.maxBytes) .scanByteLimit
  return ⟨some cursor, bytes⟩

/-- read.rs:677. -/
def ScanPage.validateAgainst (page : ScanPage) (fs : FilesystemId) (scan : RecordScan)
    (revision : StateRevision) : Except InvalidStateSnapshot Unit := do
  ensure (page.family = scan.family) (.unexpectedRecordFamily scan.family page.family)
  ensure (page.records.length ≤ scan.bounds.maxItems.toNat) .scanItemLimit
  let s ← page.records.foldlM (checkScanRecord fs scan revision) ⟨none, 0⟩
  ensure (∀ resume ∈ page.resume, s.previous = some resume) .invalidResumeCursor

/-- A point result against its key and the snapshot (`StateSnapshot::new`). -/
def checkPoint (key : RecordKey) (revision : StateRevision) (record : Option StateRecord) :
    Except InvalidStateSnapshot Unit :=
  match record with
  | some record => do
    mapErr .invalidRecord (record.validateKey key)
    ensure (record.revision.get ≤ revision.get) .recordRevisionAfterSnapshot
  | none => .ok ()

/-- The inode and the metadata selected with it (`StateSnapshot::new`): both or neither. -/
def contentPairValid (inodeId : InodeId) (revision : StateRevision) :
    Option InodeRecord → Option ContentMetadataRecord → Bool
  | none, none => true
  | some inode, some metadata =>
    inode.inodeId == inodeId && inode.contentFileId == some metadata.contentFileId &&
    inode.contentContextId == some metadata.contextId &&
    inode.revision.get ≤ revision.get && metadata.revision.get ≤ revision.get
  | _, _ => false

/-- One iteration of `StateSnapshot::new`. -/
def checkResult (fs : FilesystemId) (revision : StateRevision) (index : Nat) (query : ReadQuery)
    (result : ReadResult) : Except InvalidStateSnapshot Unit :=
  match query, result with
  | .scan scan, .scan page => page.validateAgainst fs scan revision
  | .directoryPage parent after bounds, .directoryPage page =>
    page.validateAgainst parent after bounds revision
  | .openPinCount expected, .openPinCount inodeId _ =>
    ensure (expected = inodeId) (.unexpectedResult index)
  | .inodeByQidPath expected, .inodeByQidPath qidPath inode => do
    ensure (expected = qidPath) (.unexpectedResult index)
    match inode with
    | some inode => do
      ensure (inode.qidPath = qidPath) (.unexpectedResult index)
      ensure (inode.revision.get ≤ revision.get) .recordRevisionAfterSnapshot
    | none => .ok ()
  | .inodeWithContentMetadata expected, .inodeWithContentMetadata inodeId inode metadata => do
    ensure (expected = inodeId) (.unexpectedResult index)
    ensure (contentPairValid inodeId revision inode metadata) (.unexpectedResult index)
  | query, .point key record => do
    ensure (query.pointKey fs = some key) (.unexpectedResult index)
    checkPoint key revision record
  | _, _ => .error (.unexpectedResult index)

/-- The loop of `StateSnapshot::new`. -/
def checkResults (fs : FilesystemId) (revision : StateRevision) :
    Nat → List ReadQuery → List ReadResult → Except InvalidStateSnapshot Unit
  | index, query :: queries, result :: results => do
    checkResult fs revision index query result
    checkResults fs revision (index + 1) queries results
  | _, _, _ => .ok ()

/-- read.rs:894. -/
def StateSnapshot.new (revision : StateRevision) (batch : ReadBatch) (results : List ReadResult) :
    Except InvalidStateSnapshot StateSnapshot := do
  ensure (results.length = batch.queries.length)
    (.resultCount batch.queries.length results.length)
  checkResults batch.filesystemId revision 0 batch.queries results
  return ⟨revision, results⟩

/-! ## Answering a batch -/

/-- Why a batch is not answered with a snapshot. -/
inductive ReadStop where
  | outcome (outcome : ReadOutcome)
  | failure (kind : AdapterFailureKind)

/-- What the caller of a stopped read receives. -/
def ReadStop.result : ReadStop → Except MemoryStateStoreError ReadOutcome
  | outcome o => .ok o
  | failure kind => .error ⟨.read, kind⟩

/-- The entries of one directory beyond a cookie (`directory_candidates`). -/
def directoryCandidate (fs : FilesystemId) (parent : InodeId) (after : DirectoryCookie) :
    RecordKey × StateRecord → Option (RecordKey × DirectoryEntryRecord)
  | (.directoryEntry f p name, .directoryEntry entry) =>
    if f = fs ∧ p = parent ∧ after.get < entry.cookie.get then
      some (.directoryEntry f p name, entry)
    else none
  | _ => none

/-- The order of `selected` (memory.rs:2079): by cookie, then by name. -/
def candidateOrder (item : RecordKey × DirectoryEntryRecord) : List Nat :=
  item.2.cookie.get.toNat :: item.1.sortKey

/-- `directory_candidates` (memory.rs:2061): the first `limit` entries in cookie order. Keeping the
`limit` least while inserting is the same as sorting and truncating. -/
def directoryCandidates (records : RecordMap) (fs : FilesystemId) (parent : InodeId)
    (after : DirectoryCookie) (limit : Nat) : List (RecordKey × DirectoryEntryRecord) :=
  ((records.toList.filterMap (directoryCandidate fs parent after)).mergeSort
    fun a b => (compare (candidateOrder a) (candidateOrder b)).isLE).take limit

/-- The child summary of a page entry (`read_directory_page`). -/
def pageEntry (records : RecordMap) (fs : FilesystemId) (entry : DirectoryEntryRecord) :
    Except ReadStop DirectoryPageEntry :=
  match records[RecordKey.inode fs entry.childInodeId]? with
  | some (.inode child) => .ok ⟨entry, child.kind, child.qidPath, child.revision⟩
  | _ => .error (.failure .corruption)

/-- The loop of `read_directory_page`; `room` is the number of entries the
page may still take, `entries` and `bytes` what it holds. The result says whether a candidate was
left over. -/
def fillPage (records : RecordMap) (fs : FilesystemId) (bounds : ScanBounds) (index : Nat) :
    Nat → List DirectoryPageEntry → Nat → List DirectoryEntryRecord →
    Except ReadStop (List DirectoryPageEntry × Bool)
  | _, entries, _, [] => .ok (entries, false)
  | 0, entries, _, _ :: _ => .ok (entries, true)
  | room + 1, entries, bytes, candidate :: rest => do
    let item ← pageEntry records fs candidate
    if bounds.maxBytes < bytes + item.retainedBytes then
      if entries = [] then .error (.outcome (.scanBoundTooSmall index item.retainedBytes))
      else .ok (entries, true)
    else fillPage records fs bounds index room (entries ++ [item]) (bytes + item.retainedBytes) rest

/-- memory.rs:1922. -/
def readDirectoryPage (records : RecordMap) (fs : FilesystemId) (index : Nat) (parent : InodeId)
    (after : DirectoryCookie) (bounds : ScanBounds) : Except ReadStop DirectoryPage := do
  let candidates := directoryCandidates records fs parent after (bounds.maxItems.toNat + 1)
  let (entries, more) ← fillPage records fs bounds index bounds.maxItems.toNat [] 0
    (candidates.map Prod.snd)
  return ⟨entries, if more then entries.getLast?.map (·.entry.cookie) else none⟩

/-- `scan_resume` (memory.rs:2089): the cursor of a record that a scan takes. -/
def scanResume (fs : FilesystemId) (scan : RecordScan) (item : RecordKey × StateRecord) :
    Option ((RecordKey × StateRecord) × ScanResume) :=
  if item.1.filesystemId = fs ∧ item.1.family = scan.family then
    (item.1.resume.filter scan.beyond).map (item, ·)
  else none

/-- The candidates of a scan in order, at most `limit` (`read_scan`). -/
def scanCandidates (records : RecordMap) (fs : FilesystemId) (limit : Nat) :
    RecordScan → List ((RecordKey × StateRecord) × ScanResume)
  | .directoryEntries parent after _ =>
    (directoryCandidates records fs parent after limit).map fun item =>
      ((item.1, .directoryEntry item.2), .directoryEntry item.2.cookie)
  | scan => (records.toList.filterMap (scanResume fs scan)).take limit

/-- The loop of `read_scan`. -/
def fillScan (maxBytes index : Nat) :
    Nat → List ((RecordKey × StateRecord) × ScanResume) → Nat →
    List ((RecordKey × StateRecord) × ScanResume) →
    Except ReadStop (List ((RecordKey × StateRecord) × ScanResume) × Bool)
  | _, taken, _, [] => .ok (taken, false)
  | 0, taken, _, _ :: _ => .ok (taken, true)
  | room + 1, taken, bytes, candidate :: rest =>
    let size := candidate.1.1.retainedBytes + candidate.1.2.retainedBytes
    if maxBytes < bytes + size then
      if taken = [] then .error (.outcome (.scanBoundTooSmall index size)) else .ok (taken, true)
    else fillScan maxBytes index room (taken ++ [candidate]) (bytes + size) rest

/-- memory.rs:1988. -/
def readScan (records : RecordMap) (fs : FilesystemId) (index : Nat) (scan : RecordScan) :
    Except ReadStop ScanPage := do
  let (taken, more) ← fillScan scan.bounds.maxBytes index scan.bounds.maxItems.toNat [] 0
    (scanCandidates records fs (scan.bounds.maxItems.toNat + 1) scan)
  mapErr (fun _ => ReadStop.failure .corruption)
    (ScanPage.new scan.family (taken.map Prod.fst)
      (if more then taken.getLast?.map Prod.snd else none))

/-- The inode of a QID path, first in key order (`read_request`). -/
def inodeWithQidPath (records : RecordMap) (fs : FilesystemId) (qidPath : QidPath) :
    Option InodeRecord :=
  records.toList.findSome? fun
    | (.inode f _, .inode inode) => if f = fs ∧ inode.qidPath = qidPath then some inode else none
    | _ => none

/-- The body of the loop over the queries (`read_request`). -/
def readQuery (records : RecordMap) (fs : FilesystemId) (index : Nat) (query : ReadQuery) :
    Except ReadStop ReadResult :=
  match query with
  | .openPinCount inodeId => do
    let count := pinCount records fs inodeId
    ensure (count < 2 ^ 64) (.failure .corruption)
    return .openPinCount inodeId (UInt64.ofNat count)
  | .directoryPage parent after bounds => do
    let page ← readDirectoryPage records fs index parent after bounds
    return .directoryPage page
  | .inodeByQidPath qidPath => .ok (.inodeByQidPath qidPath (inodeWithQidPath records fs qidPath))
  | .inodeWithContentMetadata inodeId =>
    let inode := inodeAt records fs inodeId
    .ok (.inodeWithContentMetadata inodeId inode (inode.bind (contentMetadataOf records fs)))
  | .scan scan => do
    let page ← readScan records fs index scan
    return .scan page
  | query =>
    match query.pointKey fs with
    | some key => .ok (.point key records[key]?)
    | none => .error (.failure .internal)

def readQueries (records : RecordMap) (fs : FilesystemId) :
    Nat → List ReadQuery → Except ReadStop (List ReadResult)
  | _, [] => .ok []
  | index, query :: rest => do
    let result ← readQuery records fs index query
    let results ← readQueries records fs (index + 1) rest
    return result :: results

/-- The revision a batch asks for has been reached (`read_request`). -/
def checkConsistency (current : StateRevision) : ReadConsistency → Except ReadStop Unit
  | .latestLinearizable => .ok ()
  | .atLeast required =>
    ensure (required.get ≤ current.get) (.outcome (.revisionUnavailable required current))

def readSnapshot (contract : Contract) (s : AuthorityState) (batch : ReadBatch) :
    Except ReadStop StateSnapshot := do
  mapErr (fun e => ReadStop.outcome (.malformedRequest e)) (batch.validate contract.limits)
  checkConsistency s.revision batch.consistency
  let results ← readQueries s.records batch.filesystemId 0 batch.queries
  mapErr (fun _ => ReadStop.failure .corruption) (StateSnapshot.new s.revision batch results)

/-- memory.rs:187. -/
def readRequest (contract : Contract) (s : AuthorityState) (batch : ReadBatch) :
    Except MemoryStateStoreError ReadOutcome :=
  match readSnapshot contract s batch with
  | .ok snapshot => .ok (.snapshot snapshot)
  | .error stop => stop.result

end W9pt.State

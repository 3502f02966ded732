import W9pt.State.Read
import W9pt.Lib.Paging

/-!
# Scans and directory pages are complete

A scan walks the records of one family in key order, a directory is walked in cookie order; both stop at
their bounds and hand out the cursor of the last item (`memory.rs:1922-2166`). A record set can be
scanned when its records stand under their keys, carry no later revision than the snapshot, and no two
entries of a directory share a cookie (`Scannable`). Then every page passes the check of its consumer,
and a client that goes on from each cursor meets every matching record once, in order. Between two
pages anything may change; what stands under one key and cookie all along is still returned once.
-/

namespace W9pt.State

open Lib

/-! ## Positions -/

def position : RecordKey × StateRecord → ScanResume
  | (.directoryEntry .., .directoryEntry entry) => .directoryEntry entry.cookie
  | (key, _) => key.resume.getD (.directoryEntry .start)

abbrev ScanResume.Before (a b : ScanResume) : Prop := a.before b = true

theorem ScanResume.before_iff {a b : ScanResume} : a.Before b ↔ compare a.sortKey b.sortKey = .lt :=
  Ordering.isLT_iff_eq_lt

theorem before_cookie {a b : DirectoryCookie} :
    (ScanResume.directoryEntry a).Before (.directoryEntry b) ↔ a.get < b.get := by
  simp [ScanResume.before_iff, ScanResume.sortKey, List.compare_cons_cons, Nat.compare_eq_lt,
    UInt64.lt_iff_toNat_lt]

instance : IsTrans ScanResume ScanResume.Before where
  trans a b c hab hbc := by
    rw [ScanResume.before_iff] at *
    exact Std.TransCmp.lt_trans hab hbc

instance : Std.Irrefl ScanResume.Before where
  irrefl a h := by
    rw [ScanResume.before_iff, Std.ReflOrd.compare_self] at h
    cases h

/-- Keys of one family and filesystem are ordered as their cursors. -/
theorem resume_before {a b : RecordKey} {p q : ScanResume} (hfs : a.filesystemId = b.filesystemId)
    (hfamily : a.family = b.family) (ha : a.resume = some p) (hb : b.resume = some q)
    (h : compare a b = .lt) : p.Before q := by
  have h : compare a.sortKey b.sortKey = .lt := h
  rw [ScanResume.before_iff]
  cases a <;> cases b <;> cases hfamily
  all_goals
    cases ha <;> cases hb <;> cases hfs <;>
      simpa [RecordKey.sortKey, ScanResume.sortKey, List.compare_cons_cons] using h

/-! ## What a scan is about -/

def RecordScan.directory : RecordScan → Option InodeId
  | directoryEntries parent _ _ => some parent
  | _ => none

structure RecordScan.Matches (scan : RecordScan) (fs : FilesystemId) (records : RecordMap)
    (item : RecordKey × StateRecord) : Prop where
  stored : records[item.1]? = some item.2
  filesystem : item.1.filesystemId = fs
  family : item.1.family = scan.family
  directory : ∀ parent ∈ scan.directory, item.1.isEntryIn fs parent = true

/-- A record set whose pages can be checked against the revision of their snapshot. -/
structure Scannable (records : RecordMap) (revision : StateRevision) : Prop where
  /-- Every record stands under its own key. -/
  keyed : ∀ (key : RecordKey) r, records[key]? = some r → StateRecord.matchesKey key r = true
  /-- No record is newer than the snapshot. -/
  dated : ∀ (key : RecordKey) r, records[key]? = some r → r.revision.get ≤ revision.get
  /-- The child of every entry exists. -/
  children : ∀ fs e, IsEntry records fs e → ∃ child, inodeAt records fs e.childInodeId = some child
  /-- The entries of a directory have different cookies. -/
  cookies : ∀ fs e e', IsEntry records fs e → IsEntry records fs e' →
    e'.parentInodeId = e.parentInodeId → e'.cookie = e.cookie → e' = e

section Candidates

variable {records : RecordMap} {revision : StateRevision} {fs : FilesystemId} {parent : InodeId}
  {after : DirectoryCookie}

/-- All entries of a directory beyond a cookie, in order. -/
def directoryItems (records : RecordMap) (fs : FilesystemId) (parent : InodeId)
    (after : DirectoryCookie) : List (RecordKey × DirectoryEntryRecord) :=
  (records.toList.filterMap (directoryCandidate fs parent after)).mergeSort
    fun a b => (compare (candidateOrder a) (candidateOrder b)).isLE

variable {item : RecordKey × StateRecord}

theorem directoryCandidate_eq {candidate : RecordKey × DirectoryEntryRecord}
    (h : directoryCandidate fs parent after item = some candidate) :
    candidate.1 = item.1 ∧ item.2 = .directoryEntry candidate.2 := by
  obtain ⟨key, record⟩ := item
  cases key <;> cases record <;> simp only [directoryCandidate, reduceCtorEq] at h
  split at h
  · cases h
    exact ⟨rfl, rfl⟩
  · cases h

theorem mem_directoryItems (h : Scannable records revision) {item : RecordKey × DirectoryEntryRecord} :
    item ∈ directoryItems records fs parent after ↔
      IsEntry records fs item.2 ∧ item.1 = .directoryEntry fs item.2.parentInodeId item.2.name ∧
      item.2.parentInodeId = parent ∧ after.get < item.2.cookie.get := by
  rw [directoryItems, List.mem_mergeSort, List.mem_filterMap]
  constructor
  · rintro ⟨⟨key, record⟩, hmem, hcandidate⟩
    have hstored := Std.ExtTreeMap.mem_toList_iff_getElem?_eq_some.1 hmem
    have hkeyed := h.keyed key record hstored
    cases key <;> cases record <;> simp only [directoryCandidate, reduceCtorEq] at hcandidate
    case directoryEntry.directoryEntry f p name entry =>
      split at hcandidate
      · rename_i hrange
        obtain ⟨rfl, rfl, hbeyond⟩ := hrange
        cases hcandidate
        simp only [StateRecord.matchesKey, Bool.and_eq_true, beq_iff_eq] at hkeyed
        obtain ⟨rfl, rfl⟩ := hkeyed
        exact ⟨hstored, rfl, rfl, hbeyond⟩
      · cases hcandidate
  · rintro ⟨hentry, hkey, rfl, hbeyond⟩
    refine ⟨(item.1, .directoryEntry item.2), ?_, ?_⟩
    · rw [hkey]
      exact Std.ExtTreeMap.mem_toList_iff_getElem?_eq_some.2 hentry
    · simp only [hkey, directoryCandidate, hbeyond, and_self, if_true]
      rw [← hkey]

/-- Entries of one directory come in the order of their cookies. -/
theorem sorted_directoryItems (h : Scannable records revision) :
    (directoryItems records fs parent after).Pairwise
      fun a b => a.2.cookie.get < b.2.cookie.get := by
  have hle : (directoryItems records fs parent after).Pairwise fun a b =>
      (compare (candidateOrder a) (candidateOrder b)).isLE = true := by
    refine List.pairwise_mergeSort ?_ ?_ _
    · intro a b c
      exact Std.TransCmp.isLE_trans
    · intro a b
      rw [Bool.or_eq_true, Std.OrientedOrd.eq_swap (a := candidateOrder b)]
      cases compare (candidateOrder a) (candidateOrder b) <;> simp
  have hkeys : (directoryItems records fs parent after).Pairwise fun a b => a.1 ≠ b.1 := by
    refine (List.Perm.pairwise_iff (fun hne => Ne.symm hne) (List.mergeSort_perm _ _)).2 ?_
    refine List.Pairwise.filterMap _ ?_ Std.ExtTreeMap.distinct_keys_toList
    intro a a' hne b hb b' hb' heq
    rw [(directoryCandidate_eq hb).1, (directoryCandidate_eq hb').1] at heq
    exact hne (Std.compare_eq_iff_eq.2 heq)
  refine (hle.and hkeys).imp_of_mem ?_
  rintro a b ha hb ⟨hle, hne⟩
  obtain ⟨hentry, hkey, hparent, -⟩ := (mem_directoryItems h).1 ha
  obtain ⟨hentry', hkey', hparent', -⟩ := (mem_directoryItems h).1 hb
  rw [candidateOrder, candidateOrder, List.compare_cons_cons, Ordering.isLE_then_iff_and] at hle
  refine UInt64.lt_iff_toNat_lt.2 (lt_of_le_of_ne (Nat.isLE_compare.1 hle.1) fun hcookie => hne ?_)
  have hsame : b.2 = a.2 := h.cookies fs _ _ hentry hentry' (hparent'.trans hparent.symm) <| by
    cases hc : a.2.cookie
    cases hc' : b.2.cookie
    rw [hc, hc'] at hcookie
    exact congrArg _ (UInt64.toNat_inj.1 hcookie).symm
  rw [hkey, hkey', hsame]

/-- All records of a scan, each with its position, in order. -/
def scanItems (records : RecordMap) (fs : FilesystemId) :
    RecordScan → List ((RecordKey × StateRecord) × ScanResume)
  | .directoryEntries parent after _ => (directoryItems records fs parent after).map fun item =>
      ((item.1, .directoryEntry item.2), .directoryEntry item.2.cookie)
  | scan => records.toList.filterMap (scanResume fs scan)

theorem scanCandidates_eq (limit : Nat) (scan : RecordScan) :
    scanCandidates records fs limit scan = (scanItems records fs scan).take limit := by
  cases scan <;> first | rfl | exact List.map_take

variable {scan : RecordScan}

theorem RecordScan.beyond_iff {p : ScanResume} :
    scan.beyond p = true ↔ Beyond ScanResume.Before scan.after p := by
  unfold RecordScan.beyond Beyond
  cases scan.after <;> simp

/-- The position of a record outside directories is the cursor of its key. -/
theorem position_of_resume {p : ScanResume} (h : item.1.resume = some p) : position item = p := by
  obtain ⟨key, record⟩ := item
  cases key <;> cases h <;> rfl

/-- A key that a scan outside directories is about has a cursor. -/
theorem RecordScan.Matches.resume (h : scan.Matches fs records item) (hscan : scan.directory = none) :
    item.1.resume = some (position item) := by
  obtain ⟨key, record⟩ := item
  have hfamily := h.family
  cases key <;> first | rfl | skip
  all_goals cases scan <;> cases hscan <;> cases hfamily

/-- The scan of a directory, or one in key order. -/
theorem RecordScan.cases_directory (scan : RecordScan) :
    (∃ parent after bounds, scan = .directoryEntries parent after bounds) ∨ scan.directory = none := by
  cases scan <;> first | exact .inr rfl | exact .inl ⟨_, _, _, rfl⟩

theorem scanItems_plain (h : scan.directory = none) :
    scanItems records fs scan = records.toList.filterMap (scanResume fs scan) := by
  cases scan <;> first | rfl | cases h

theorem scanResume_eq_some {x : (RecordKey × StateRecord) × ScanResume} :
    scanResume fs scan item = some x ↔ (item.1.filesystemId = fs ∧ item.1.family = scan.family) ∧
      item.1.resume = some x.2 ∧ scan.beyond x.2 = true ∧ x.1 = item := by
  unfold scanResume
  split
  · rename_i hrange
    simp only [Option.map_eq_some_iff, Option.filter_eq_some_iff, hrange, and_self, true_and]
    constructor
    · rintro ⟨p, ⟨hp, hbeyond⟩, rfl⟩
      exact ⟨hp, hbeyond, rfl⟩
    · rintro ⟨hp, hbeyond, rfl⟩
      exact ⟨x.2, ⟨hp, hbeyond⟩, rfl⟩
  · rename_i hrange
    simp [hrange]

/-- A record in the directory of a scan is an entry of it. -/
theorem RecordScan.Matches.entry (h : Scannable records revision)
    (hmatches : scan.Matches fs records item) (hscan : scan.directory = some parent) :
    ∃ e, IsEntry records fs e ∧
      item = (.directoryEntry fs e.parentInodeId e.name, .directoryEntry e) ∧
      e.parentInodeId = parent := by
  obtain ⟨key, record⟩ := item
  have hentry := hmatches.directory parent hscan
  have hstored := hmatches.stored
  have hkeyed := h.keyed key record hstored
  cases key <;> simp only [RecordKey.isEntryIn, reduceCtorEq, Bool.and_eq_true, beq_iff_eq] at hentry
  cases record <;> simp only [StateRecord.matchesKey, reduceCtorEq, Bool.and_eq_true, beq_iff_eq] at hkeyed
  obtain ⟨rfl, rfl⟩ := hentry
  obtain ⟨rfl, rfl⟩ := hkeyed
  exact ⟨_, hstored, rfl, rfl⟩

theorem mem_scanItems (h : Scannable records revision) {x : (RecordKey × StateRecord) × ScanResume} :
    x ∈ scanItems records fs scan ↔ scan.Matches fs records x.1 ∧ x.2 = position x.1 ∧
      Beyond ScanResume.Before scan.after x.2 := by
  rw [← RecordScan.beyond_iff]
  rcases scan.cases_directory with ⟨parent, after, bounds, rfl⟩ | hplain
  · simp only [scanItems, List.mem_map]
    constructor
    · rintro ⟨item, hitem, rfl⟩
      obtain ⟨hentry, hkey, hparent, hbeyond⟩ := (mem_directoryItems h).1 hitem
      rw [hkey]
      refine ⟨⟨hentry, rfl, rfl, ?_⟩, rfl, ?_⟩
      · rintro _ ⟨⟩
        simp [RecordKey.isEntryIn, hparent]
      · exact before_cookie.2 hbeyond
    · rintro ⟨hmatches, hposition, hbeyond⟩
      obtain ⟨e, hentry, hx, hparent⟩ := RecordScan.Matches.entry h hmatches rfl
      rw [hposition, hx] at hbeyond
      refine ⟨(.directoryEntry fs e.parentInodeId e.name, e),
        (mem_directoryItems h).2 ⟨hentry, rfl, hparent, before_cookie.1 hbeyond⟩, ?_⟩
      rw [← hx]
      exact Prod.ext rfl (by rw [hposition, hx]; rfl)
  · rw [scanItems_plain hplain, List.mem_filterMap]
    constructor
    · rintro ⟨item, hmem, hresume⟩
      obtain ⟨⟨hfs, hfamily⟩, hp, hbeyond, rfl⟩ := scanResume_eq_some.1 hresume
      refine ⟨⟨Std.ExtTreeMap.mem_toList_iff_getElem?_eq_some.1 hmem, hfs, hfamily, ?_⟩,
        (position_of_resume hp).symm, hbeyond⟩
      simp [hplain]
    · rintro ⟨hmatches, hposition, hbeyond⟩
      refine ⟨x.1, Std.ExtTreeMap.mem_toList_iff_getElem?_eq_some.2 hmatches.stored, ?_⟩
      exact scanResume_eq_some.2 ⟨⟨hmatches.filesystem, hmatches.family⟩,
        hposition ▸ hmatches.resume hplain, hbeyond, rfl⟩

/-- **The records of a scan come in the order of their positions.** -/
theorem sorted_scanItems (h : Scannable records revision) (scan : RecordScan) :
    (scanItems records fs scan).Pairwise fun a b => a.2.Before b.2 := by
  rcases scan.cases_directory with ⟨parent, after, bounds, rfl⟩ | hplain
  · exact List.pairwise_map.2 ((sorted_directoryItems h).imp before_cookie.2)
  · rw [scanItems_plain hplain]
    refine List.Pairwise.filterMap _ ?_ Std.ExtTreeMap.ordered_keys_toList
    intro a b hlt x hx y hy
    obtain ⟨⟨hfs, hfamily⟩, hp, -⟩ := scanResume_eq_some.1 hx
    obtain ⟨⟨hfs', hfamily'⟩, hq, -⟩ := scanResume_eq_some.1 hy
    exact resume_before (hfs.trans hfs'.symm) (hfamily.trans hfamily'.symm) hp hq hlt

end Candidates

/-! ## Filling pages -/

def itemBytes (item : RecordKey × StateRecord) : Nat := item.1.retainedBytes + item.2.retainedBytes

def located (item : RecordKey × StateRecord) : (RecordKey × StateRecord) × ScanResume :=
  (item, position item)

/-- The loop of `read_scan` fills a page. -/
theorem fillScan_eq (maxBytes index room bytes : Nat) (taken candidates : List (RecordKey × StateRecord)) :
    fillScan maxBytes index room (taken.map located) bytes (candidates.map located) =
      (fill itemBytes (fun size => .outcome (.scanBoundTooSmall index size)) maxBytes room taken bytes
        candidates).map fun page => (page.1.map located, page.2) := by
  induction candidates generalizing room taken bytes with
  | nil => cases room <;> rfl
  | cons candidate rest ih =>
    cases room with
    | zero => rfl
    | succ room =>
      simp only [List.map_cons, fillScan, fill, List.map_eq_nil_iff]
      change (if maxBytes < bytes + itemBytes candidate then _ else _) = _
      split
      · split <;> rfl
      · rw [← ih, List.map_append]
        rfl

/-- The loop over a page, whose check passes for each item in its place, ends at the last item. -/
theorem foldlM_page {α κ γ ε : Type} {lt : κ → κ → Prop} {pos : α → κ} {size : α → Nat}
    {check : PageScan γ → α → Except ε (PageScan γ)} {Before : γ → κ → Prop} {maxBytes : Nat} (mark : κ → γ)
    (hmark : ∀ a b, lt a b → Before (mark a) b) {items : List α}
    (step : ∀ x ∈ items, ∀ s, Before s.previous (pos x) → s.bytes + size x ≤ maxBytes →
      check s x = .ok ⟨mark (pos x), s.bytes + size x⟩)
    (hsorted : items.Pairwise fun a b => lt (pos a) (pos b)) {s : PageScan γ}
    (hprevious : ∀ x ∈ items, Before s.previous (pos x))
    (hbytes : s.bytes + (items.map size).sum ≤ maxBytes) :
    ∃ t, items.foldlM check s = .ok t ∧
      t.previous = (items.getLast?.map (mark <| pos ·)).getD s.previous := by
  induction items generalizing s with
  | nil => exact ⟨s, rfl, rfl⟩
  | cons item items ih =>
    obtain ⟨hfirst, hrest⟩ := List.pairwise_cons.1 hsorted
    simp only [List.map_cons, List.sum_cons] at hbytes
    have hstep := step item List.mem_cons_self s (hprevious item List.mem_cons_self) (by omega)
    obtain ⟨t, ht, hlast⟩ := ih (fun x hx => step x (List.mem_cons_of_mem _ hx)) hrest
      (s := ⟨mark (pos item), s.bytes + size item⟩) (fun x hx => hmark _ _ (hfirst x hx))
      (by simp only; omega)
    refine ⟨t, by rw [List.foldlM_cons, hstep, ok_bind, ht], ?_⟩
    rw [hlast]
    cases items with
    | nil => rfl
    | cons next items => simp [List.getLast?_cons]

section ScanPages

variable {records : RecordMap} {revision : StateRevision} {fs : FilesystemId} {scan : RecordScan}

/-- What a page of a scan holds. -/
structure ScanPage.Holds (page : ScanPage) (records : RecordMap) (fs : FilesystemId)
    (scan : RecordScan) : Prop where
  family : page.family = scan.family
  items : page.records.length ≤ scan.bounds.maxItems.toNat
  bytes : (page.records.map itemBytes).sum ≤ scan.bounds.maxBytes
  page : IsPage ScanResume.Before position (scan.Matches fs records) scan.after page.records page.resume

/-- The cursor of a matching record that a scan takes. -/
theorem scanCursor_eq (h : Scannable records revision) {item : RecordKey × StateRecord}
    (hmatches : scan.Matches fs records item)
    (hbeyond : Beyond ScanResume.Before scan.after (position item)) :
    scanCursor scan item.1 item.2 = some (position item) := by
  rcases scan.cases_directory with ⟨parent, after, bounds, rfl⟩ | hplain
  · obtain ⟨e, -, rfl, hparent⟩ := RecordScan.Matches.entry h hmatches rfl
    exact if_pos ⟨hparent, before_cookie.1 (hbeyond _ rfl)⟩
  · have hcursor : scanCursor scan item.1 item.2 =
        if item.1.family = scan.family ∧ item.2.family = scan.family then
          item.1.resume.filter scan.beyond else none := by
      cases scan <;> first | rfl | cases hplain
    have hfamily : item.2.family = item.1.family :=
      StateRecord.family_of_matchesKey (h.keyed _ _ hmatches.stored)
    rw [hcursor, if_pos ⟨hmatches.family, hfamily.trans hmatches.family⟩, hmatches.resume hplain,
      Option.filter_some, if_pos (RecordScan.beyond_iff.2 hbeyond)]

/-- **A page that a scan holds passes the check of its consumer.** -/
theorem ScanPage.Holds.validate (h : Scannable records revision) {page : ScanPage}
    (hpage : page.Holds records fs scan) : page.validateAgainst fs scan revision = .ok () := by
  have hstep : ∀ item ∈ page.records, ∀ s : PageScan (Option ScanResume),
      Beyond ScanResume.Before s.previous (position item) →
      s.bytes + itemBytes item ≤ scan.bounds.maxBytes →
      checkScanRecord fs scan revision s item = .ok ⟨some (position item), s.bytes + itemBytes item⟩ := by
    intro item hitem s hprevious hfits
    obtain ⟨hmatches, hbeyond⟩ := hpage.page.sound item hitem
    have hall : s.previous.all (·.before (position item)) = true := by
      cases hs : s.previous with
      | none => rfl
      | some cursor => exact hprevious cursor hs
    unfold itemBytes at hfits
    simp only [checkScanRecord, ensure_of hmatches.filesystem, ensure_of (h.dated _ _ hmatches.stored),
      scanCursor_eq h hmatches hbeyond, okOr, ensure_of hall, ensure_of hfits, ok_bind]
    rfl
  obtain ⟨t, ht, hlast⟩ := foldlM_page (s := ⟨none, 0⟩) some
    (by rintro a b hlt _ ⟨⟩; exact hlt) hstep hpage.page.sorted (by rintro _ _ _ ⟨⟩)
    (by simpa using hpage.bytes)
  simp only [ScanPage.validateAgainst, ensure_of hpage.family, ensure_of hpage.items, ht, ok_bind]
  refine ensure_of fun cursor hcursor => ?_
  obtain ⟨x, hx, rfl⟩ := hpage.page.last cursor hcursor
  rw [hlast, hx]
  rfl

theorem RecordScan.Matches.position_family (h : Scannable records revision)
    {item : RecordKey × StateRecord} (hmatches : scan.Matches fs records item) :
    (position item).family = scan.family := by
  rcases scan.cases_directory with ⟨parent, after, bounds, rfl⟩ | hplain
  · obtain ⟨e, -, rfl, -⟩ := RecordScan.Matches.entry h hmatches rfl
    rfl
  · have hresume := hmatches.resume hplain
    rw [← hmatches.family]
    generalize position item = p at hresume ⊢
    cases hkey : item.1 <;> rw [hkey] at hresume <;> cases hresume <;> rfl

theorem scanPage_new {family : RecordFamily} {items : List (RecordKey × StateRecord)}
    {resume : Option ScanResume}
    (hitems : ∀ x ∈ items, x.1.family = family ∧ StateRecord.matchesKey x.1 x.2 = true)
    (hresume : ∀ cursor ∈ resume, cursor.family = family) :
    ScanPage.new family items resume = .ok ⟨family, items, resume⟩ := by
  have hforM : (items.forM fun item => do
      ensure (item.1.family = family) (.unexpectedRecordFamily family item.1.family)
      mapErr .invalidRecord (item.2.validateKey item.1) : Except InvalidStateSnapshot PUnit) = .ok () := by
    refine forM_eq_ok.2 fun item hitem => ?_
    rw [ensure_of (hitems item hitem).1, ok_bind, mapErr_eq_ok]
    exact StateRecord.validateKey_eq_ok.2 (hitems item hitem).2
  unfold ScanPage.new
  rw [hforM, ok_bind]
  cases resume with
  | none => rfl
  | some cursor =>
    simp only [ensure_of (hresume cursor rfl), ok_bind]
    rfl

/-- **What reading one page of a scan gives**: the first records up to the bounds, or the size of a first
record that does not fit. -/
theorem readScan_cases (fs : FilesystemId) (h : Scannable records revision) (index : Nat)
    (nonzero : scan.bounds.maxItems ≠ 0) :
    (∃ page, readScan records fs index scan = .ok page ∧ page.Holds records fs scan) ∨
    ∃ x, IsFirst ScanResume.Before position (scan.Matches fs records) scan.after x ∧
      scan.bounds.maxBytes < itemBytes x ∧
      readScan records fs index scan = .error (.outcome (.scanBoundTooSmall index (itemBytes x))) := by
  have hroom : scan.bounds.maxItems.toNat ≠ 0 := fun hzero => nonzero (UInt32.toNat_inj.1 hzero)
  have hsorted : ((scanItems records fs scan).map Prod.fst).Pairwise
      fun a b => (position a).Before (position b) := by
    refine List.pairwise_map.2 ((sorted_scanItems h scan).imp_of_mem fun ha hb hlt => ?_)
    rwa [← ((mem_scanItems h).1 ha).2.1, ← ((mem_scanItems h).1 hb).2.1]
  have hmem : ∀ x, x ∈ (scanItems records fs scan).map Prod.fst ↔
      scan.Matches fs records x ∧ Beyond ScanResume.Before scan.after (position x) := by
    intro x
    rw [List.mem_map]
    constructor
    · rintro ⟨y, hy, rfl⟩
      obtain ⟨hmatches, hposition, hbeyond⟩ := (mem_scanItems h).1 hy
      exact ⟨hmatches, hposition ▸ hbeyond⟩
    · rintro ⟨hmatches, hbeyond⟩
      exact ⟨(x, position x), (mem_scanItems h).2 ⟨hmatches, rfl, hbeyond⟩, rfl⟩
  have hitems : scanItems records fs scan = ((scanItems records fs scan).map Prod.fst).map located := by
    rw [List.map_map]
    refine (List.map_id _).symm.trans (List.map_congr_left fun x hx => ?_)
    exact Prod.ext rfl ((mem_scanItems h).1 hx).2.1
  unfold readScan
  rw [scanCandidates_eq, hitems, ← List.map_take]
  have hfill := fillScan_eq scan.bounds.maxBytes index scan.bounds.maxItems.toNat 0 []
    (((scanItems records fs scan).map Prod.fst).take (scan.bounds.maxItems.toNat + 1))
  rw [List.map_nil] at hfill
  rw [hfill]
  rcases page_of_fill itemBytes (fun size => ReadStop.outcome (.scanBoundTooSmall index size))
    scan.bounds.maxBytes hroom hsorted hmem with
    ⟨page, more, hok, hlength, hbytes, hpage⟩ | ⟨x, hfirst, hlarge, herror⟩
  · left
    refine ⟨⟨scan.family, page, if more then page.getLast?.map position else none⟩, ?_, rfl, hlength,
      hbytes, hpage⟩
    have hnew : ScanPage.new scan.family page (if more then page.getLast?.map position else none) =
        .ok ⟨scan.family, page, if more then page.getLast?.map position else none⟩ := by
      refine scanPage_new (fun x hx => ?_) fun cursor hcursor => ?_
      · obtain ⟨hmatches, -⟩ := hpage.sound x hx
        exact ⟨hmatches.family, h.keyed _ _ hmatches.stored⟩
      · obtain ⟨x, hx, rfl⟩ := hpage.last cursor hcursor
        exact RecordScan.Matches.position_family h (hpage.sound x (List.mem_of_getLast? hx)).1
    have hfst : (page.map located).map Prod.fst = page := by
      rw [List.map_map]
      exact List.map_id _
    have hsnd : (page.map located).getLast?.map Prod.snd = page.getLast?.map position := by
      rw [List.getLast?_map, Option.map_map]
      rfl
    simp only [hok, Except.map, ok_bind, hfst, hsnd, hnew]
    rfl
  · refine .inr ⟨x, hfirst, hlarge, ?_⟩
    rw [herror]
    rfl

end ScanPages

/-! ## Directory pages -/

abbrev DirectoryCookie.Before (a b : DirectoryCookie) : Prop := a.get < b.get

instance : IsTrans DirectoryCookie DirectoryCookie.Before where
  trans _ _ _ := UInt64.lt_trans

instance : Std.Irrefl DirectoryCookie.Before where
  irrefl _ := UInt64.lt_irrefl _

abbrev DirectoryPageEntry.cookie (e : DirectoryPageEntry) : DirectoryCookie := e.entry.cookie

/-- An entry of the directory, joined to the summary of its child. -/
structure Listed (fs : FilesystemId) (parent : InodeId) (records : RecordMap) (e : DirectoryPageEntry) :
    Prop where
  stored : IsEntry records fs e.entry
  parent : e.entry.parentInodeId = parent
  joined : pageEntry records fs e.entry = .ok e

theorem pageEntry_eq_ok {records : RecordMap} {fs : FilesystemId} {entry : DirectoryEntryRecord}
    {item : DirectoryPageEntry} : pageEntry records fs entry = .ok item ↔
      ∃ child, inodeAt records fs entry.childInodeId = some child ∧
        item = ⟨entry, child.kind, child.qidPath, child.revision⟩ := by
  unfold pageEntry
  split
  · rename_i child hchild
    simp [inodeAt_eq_some.2 hchild, eq_comm]
  · rename_i hmissing
    constructor
    · intro h
      cases h
    · rintro ⟨child, hchild, -⟩
      exact absurd (inodeAt_eq_some.1 hchild) (hmissing child)

/-- The loop of `read_directory_page` fills a page, when the children of the candidates exist. -/
theorem fillPage_eq (records : RecordMap) (fs : FilesystemId) (bounds : ScanBounds)
    (index room bytes : Nat) (taken : List DirectoryPageEntry)
    {candidates : List DirectoryEntryRecord} {items : List DirectoryPageEntry}
    (hitems : List.Forall₂ (fun e item => pageEntry records fs e = .ok item) candidates items) :
    fillPage records fs bounds index room taken bytes candidates =
      fill DirectoryPageEntry.retainedBytes (fun size => .outcome (.scanBoundTooSmall index size))
        bounds.maxBytes room taken bytes items := by
  induction hitems generalizing room taken bytes with
  | nil => cases room <;> rfl
  | cons hitem _ ih =>
    cases room with
    | zero => rfl
    | succ room =>
      simp only [fillPage, fill, hitem, ok_bind, ih]

section DirectoryPages

variable {records : RecordMap} {revision : StateRevision} {fs : FilesystemId} {parent : InodeId}
  {after : DirectoryCookie} {bounds : ScanBounds}

/-- What a page of a directory holds. -/
structure DirectoryPage.Holds (page : DirectoryPage) (records : RecordMap) (fs : FilesystemId)
    (parent : InodeId) (after : DirectoryCookie) (bounds : ScanBounds) : Prop where
  items : page.entries.length ≤ bounds.maxItems.toNat
  bytes : (page.entries.map DirectoryPageEntry.retainedBytes).sum ≤ bounds.maxBytes
  page : IsPage DirectoryCookie.Before DirectoryPageEntry.cookie
    (Listed fs parent records) (some after) page.entries page.resume

/-- **A page that a directory holds passes the check of its consumer.** -/
theorem DirectoryPage.Holds.validate (h : Scannable records revision) {page : DirectoryPage}
    (hpage : page.Holds records fs parent after bounds) :
    page.validateAgainst parent after bounds revision = .ok () := by
  have hstep : ∀ item ∈ page.entries, ∀ s : PageScan DirectoryCookie, s.previous.Before item.cookie →
      s.bytes + item.retainedBytes ≤ bounds.maxBytes →
      checkPageEntry parent bounds revision s item =
        .ok ⟨item.cookie, s.bytes + item.retainedBytes⟩ := by
    intro item hitem s hprevious hfits
    obtain ⟨hstored, hparent, hjoined⟩ := (hpage.page.sound item hitem).1
    have hdated : item.entry.revision.get ≤ revision.get ∧
        item.childRecordRevision.get ≤ revision.get := by
      obtain ⟨child, hchild, hitem⟩ := pageEntry_eq_ok.1 hjoined
      refine ⟨h.dated _ _ hstored, ?_⟩
      rw [hitem]
      exact h.dated _ _ (inodeAt_eq_some.1 hchild)
    simp only [checkPageEntry, ensure_of (And.intro hparent hprevious), ensure_of hdated,
      ensure_of hfits, ok_bind]
    rfl
  obtain ⟨t, ht, hlast⟩ := foldlM_page (s := ⟨after, 0⟩) id (fun _ _ hlt => hlt) hstep
    hpage.page.sorted (fun x hx => (hpage.page.sound x hx).2 after rfl) (by simpa using hpage.bytes)
  simp only [DirectoryPage.validateAgainst, ensure_of hpage.items, ht, ok_bind]
  refine ensure_of fun cursor hcursor => ?_
  obtain ⟨x, hx, rfl⟩ := hpage.page.last cursor hcursor
  refine ⟨fun hnil => by simp [hnil] at hx, ?_⟩
  rw [hlast, hx]
  rfl

/-- All entries of a directory beyond a cookie, joined to their children, in order. -/
def joinedItems (records : RecordMap) (fs : FilesystemId) (parent : InodeId) (after : DirectoryCookie) :
    List DirectoryPageEntry :=
  ((directoryItems records fs parent after).map Prod.snd).filterMap fun e =>
    (pageEntry records fs e).toOption

theorem mem_joinedItems (h : Scannable records revision) {x : DirectoryPageEntry} :
    x ∈ joinedItems records fs parent after ↔
      Listed fs parent records x ∧ Beyond DirectoryCookie.Before (some after) x.cookie := by
  simp only [joinedItems, List.mem_filterMap, List.mem_map, toOption_eq_some]
  constructor
  · rintro ⟨e, ⟨item, hitem, rfl⟩, hjoined⟩
    obtain ⟨hentry, -, hparent, hbeyond⟩ := (mem_directoryItems h).1 hitem
    have hx : x.entry = item.2 := by
      obtain ⟨child, -, rfl⟩ := pageEntry_eq_ok.1 hjoined
      rfl
    rw [← hx] at hentry hparent hbeyond hjoined
    exact ⟨⟨hentry, hparent, hjoined⟩, by rintro _ ⟨⟩; exact hbeyond⟩
  · rintro ⟨⟨hentry, hparent, hjoined⟩, hbeyond⟩
    refine ⟨x.entry, ⟨(.directoryEntry fs x.entry.parentInodeId x.entry.name, x.entry), ?_, rfl⟩, hjoined⟩
    exact (mem_directoryItems h).2 ⟨hentry, rfl, hparent, hbeyond _ rfl⟩

theorem sorted_joinedItems (h : Scannable records revision) :
    (joinedItems records fs parent after).Pairwise fun a b => a.cookie.Before b.cookie := by
  have hcookies : ((directoryItems records fs parent after).map Prod.snd).Pairwise
      fun a b => a.cookie.get < b.cookie.get := List.pairwise_map.2 (sorted_directoryItems h)
  refine hcookies.filterMap _ ?_
  intro a b hlt x hx y hy
  obtain ⟨_, -, rfl⟩ := pageEntry_eq_ok.1 (toOption_eq_some.1 hx)
  obtain ⟨_, -, rfl⟩ := pageEntry_eq_ok.1 (toOption_eq_some.1 hy)
  exact hlt

/-- No entry is lost when the children exist. -/
theorem forall₂_joined {entries : List DirectoryEntryRecord}
    (h : ∀ e ∈ entries, ∃ child, inodeAt records fs e.childInodeId = some child) :
    List.Forall₂ (fun e item => pageEntry records fs e = .ok item) entries
      (entries.filterMap fun e => (pageEntry records fs e).toOption) := by
  induction entries with
  | nil => exact .nil
  | cons e entries ih =>
    obtain ⟨child, hchild⟩ := h e List.mem_cons_self
    have hjoined := pageEntry_eq_ok.2 ⟨child, hchild, rfl⟩
    simp only [List.filterMap_cons, toOption_eq_some.2 hjoined]
    exact .cons hjoined (ih fun e he => h e (List.mem_cons_of_mem _ he))

/-- **What reading one page of a directory gives**: the first entries up to the bounds, or the size of a
first entry that does not fit. -/
theorem readDirectoryPage_cases (fs : FilesystemId) (parent : InodeId) (after : DirectoryCookie)
    (h : Scannable records revision) (index : Nat)
    (nonzero : bounds.maxItems ≠ 0) :
    (∃ page, readDirectoryPage records fs index parent after bounds = .ok page ∧
      page.Holds records fs parent after bounds) ∨
    ∃ x : DirectoryPageEntry, IsFirst DirectoryCookie.Before DirectoryPageEntry.cookie
        (Listed fs parent records) (some after) x ∧ bounds.maxBytes < x.retainedBytes ∧
      readDirectoryPage records fs index parent after bounds =
        .error (.outcome (.scanBoundTooSmall index x.retainedBytes)) := by
  have hroom : bounds.maxItems.toNat ≠ 0 := fun hzero => nonzero (UInt32.toNat_inj.1 hzero)
  have hjoined : List.Forall₂ (fun e item => pageEntry records fs e = .ok item)
      ((directoryCandidates records fs parent after (bounds.maxItems.toNat + 1)).map Prod.snd)
      ((joinedItems records fs parent after).take (bounds.maxItems.toNat + 1)) := by
    rw [show directoryCandidates records fs parent after (bounds.maxItems.toNat + 1) =
      (directoryItems records fs parent after).take (bounds.maxItems.toNat + 1) from rfl, List.map_take]
    refine List.forall₂_take _ (forall₂_joined fun e he => ?_)
    obtain ⟨item, hitem, rfl⟩ := List.mem_map.1 he
    exact h.children fs item.2 ((mem_directoryItems h).1 hitem).1
  simp only [readDirectoryPage, fillPage_eq records fs bounds index _ 0 [] hjoined]
  rcases page_of_fill DirectoryPageEntry.retainedBytes
    (fun size => ReadStop.outcome (.scanBoundTooSmall index size)) bounds.maxBytes hroom (sorted_joinedItems h)
    (fun x => mem_joinedItems h) with
    ⟨page, more, hok, hlength, hbytes, hpage⟩ | ⟨x, hfirst, hlarge, herror⟩
  · refine .inl ⟨⟨page, if more then page.getLast?.map DirectoryPageEntry.cookie else none⟩, ?_,
      hlength, hbytes, hpage⟩
    rw [hok]
    rfl
  · refine .inr ⟨x, hfirst, hlarge, ?_⟩
    rw [herror]
    rfl

end DirectoryPages

/-! ## Whole scans -/

/-- Two scans of one range, from different positions. -/
structure RecordScan.SameRange (next scan : RecordScan) : Prop where
  family : next.family = scan.family
  directory : next.directory = scan.directory
  bounds : next.bounds = scan.bounds

theorem RecordScan.SameRange.matches_iff {next scan : RecordScan} (h : next.SameRange scan)
    {fs : FilesystemId} {records : RecordMap} :
    next.Matches fs records = scan.Matches fs records := by
  funext item
  refine propext ⟨fun hm => ?_, fun hm => ?_⟩
  · exact ⟨hm.stored, hm.filesystem, hm.family.trans h.family, h.directory ▸ hm.directory⟩
  · exact ⟨hm.stored, hm.filesystem, hm.family.trans h.family.symm, h.directory ▸ hm.directory⟩

/-- A cursor of the family of a scan can be scanned from. -/
theorem RecordScan.exists_resumed {scan : RecordScan} {cursor : ScanResume}
    (h : cursor.family = scan.family) : ∃ next : RecordScan, next.SameRange scan ∧
      next.after = some cursor := by
  cases scan <;> cases cursor <;> cases h
  case inodes.inode b i => exact ⟨.inodes (some i) b, ⟨rfl, rfl, rfl⟩, rfl⟩
  case contentMetadata.contentMetadata b f => exact ⟨.contentMetadata (some f) b, ⟨rfl, rfl, rfl⟩, rfl⟩
  case directoryEntries.directoryEntry p _ b c => exact ⟨.directoryEntries p c b, ⟨rfl, rfl, rfl⟩, rfl⟩
  case opens.openInstance b o => exact ⟨.opens (some o) b, ⟨rfl, rfl, rfl⟩, rfl⟩
  case openPins.openPin b i o => exact ⟨.openPins (some (i, o)) b, ⟨rfl, rfl, rfl⟩, rfl⟩
  case orphans.orphan b i => exact ⟨.orphans (some i) b, ⟨rfl, rfl, rfl⟩, rfl⟩
  case locks.lock b i l => exact ⟨.locks (some (i, l)) b, ⟨rfl, rfl, rfl⟩, rfl⟩
  case xattrs.xattr b i n => exact ⟨.xattrs (some (i, n)) b, ⟨rfl, rfl, rfl⟩, rfl⟩
  case xattrStaging.xattrStaging b s => exact ⟨.xattrStaging (some s) b, ⟨rfl, rfl, rfl⟩, rfl⟩
  case mutations.mutation b m => exact ⟨.mutations (some m) b, ⟨rfl, rfl, rfl⟩, rfl⟩
  case writerLeases.writerLease b s => exact ⟨.writerLeases (some s) b, ⟨rfl, rfl, rfl⟩, rfl⟩

/-- Reading one page of the range of a scan from a position. -/
def ReadsScan (fs : FilesystemId) (scan : RecordScan) (index : Nat) (records : RecordMap)
    (after : Option ScanResume) (page : List (RecordKey × StateRecord)) (resume : Option ScanResume) :
    Prop :=
  ∃ next : RecordScan, next.SameRange scan ∧ next.after = after ∧
    readScan records fs index next = .ok ⟨scan.family, page, resume⟩

/-- The bounds admit every single record of the scan. -/
structure RecordScan.Admits (scan : RecordScan) (fs : FilesystemId) (records : RecordMap) : Prop where
  items : scan.bounds.maxItems ≠ 0
  bytes : ∀ x, scan.Matches fs records x → itemBytes x ≤ scan.bounds.maxBytes

/-- What scanning a range of snapshots page by page guarantees. -/
structure ScanComplete (Snapshot : RecordMap → StateRevision → Prop) (fs : FilesystemId)
    (scan : RecordScan) (index : Nat) : Prop where
  /-- Every page respects its bounds and passes the check of its consumer. -/
  pages : ∀ records revision next, Snapshot records revision → next.SameRange scan →
    scan.Admits fs records → ∃ page, readScan records fs index next = .ok page ∧
      page.records.length ≤ scan.bounds.maxItems.toNat ∧
      (page.records.map itemBytes).sum ≤ scan.bounds.maxBytes ∧
      page.validateAgainst fs next revision = .ok ()
  /-- Going on from each cursor comes to an end. -/
  ends : ∀ records revision, Snapshot records revision → scan.Admits fs records →
    ∃ reads, Paged (ReadsScan fs scan index) scan.after reads ∧ ∀ read ∈ reads, read.1 = records
  /-- The records come in order, and each once. -/
  reads : scan.bounds.maxItems ≠ 0 → ReadsOnce ScanResume.Before position Prod.fst
    (ReadsScan fs scan index) (scan.Matches fs) (fun records => ∃ revision, Snapshot records revision)
    scan.after

section Scans

variable {fs : FilesystemId} {scan : RecordScan} {index : Nat} {records : RecordMap}
  {revision : StateRevision} {after resume : Option ScanResume} {page : List (RecordKey × StateRecord)}

theorem isPage_of_readsScan (h : Scannable records revision) (nonzero : scan.bounds.maxItems ≠ 0)
    (hread : ReadsScan fs scan index records after page resume) :
    IsPage ScanResume.Before position (scan.Matches fs records) after page resume := by
  obtain ⟨next, hrange, rfl, hread⟩ := hread
  rcases readScan_cases fs h index (hrange.bounds ▸ nonzero) with ⟨page', hpage', hholds⟩ | ⟨x, -, -, herror⟩
  · rw [hread] at hpage'
    cases hpage'
    exact hrange.matches_iff ▸ hholds.page
  · rw [hread] at herror
    cases herror

/-- From every cursor of its family a scan can go on. -/
theorem readsScan_of_admits (h : Scannable records revision) (hadmits : scan.Admits fs records)
    {next : RecordScan} (hrange : next.SameRange scan) :
    ∃ page resume, ReadsScan fs scan index records next.after page resume ∧
      IsPage ScanResume.Before position (scan.Matches fs records) next.after page resume ∧
      ∀ cursor ∈ resume, cursor.family = scan.family := by
  rcases readScan_cases fs h index (hrange.bounds ▸ hadmits.items) with
    ⟨page, hpage, hholds⟩ | ⟨x, hfirst, hlarge, -⟩
  · have hisPage := hrange.matches_iff ▸ hholds.page
    refine ⟨page.records, page.resume, ⟨next, hrange, rfl, ?_⟩, hisPage, fun cursor hcursor => ?_⟩
    · rw [hpage, ← hrange.family, ← hholds.family]
    · obtain ⟨x, hx, rfl⟩ := hisPage.last cursor hcursor
      exact RecordScan.Matches.position_family h (hisPage.sound x (List.mem_of_getLast? hx)).1
  · rw [hrange.matches_iff] at hfirst
    exact absurd (hadmits.bytes x hfirst.mem) (not_le.2 (hrange.bounds ▸ hlarge))

end Scans

/-- **Scans are complete.** -/
theorem scanComplete {Snapshot : RecordMap → StateRevision → Prop}
    (hscannable : ∀ records revision, Snapshot records revision → Scannable records revision)
    (fs : FilesystemId) (scan : RecordScan) (index : Nat) : ScanComplete Snapshot fs scan index where
  pages := by
    intro records revision next hsnapshot hrange hadmits
    have h := hscannable _ _ hsnapshot
    rcases readScan_cases fs h index (hrange.bounds ▸ hadmits.items) with
      ⟨page, hpage, hholds⟩ | ⟨x, hfirst, hlarge, -⟩
    · exact ⟨page, hpage, hrange.bounds ▸ hholds.items, hrange.bounds ▸ hholds.bytes,
        hholds.validate h⟩
    · rw [hrange.matches_iff] at hfirst
      exact absurd (hadmits.bytes x hfirst.mem) (not_le.2 (hrange.bounds ▸ hlarge))
  ends := by
    intro records revision hsnapshot hadmits
    have h := hscannable _ _ hsnapshot
    have hfinite : {x | scan.Matches fs records x}.Finite :=
      records.toList.finite_toSet.subset fun x hx =>
        Std.ExtTreeMap.mem_toList_iff_getElem?_eq_some.2 hx.stored
    have hreads : ∀ after, (∃ next : RecordScan, next.SameRange scan ∧ next.after = after) →
        ∃ page resume, ReadsScan fs scan index records after page resume ∧
          IsPage ScanResume.Before position (scan.Matches fs records) after page resume ∧
          ∀ cursor ∈ resume, ∃ next : RecordScan, next.SameRange scan ∧ next.after = some cursor := by
      rintro after ⟨next, hrange, rfl⟩
      obtain ⟨page, resume, hread, hpage, hfamily⟩ := readsScan_of_admits h hadmits hrange
      exact ⟨page, resume, hread, hpage, fun cursor hcursor =>
        RecordScan.exists_resumed (hfamily cursor hcursor)⟩
    exact exists_paged (fun after => ∃ next : RecordScan, next.SameRange scan ∧ next.after = after)
      hfinite hreads ⟨scan, ⟨rfl, rfl, rfl⟩, rfl⟩
  reads := by
    intro nonzero
    refine readsOnce ?_ ?_ scan.after
    · rintro records ⟨revision, h⟩ after page resume
      exact isPage_of_readsScan (hscannable _ _ h) nonzero
    · rintro records - x y hx hy hkey
      have hsame : x = y := Prod.ext hkey <| Option.some.inj (hx.stored.symm.trans (hkey ▸ hy.stored))
      rw [hsame]

def ReadsDirectory (fs : FilesystemId) (parent : InodeId) (bounds : ScanBounds) (index : Nat)
    (records : RecordMap) (after : Option DirectoryCookie) (page : List DirectoryPageEntry)
    (resume : Option DirectoryCookie) : Prop :=
  ∃ cookie, after = some cookie ∧
    readDirectoryPage records fs index parent cookie bounds = .ok ⟨page, resume⟩

/-- The bounds admit every single entry of the directory. -/
structure ScanBounds.Admits (bounds : ScanBounds) (fs : FilesystemId) (parent : InodeId)
    (records : RecordMap) : Prop where
  items : bounds.maxItems ≠ 0
  bytes : ∀ x : DirectoryPageEntry, Listed fs parent records x → x.retainedBytes ≤ bounds.maxBytes

/-- What reading a directory of snapshots page by page guarantees. -/
structure DirectoryComplete (Snapshot : RecordMap → StateRevision → Prop) (fs : FilesystemId)
    (parent : InodeId) (bounds : ScanBounds) (index : Nat) : Prop where
  /-- Every page respects its bounds and passes the check of its consumer. -/
  pages : ∀ records revision after, Snapshot records revision → bounds.Admits fs parent records →
    ∃ page, readDirectoryPage records fs index parent after bounds = .ok page ∧
      page.entries.length ≤ bounds.maxItems.toNat ∧
      (page.entries.map DirectoryPageEntry.retainedBytes).sum ≤ bounds.maxBytes ∧
      page.validateAgainst parent after bounds revision = .ok ()
  /-- Going on from each cookie comes to an end. -/
  ends : ∀ records revision after, Snapshot records revision → bounds.Admits fs parent records →
    ∃ reads, Paged (ReadsDirectory fs parent bounds index) (some after) reads ∧
      ∀ read ∈ reads, read.1 = records
  /-- The entries come in the order of their cookies, and each name once. -/
  reads : bounds.maxItems ≠ 0 → ∀ after, ReadsOnce DirectoryCookie.Before DirectoryPageEntry.cookie
    (·.entry.name) (ReadsDirectory fs parent bounds index) (Listed fs parent)
    (fun records => ∃ revision, Snapshot records revision) (some after)

section Directories

variable {fs : FilesystemId} {parent : InodeId} {bounds : ScanBounds} {index : Nat}
  {records : RecordMap} {revision : StateRevision}

theorem isPage_of_readsDirectory (h : Scannable records revision) (nonzero : bounds.maxItems ≠ 0)
    {after resume : Option DirectoryCookie} {page : List DirectoryPageEntry}
    (hread : ReadsDirectory fs parent bounds index records after page resume) :
    IsPage DirectoryCookie.Before DirectoryPageEntry.cookie (Listed fs parent records) after
      page resume := by
  obtain ⟨cookie, rfl, hread⟩ := hread
  rcases readDirectoryPage_cases fs parent cookie h index nonzero with
    ⟨page', hpage', hholds⟩ | ⟨x, -, -, herror⟩
  · rw [hread] at hpage'
    cases hpage'
    exact hholds.page
  · rw [hread] at herror
    cases herror

theorem Listed.eq {x y : DirectoryPageEntry} (hx : Listed fs parent records x)
    (hy : Listed fs parent records y) (hname : x.entry.name = y.entry.name) : x = y := by
  have hentry : x.entry = y.entry := by
    have hstored := hx.stored
    rw [IsEntry, hx.parent, ← hy.parent, hname, hy.stored] at hstored
    exact (StateRecord.directoryEntry.inj (Option.some.inj hstored)).symm
  exact Except.ok.inj (hx.joined.symm.trans (hentry ▸ hy.joined))

theorem directoryComplete {Snapshot : RecordMap → StateRevision → Prop}
    (hscannable : ∀ records revision, Snapshot records revision → Scannable records revision)
    (fs : FilesystemId) (parent : InodeId) (bounds : ScanBounds) (index : Nat) :
    DirectoryComplete Snapshot fs parent bounds index where
  pages := by
    intro records revision after hsnapshot hadmits
    have h := hscannable _ _ hsnapshot
    rcases readDirectoryPage_cases fs parent after h index hadmits.items with
      ⟨page, hpage, hholds⟩ | ⟨x, hfirst, hlarge, -⟩
    · exact ⟨page, hpage, hholds.items, hholds.bytes, hholds.validate h⟩
    · exact absurd (hadmits.bytes x hfirst.mem) (not_le.2 hlarge)
  ends := by
    intro records revision after hsnapshot hadmits
    have h := hscannable _ _ hsnapshot
    -- no cookie is zero, so every entry lies beyond the start
    have hfinite : {x : DirectoryPageEntry | Listed fs parent records x}.Finite := by
      refine (joinedItems records fs parent .start).finite_toSet.subset fun x hx => ?_
      refine (mem_joinedItems h).2 ⟨hx, ?_⟩
      rintro _ ⟨⟩
      refine UInt64.pos_iff_ne_zero.2 fun hzero => x.entry.cookie_ne ?_
      exact congrArg DirectoryCookie.mk hzero
    have hreads : ∀ after : Option DirectoryCookie, after.isSome →
        ∃ page resume, ReadsDirectory fs parent bounds index records after page resume ∧
          IsPage DirectoryCookie.Before DirectoryPageEntry.cookie
            (Listed fs parent records) after page resume ∧
          ∀ cursor ∈ resume, (some cursor).isSome := by
      intro after hafter
      obtain ⟨cookie, rfl⟩ := Option.isSome_iff_exists.1 hafter
      rcases readDirectoryPage_cases fs parent cookie h index hadmits.items with
        ⟨page, hpage, hholds⟩ | ⟨x, hfirst, hlarge, -⟩
      · exact ⟨page.entries, page.resume, ⟨cookie, rfl, hpage⟩, hholds.page, fun _ _ => rfl⟩
      · exact absurd (hadmits.bytes x hfirst.mem) (not_le.2 hlarge)
    exact exists_paged (fun after => after.isSome = true) hfinite hreads rfl
  reads := by
    intro nonzero after
    refine readsOnce ?_ ?_ (some after)
    · rintro records ⟨revision, h⟩ after page resume
      exact isPage_of_readsDirectory (hscannable _ _ h) nonzero
    · rintro records - x y hx hy hname
      rw [hx.eq hy hname]

end Directories

end W9pt.State

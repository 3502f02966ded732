import W9pt.State.Validate

/-!
# An accepted record map is a rooted namespace

`validate_record_set_with_limits` looks at one record at a time and at one bounded parent walk per
directory. `RootedNamespace` says what these local checks amount to together: seen from the root,
the entries of a filesystem form a tree of directories with files hanging off it, everything with a
link is reachable, and what has no link is held by its open pins.

`rootedNamespace_of_validate` is the result; it is assembled from one lemma per clause. The global
facts are the ancestry of a directory (`exists_ancestry`, read off the walk) and reachability
(`reachable_of_walk`, by induction along the same walk: the parent of a named directory contains an
entry, so it is not an orphan, so it is itself named).
-/

namespace W9pt.State

open Lib

/-! ## Reading a map by family -/

section

variable (records : RecordMap) (fs : FilesystemId)

def filesystemAt : Option FilesystemRecord :=
  match records[RecordKey.filesystem fs]? with
  | some (.filesystem record) => some record
  | _ => none

def inodeAt (inode : InodeId) : Option InodeRecord :=
  match records[RecordKey.inode fs inode]? with
  | some (.inode record) => some record
  | _ => none

def orphanAt (inode : InodeId) : Option OrphanRecord :=
  match records[RecordKey.orphan fs inode]? with
  | some (.orphan record) => some record
  | _ => none

def lockAt (inode : InodeId) (lock : LockId) :
    Option LockRecord :=
  match records[RecordKey.lock fs inode lock]? with
  | some (.lock record) => some record
  | _ => none

/-- The entry stands in the filesystem, under the key of its parent and name. -/
def IsEntry (entry : DirectoryEntryRecord) : Prop :=
  records[RecordKey.directoryEntry fs entry.parentInodeId entry.name]? = some (.directoryEntry entry)

end

section Lookup

variable {records : RecordMap} {fs : FilesystemId} {inode : InodeId}

theorem filesystemAt_eq_some {r : FilesystemRecord} :
    filesystemAt records fs = some r ↔ records[RecordKey.filesystem fs]? = some (.filesystem r) := by
  unfold filesystemAt
  split <;> simp_all

theorem inodeAt_eq_some {r : InodeRecord} :
    inodeAt records fs inode = some r ↔ records[RecordKey.inode fs inode]? = some (.inode r) := by
  unfold inodeAt
  split <;> simp_all

theorem orphanAt_eq_some {r : OrphanRecord} :
    orphanAt records fs inode = some r ↔ records[RecordKey.orphan fs inode]? = some (.orphan r) := by
  unfold orphanAt
  split <;> simp_all

theorem lockAt_eq_some {lock : LockId} {r : LockRecord} :
    lockAt records fs inode lock = some r ↔
      records[RecordKey.lock fs inode lock]? = some (.lock r) := by
  unfold lockAt
  split <;> simp_all

theorem requireInode_eq_ok {relation : String} {r : InodeRecord} :
    requireInode records fs inode relation = .ok r ↔ inodeAt records fs inode = some r := by
  unfold requireInode inodeAt
  split <;> simp_all

theorem requireFilesystem_eq_ok {relation : String} {r : FilesystemRecord} :
    requireFilesystem records fs relation = .ok r ↔ filesystemAt records fs = some r := by
  unfold requireFilesystem filesystemAt
  split <;> simp_all

end Lookup

/-! ## The abstract namespace -/

/-- Reachable from the root by a path of entries. -/
inductive Reachable (records : RecordMap) (fs : FilesystemId) (root : InodeId) : InodeId → Prop
  | root : Reachable records fs root root
  | entry {e : DirectoryEntryRecord} (parent : Reachable records fs root e.parentInodeId)
      (he : IsEntry records fs e) : Reachable records fs root e.childInodeId

/-- `path` follows recorded parents from its first directory to the root. -/
def ParentPath (records : RecordMap) (fs : FilesystemId) (root : InodeId) : List InodeId → Prop
  | [] => False
  | [last] => last = root
  | i :: j :: rest =>
    (∃ r, inodeAt records fs i = some r ∧ r.directoryParent = some j) ∧
      ParentPath records fs root (j :: rest)

/-- One filesystem of a record map is a well-formed rooted namespace. -/
structure RootedNamespace (records : RecordMap) (fs : FilesystemId) (root : InodeId)
    (maxDepth : Nat) : Prop where
  /-- The root is a directory and its own parent. -/
  root_self_parented : ∃ r, inodeAt records fs root = some r ∧ r.directoryParent = some root
  /-- No entry names the root. -/
  root_unnamed : ∀ e, IsEntry records fs e → e.childInodeId ≠ root
  /-- Every other linked directory is named by exactly one entry, in its recorded parent. -/
  directory_named : ∀ i r, inodeAt records fs i = some r → r.kind = .directory → i ≠ root →
    r.linkCount ≠ 0 → ∃ e, IsEntry records fs e ∧ e.childInodeId = i ∧
      r.directoryParent = some e.parentInodeId ∧
      ∀ e', IsEntry records fs e' → e'.childInodeId = i → e' = e
  /-- Its parents lead to the root, without repetition, in at most `maxDepth` steps. -/
  ancestry : ∀ i r, inodeAt records fs i = some r → r.kind = .directory → i ≠ root →
    r.linkCount ≠ 0 → ∃ path, path.head? = some i ∧ ParentPath records fs root path ∧
      path.Nodup ∧ path.length ≤ maxDepth + 1
  /-- Everything linked is reachable. -/
  reachable : ∀ i r, inodeAt records fs i = some r → r.linkCount ≠ 0 →
    Reachable records fs root i
  /-- A non-directory has as many links as entries naming it. -/
  link_count : ∀ i r, inodeAt records fs i = some r → r.kind ≠ .directory →
    r.linkCount.toNat = (namespaceEntries records fs i).length
  /-- No entry names, or lies in, an unlinked directory other than the root. -/
  unlinked_directory : ∀ i r, inodeAt records fs i = some r → r.kind = .directory → i ≠ root →
    r.linkCount = 0 → ∀ e, IsEntry records fs e → e.childInodeId ≠ i ∧ e.parentInodeId ≠ i
  /-- An unlinked inode is pinned and has an orphan record counting its pins. -/
  unlinked_pinned : ∀ i r, inodeAt records fs i = some r → r.linkCount = 0 →
    1 ≤ pinCount records fs i ∧
      ∃ o, orphanAt records fs i = some o ∧ o.openPinCount.toNat = pinCount records fs i
  /-- Only unlinked inodes have an orphan record. -/
  orphan_unlinked : ∀ i o, orphanAt records fs i = some o →
    ∃ r, inodeAt records fs i = some r ∧ r.linkCount = 0
  /-- QID paths are pairwise distinct. -/
  qid_injective : ∀ i j r s, inodeAt records fs i = some r → inodeAt records fs j = some s →
    r.qidPath = s.qidPath → i = j
  /-- No two locks conflict. -/
  locks_compatible : ∀ i j k l a b, lockAt records fs i k = some a → lockAt records fs j l = some b →
    (i, k) ≠ (j, l) → a.conflictsWith b = false

/-! ## What acceptance says about one record -/

section Accepted

variable {records : RecordMap} {limits : StateLimits} {fs : FilesystemId}

variable {key : RecordKey} {record : StateRecord}

theorem accepted_checkRecord (h : validateRecordSetWithLimits records limits = .ok ())
    (hr : records[key]? = some record) :
    ∃ s t, checkRecord records limits s (key, record) = .ok t := by
  obtain ⟨s, hfold, -⟩ := bind_eq_ok.1 h
  exact foldlM_ok_forall hfold _ (Std.ExtTreeMap.mem_toList_iff_getElem?_eq_some.2 hr)

theorem accepted_checkLinks (h : validateRecordSetWithLimits records limits = .ok ())
    (hr : records[key]? = some record) :
    checkLinks records (key, record) = .ok () := by
  obtain ⟨s, -, hlinks⟩ := bind_eq_ok.1 h
  exact forM_eq_ok.1 hlinks _ (Std.ExtTreeMap.mem_toList_iff_getElem?_eq_some.2 hr)

variable {s t : Seen}

theorem matchesKey_of_checkRecord (h : checkRecord records limits s (key, record) = .ok t) :
    StateRecord.matchesKey key record = true := by
  obtain ⟨_, hkey, -⟩ := bind_eq_ok.1 h
  exact StateRecord.validateKey_eq_ok.1 hkey

theorem accepted_matchesKey (h : validateRecordSetWithLimits records limits = .ok ())
    (hr : records[key]? = some record) :
    StateRecord.matchesKey key record = true := by
  obtain ⟨s, t, hc⟩ := accepted_checkRecord h hr
  exact matchesKey_of_checkRecord hc

variable {i : InodeId} {r : InodeRecord} {e : DirectoryEntryRecord} {header : FilesystemRecord}

theorem checkRecord_inode :
    checkRecord records limits s (.inode fs i, .inode r) = .ok t ↔
      i = r.inodeId ∧ checkInode records limits fs s r = .ok t := by
  simp [checkRecord, bind_eq_ok, StateRecord.validateKey_eq_ok, StateRecord.matchesKey,
    RecordKey.filesystemId]

theorem checkRecord_entry {n : EntryName} :
    checkRecord records limits s (.directoryEntry fs i n, .directoryEntry e) = .ok t ↔
      (i = e.parentInodeId ∧ n = e.name) ∧ checkDirectoryEntry records fs s e = .ok t := by
  simp [checkRecord, bind_eq_ok, StateRecord.validateKey_eq_ok, StateRecord.matchesKey,
    RecordKey.filesystemId]

theorem checkRecord_lock {k : LockId} {l : LockRecord} :
    checkRecord records limits s (.lock fs i k, .lock l) = .ok t ↔
      (i = l.inodeId ∧ k = l.lockId) ∧ checkLock records fs s l = .ok t := by
  simp [checkRecord, bind_eq_ok, StateRecord.validateKey_eq_ok, StateRecord.matchesKey,
    RecordKey.filesystemId]

section

variable (h : validateRecordSetWithLimits records limits = .ok ())

include h

/-- What the first pass establishes of an inode. -/
theorem accepted_inode (hr : inodeAt records fs i = some r) :
    r.inodeId = i ∧ ∃ header, filesystemAt records fs = some header ∧
      checkDirectoryParent records limits fs header r = .ok () := by
  obtain ⟨s, t, hc⟩ := accepted_checkRecord h (inodeAt_eq_some.1 hr)
  obtain ⟨hid, hc⟩ := checkRecord_inode.1 hc
  simp only [checkInode, bind_eq_ok, requireFilesystem_eq_ok] at hc
  obtain ⟨header, hheader, _, -, _, -, _, hparent, -⟩ := hc
  exact ⟨hid.symm, header, hheader, hparent⟩

theorem accepted_entry (he : IsEntry records fs e) :
    (∃ p, inodeAt records fs e.parentInodeId = some p ∧ p.kind = .directory) ∧
      ∃ header, filesystemAt records fs = some header := by
  obtain ⟨s, t, hc⟩ := accepted_checkRecord h he
  obtain ⟨-, hc⟩ := checkRecord_entry.1 hc
  simp only [checkDirectoryEntry, bind_eq_ok, requireInode_eq_ok, requireFilesystem_eq_ok,
    ensure_eq_ok] at hc
  obtain ⟨p, hp, _, hdir, _, -, header, hheader, -⟩ := hc
  exact ⟨⟨p, hp, hdir⟩, header, hheader⟩

theorem accepted_child (he : IsEntry records fs e) :
    ∃ child, inodeAt records fs e.childInodeId = some child := by
  obtain ⟨s, t, hc⟩ := accepted_checkRecord h he
  obtain ⟨-, hc⟩ := checkRecord_entry.1 hc
  simp only [checkDirectoryEntry, bind_eq_ok, ensure_eq_ok] at hc
  obtain ⟨_, -, _, -, _, hmem, -⟩ := hc
  obtain ⟨record, hrecord⟩ : ∃ record, records[RecordKey.inode fs e.childInodeId]? = some record :=
    ⟨_, Std.ExtTreeMap.getElem?_eq_some_getElem hmem⟩
  have hkeyed := accepted_matchesKey h hrecord
  cases record <;> simp only [StateRecord.matchesKey, reduceCtorEq] at hkeyed
  exact ⟨_, inodeAt_eq_some.2 hrecord⟩

theorem accepted_qidPath (hr : inodeAt records fs i = some r)
    (hh : filesystemAt records fs = some header) :
    r.qidPath.get < header.nextQidPath.get := by
  obtain ⟨s, t, hc⟩ := accepted_checkRecord h (inodeAt_eq_some.1 hr)
  have hc := (checkRecord_inode.1 hc).2
  simp only [checkInode, bind_eq_ok, requireFilesystem_eq_ok, ensure_eq_ok] at hc
  obtain ⟨header', hh', _, hlt, -⟩ := hc
  obtain rfl : header' = header := Option.some.inj (hh'.symm.trans hh)
  exact hlt

theorem accepted_cookie (he : IsEntry records fs e) (hh : filesystemAt records fs = some header) :
    e.cookie.get < header.nextDirectoryCookie.get := by
  obtain ⟨s, t, hc⟩ := accepted_checkRecord h he
  have hc := (checkRecord_entry.1 hc).2
  simp only [checkDirectoryEntry, bind_eq_ok, requireFilesystem_eq_ok, ensure_eq_ok] at hc
  obtain ⟨_, -, _, -, _, -, header', hh', _, hlt, -⟩ := hc
  obtain rfl : header' = header := Option.some.inj (hh'.symm.trans hh)
  exact hlt

theorem accepted_orphan {o : OrphanRecord} (ho : orphanAt records fs i = some o) :
    ∃ r, inodeAt records fs i = some r ∧ r.linkCount = 0 ∧
      pinCount records fs i = o.openPinCount.toNat := by
  have ho := orphanAt_eq_some.1 ho
  obtain ⟨s, t, hc⟩ := accepted_checkRecord h ho
  have hkey := matchesKey_of_checkRecord hc
  simp only [StateRecord.matchesKey, beq_iff_eq] at hkey
  simp only [checkRecord, bind_eq_ok, checkOrphan, requireInode_eq_ok, ensure_eq_ok,
    RecordKey.filesystemId, ← hkey] at hc
  obtain ⟨_, -, _, ⟨r, hr, _, hlinks, hpins⟩, -⟩ := hc
  exact ⟨r, hr, hlinks, hpins⟩

theorem accepted_root (hh : filesystemAt records fs = some header) :
    ∃ r, inodeAt records fs header.rootInodeId = some r ∧ r.kind = .directory ∧
      r.directoryParent = some header.rootInodeId := by
  obtain ⟨s, t, hc⟩ := accepted_checkRecord h (filesystemAt_eq_some.1 hh)
  simp only [checkRecord, bind_eq_ok, checkFilesystem, requireInode_eq_ok, ensure_eq_ok,
    RecordKey.filesystemId] at hc
  obtain ⟨_, -, _, ⟨r, hr, _, hdir, hparent⟩, -⟩ := hc
  refine ⟨r, hr, hdir, ?_⟩
  rw [hparent, (accepted_inode h hr).1]

end

/-! ## Entries naming an inode -/

theorem mem_namespaceEntries (h : validateRecordSetWithLimits records limits = .ok ()) :
    e ∈ namespaceEntries records fs i ↔ IsEntry records fs e ∧ e.childInodeId = i := by
  unfold namespaceEntries
  rw [List.mem_filterMap]
  constructor
  · rintro ⟨⟨key, record⟩, hmem, hname⟩
    have hr := Std.ExtTreeMap.mem_toList_iff_getElem?_eq_some.1 hmem
    unfold entryNaming at hname
    split at hname
    · rename_i f p n entry heq
      cases heq
      obtain ⟨⟨rfl, hchild⟩, rfl⟩ := by simpa using hname
      have hkey := accepted_matchesKey h hr
      simp only [StateRecord.matchesKey, Bool.and_eq_true, beq_iff_eq] at hkey
      obtain ⟨rfl, rfl⟩ := hkey
      exact ⟨hr, hchild⟩
    · cases hname
  · rintro ⟨he, hchild⟩
    exact ⟨_, Std.ExtTreeMap.mem_toList_iff_getElem?_eq_some.2 he, by simp [entryNaming, hchild]⟩

/-- The second pass on a directory, with its header. -/
theorem accepted_directoryLinks (h : validateRecordSetWithLimits records limits = .ok ())
    (hr : inodeAt records fs i = some r) (hdir : r.kind = .directory)
    (hh : filesystemAt records fs = some header) :
    if i = header.rootInodeId then namespaceEntries records fs i = []
    else if r.linkCount = 0 then
      namespaceEntries records fs i = [] ∧ ∀ key ∈ records.keys, key.isEntryIn fs i = false
    else (namespaceEntries records fs i).map (fun e => some e.parentInodeId) = [r.directoryParent]
    := by
  have hl := accepted_checkLinks h (inodeAt_eq_some.1 hr)
  simp only [checkLinks, checkLinkCount, hdir, ne_eq, not_true_eq_false, if_false, bind_eq_ok,
    checkDirectoryLinks, requireFilesystem_eq_ok] at hl
  obtain ⟨_, ⟨header', hh', hl⟩, -⟩ := hl
  obtain rfl : header' = header := Option.some.inj (hh'.symm.trans hh)
  split at hl
  · rename_i hroot
    rw [if_pos hroot]
    simpa using hl
  · rename_i hroot
    rw [if_neg hroot]
    split at hl
    · rename_i hzero
      rw [if_pos hzero]
      simpa [bind_eq_ok] using hl
    · rename_i hzero
      rw [if_neg hzero]
      simpa using hl

/-! ## Linked and unlinked directories -/

section

variable (h : validateRecordSetWithLimits records limits = .ok ())

include h

theorem root_unnamed_of_validate (hh : filesystemAt records fs = some header)
    (he : IsEntry records fs e) :
    e.childInodeId ≠ header.rootInodeId := by
  intro hchild
  obtain ⟨r, hr, hdir, -⟩ := accepted_root h hh
  have hnone := accepted_directoryLinks h hr hdir hh
  rw [if_pos rfl] at hnone
  have hmem := (mem_namespaceEntries h).2 ⟨he, hchild⟩
  rw [hnone] at hmem
  exact List.not_mem_nil hmem

theorem directory_named_of_validate (hh : filesystemAt records fs = some header)
    (hr : inodeAt records fs i = some r) (hdir : r.kind = .directory)
    (hroot : i ≠ header.rootInodeId) (hlinks : r.linkCount ≠ 0) :
    ∃ e, IsEntry records fs e ∧ e.childInodeId = i ∧ r.directoryParent = some e.parentInodeId ∧
      ∀ e', IsEntry records fs e' → e'.childInodeId = i → e' = e := by
  have hone := accepted_directoryLinks h hr hdir hh
  rw [if_neg hroot, if_neg hlinks] at hone
  obtain ⟨e, hentries, hparent⟩ := List.map_eq_singleton_iff.1 hone
  have hmem : e ∈ namespaceEntries records fs i := by rw [hentries]; exact List.mem_singleton_self e
  obtain ⟨he, hchild⟩ := (mem_namespaceEntries h).1 hmem
  refine ⟨e, he, hchild, hparent.symm, fun e' he' hchild' => ?_⟩
  have hmem' := (mem_namespaceEntries h).2 ⟨he', hchild'⟩
  rw [hentries] at hmem'
  exact List.mem_singleton.1 hmem'

theorem unlinked_directory_of_validate (hh : filesystemAt records fs = some header)
    (hr : inodeAt records fs i = some r) (hdir : r.kind = .directory)
    (hroot : i ≠ header.rootInodeId) (hlinks : r.linkCount = 0) (he : IsEntry records fs e) :
    e.childInodeId ≠ i ∧ e.parentInodeId ≠ i := by
  have hnone := accepted_directoryLinks h hr hdir hh
  rw [if_neg hroot, if_pos hlinks] at hnone
  obtain ⟨hnamed, hempty⟩ := hnone
  constructor
  · intro hchild
    have hmem := (mem_namespaceEntries h).2 ⟨he, hchild⟩
    rw [hnamed] at hmem
    exact List.not_mem_nil hmem
  · rintro rfl
    have hkey : RecordKey.directoryEntry fs e.parentInodeId e.name ∈ records.keys :=
      Std.ExtTreeMap.mem_keys.2 (Std.ExtTreeMap.mem_iff_isSome_getElem?.2 (by rw [he]; rfl))
    have := hempty _ hkey
    simp [RecordKey.isEntryIn] at this

theorem link_count_of_validate (hr : inodeAt records fs i = some r) (hkind : r.kind ≠ .directory) :
    r.linkCount.toNat = (namespaceEntries records fs i).length := by
  have hl := accepted_checkLinks h (inodeAt_eq_some.1 hr)
  simp only [checkLinks, checkLinkCount, hkind, ne_eq, not_false_eq_true, if_true,
    bind_eq_ok, ensure_eq_ok] at hl
  obtain ⟨_, hcount, -⟩ := hl
  exact hcount.symm

theorem unlinked_pinned_of_validate (hr : inodeAt records fs i = some r) (hlinks : r.linkCount = 0) :
    1 ≤ pinCount records fs i ∧
      ∃ o, orphanAt records fs i = some o ∧ o.openPinCount.toNat = pinCount records fs i := by
  have hl := accepted_checkLinks h (inodeAt_eq_some.1 hr)
  simp only [checkLinks, bind_eq_ok, hlinks, ne_eq, not_true_eq_false, if_false, checkZeroLink,
    ensure_eq_ok] at hl
  obtain ⟨_, -, _, hpins, horphan⟩ := hl
  split at horphan
  · rename_i o ho
    have ho := orphanAt_eq_some.2 ho
    obtain ⟨_, -, -, hcount⟩ := accepted_orphan h ho
    exact ⟨Nat.one_le_iff_ne_zero.2 hpins, o, ho, hcount.symm⟩
  · cases horphan

end

/-! ## The parent walk -/

/-- A successful walk leads through parents, none visited before, to the root. -/
theorem walk_path {start root : InodeId} {maximum : Nat} :
    ∀ {fuel : Nat} {current : InodeId} {visited : List InodeId},
      ancestryWalk records fs start root maximum fuel current visited = .ok () →
      ∃ path, path.head? = some current ∧ ParentPath records fs root path ∧ path.Nodup ∧
        (∀ x ∈ path, x ∉ visited) ∧ path.length ≤ fuel
  | 0, _, _, hw => by cases hw
  | fuel + 1, current, visited, hw => by
    simp only [ancestryWalk, bind_eq_ok, ensure_eq_ok, requireInode_eq_ok, okOr_eq_ok] at hw
    obtain ⟨_, hnew, inode, hinode, parent, hparent, hw⟩ := hw
    split at hw
    · rename_i hroot
      exact ⟨[current], rfl, hroot, List.nodup_singleton _, by simpa using hnew, by simp⟩
    · obtain ⟨path, hhead, hpath, hnodup, hfresh, hlen⟩ := walk_path hw
      have hcurrent : current ∉ path := fun hmem => hfresh current hmem (by simp)
      cases path with
      | nil => cases hhead
      | cons p rest =>
        cases hhead
        refine ⟨current :: parent :: rest, rfl, ⟨⟨inode, hinode, hparent⟩, hpath⟩,
          List.nodup_cons.2 ⟨hcurrent, hnodup⟩, fun x hx => ?_, by simpa using hlen⟩
        rcases List.mem_cons.1 hx with rfl | hx
        · exact hnew
        · exact fun hv => hfresh x hx (List.mem_cons_of_mem _ hv)

/-- The directory the walk starts from is reachable: each parent it passes contains the entry of
its child, so it is not an unlinked directory and is named by an entry itself. -/
theorem reachable_of_walk (h : validateRecordSetWithLimits records limits = .ok ())
    (hh : filesystemAt records fs = some header) {start : InodeId}
    {maximum : Nat} : ∀ {fuel : Nat} {current : InodeId} {visited : List InodeId},
      ancestryWalk records fs start header.rootInodeId maximum fuel current visited = .ok () →
      (∀ r, inodeAt records fs current = some r → current ≠ header.rootInodeId →
        r.linkCount ≠ 0) →
      Reachable records fs header.rootInodeId current
  | 0, _, _, hw, _ => by cases hw
  | fuel + 1, current, visited, hw, hlinked => by
    simp only [ancestryWalk, bind_eq_ok, ensure_eq_ok, requireInode_eq_ok, okOr_eq_ok] at hw
    obtain ⟨_, -, r, hr, parent, hparent, hw⟩ := hw
    split at hw
    · rename_i hroot
      rw [hroot]
      exact .root
    · rename_i hroot
      have hdir : r.kind = .directory :=
        InodeRecord.directoryParent_isSome.1 (by rw [hparent]; rfl)
      obtain ⟨e, he, hchild, hep, -⟩ :=
        directory_named_of_validate h hh hr hdir hroot (hlinked r hr hroot)
      obtain rfl : e.parentInodeId = parent := Option.some.inj (hep.symm.trans hparent)
      rw [← hchild]
      refine .entry (reachable_of_walk h hh hw fun p hp hproot hzero => ?_) he
      obtain ⟨⟨p', hp', hpdir⟩, -⟩ := accepted_entry h he
      obtain rfl : p' = p := Option.some.inj (hp'.symm.trans hp)
      exact (unlinked_directory_of_validate h hh hp hpdir hproot hzero he).2 rfl

section

variable (h : validateRecordSetWithLimits records limits = .ok ())

include h

section

variable (hh : filesystemAt records fs = some header) (hr : inodeAt records fs i = some r)

include hh hr

theorem accepted_walk (hdir : r.kind = .directory) (hlinks : r.linkCount ≠ 0) :
    validateDirectoryAncestry records fs i header.rootInodeId limits.maxDirectoryAncestorDepth
      = .ok () := by
  obtain ⟨hid, header', hh', hc⟩ := accepted_inode h hr
  obtain rfl : header' = header := Option.some.inj (hh'.symm.trans hh)
  obtain ⟨parent, hparent⟩ := Option.isSome_iff_exists.1 (InodeRecord.directoryParent_isSome.2 hdir)
  simp only [checkDirectoryParent, hparent, hlinks, ne_eq, not_false_eq_true, if_true,
    bind_eq_ok] at hc
  obtain ⟨p, -, _, -, hwalk⟩ := hc
  rwa [hid] at hwalk

theorem ancestry_of_validate (hdir : r.kind = .directory) (hlinks : r.linkCount ≠ 0) :
    ∃ path, path.head? = some i ∧ ParentPath records fs header.rootInodeId path ∧ path.Nodup ∧
      path.length ≤ limits.maxDirectoryAncestorDepth + 1 := by
  obtain ⟨path, hhead, hpath, hnodup, -, hlen⟩ := walk_path (accepted_walk h hh hr hdir hlinks)
  exact ⟨path, hhead, hpath, hnodup, hlen⟩

theorem reachable_of_validate (hlinks : r.linkCount ≠ 0) :
    Reachable records fs header.rootInodeId i := by
  by_cases hdir : r.kind = .directory
  · refine reachable_of_walk h hh (accepted_walk h hh hr hdir hlinks) fun r' hr' _ => ?_
    obtain rfl : r' = r := Option.some.inj (hr'.symm.trans hr)
    exact hlinks
  · -- a file has at least one entry, and the directory holding it is the root or is linked
    have hcount := link_count_of_validate h hr hdir
    have hpos : 0 < (namespaceEntries records fs i).length := by
      rw [← hcount]
      exact Nat.pos_of_ne_zero fun hz => hlinks (UInt64.toNat_inj.1 (by simpa using hz))
    obtain ⟨e, hmem⟩ := List.exists_mem_of_length_pos hpos
    obtain ⟨he, rfl⟩ := (mem_namespaceEntries h).1 hmem
    refine .entry ?_ he
    obtain ⟨⟨p, hp, hpdir⟩, -⟩ := accepted_entry h he
    by_cases hproot : e.parentInodeId = header.rootInodeId
    · rw [hproot]
      exact .root
    · have hplinks : p.linkCount ≠ 0 := fun hzero =>
        (unlinked_directory_of_validate h hh hp hpdir hproot hzero he).2 rfl
      refine reachable_of_walk h hh (accepted_walk h hh hp hpdir hplinks) fun r' hr' _ => ?_
      obtain rfl : r' = p := Option.some.inj (hr'.symm.trans hp)
      exact hplinks

end

end

/-! ## Uniqueness across records -/

/-- The first pass only adds to what it remembers. -/
theorem checkRecord_mono {item : RecordKey × StateRecord}
    (h : checkRecord records limits s item = .ok t) :
    s.qidPaths ⊆ t.qidPaths ∧ s.locks ⊆ t.locks ∧ s.directoryCookies ⊆ t.directoryCookies := by
  obtain ⟨key, record⟩ := item
  obtain ⟨_, -, h⟩ := bind_eq_ok.1 h
  cases record with
  | inode r =>
    simp only [checkInode, bind_eq_ok] at h
    obtain ⟨_, -, _, -, _, -, _, -, _, -, ht⟩ := h
    cases ht
    exact ⟨List.subset_cons_self _ _, List.Subset.refl _, List.Subset.refl _⟩
  | lock r =>
    simp only [checkLock, bind_eq_ok] at h
    obtain ⟨_, -, _, -, _, -, _, -, ht⟩ := h
    cases ht
    exact ⟨List.Subset.refl _, List.subset_cons_self _ _, List.Subset.refl _⟩
  | directoryEntry r =>
    simp only [checkDirectoryEntry, bind_eq_ok] at h
    obtain ⟨_, -, _, -, _, -, _, -, _, -, _, -, ht⟩ := h
    cases ht
    exact ⟨List.Subset.refl _, List.Subset.refl _, List.subset_cons_self _ _⟩
  | contentMetadata r =>
    simp only [checkContentMetadata, bind_eq_ok] at h
    obtain ⟨_, -, _, -, _, -, ht⟩ := h
    cases ht
    exact ⟨List.Subset.refl _, List.Subset.refl _, List.Subset.refl _⟩
  | mutation r | writerLease r =>
    cases h
    exact ⟨List.Subset.refl _, List.Subset.refl _, List.Subset.refl _⟩
  | filesystem r | openInstance r | openPin r | orphan r | xattr r | xattrStaging r =>
    obtain ⟨_, -, ht⟩ := bind_eq_ok.1 h
    cases ht
    exact ⟨List.Subset.refl _, List.Subset.refl _, List.Subset.refl _⟩

/-- The inode records of one filesystem carry different QID paths. -/
def QidDistinct (a b : RecordKey × StateRecord) : Prop :=
  ∀ fs i j r s, a = (.inode fs i, .inode r) → b = (.inode fs j, .inode s) → r.qidPath ≠ s.qidPath

instance : Std.Symm QidDistinct where
  symm _ _ hab fs i j r s ha hb heq := hab fs j i s r hb ha heq.symm

theorem qidDistinct_of_validate (h : validateRecordSetWithLimits records limits = .ok ()) :
    records.toList.Pairwise QidDistinct := by
  obtain ⟨_, hfold, -⟩ := bind_eq_ok.1 h
  refine (foldlM_ok_pairwise (S := fun s item => ∀ fs i r, item = (.inode fs i, .inode r) →
    (fs, r.qidPath) ∈ s.qidPaths) ?_ ?_ ?_ hfold).1
  · intro s a t b hc hseen fs i r hb
    exact (checkRecord_mono hc).1 (hseen fs i r hb)
  · rintro s a t hc fs i r rfl
    have hc := (checkRecord_inode.1 hc).2
    simp only [checkInode, bind_eq_ok] at hc
    obtain ⟨_, -, _, -, _, -, _, -, _, -, ht⟩ := hc
    cases ht
    exact List.mem_cons_self
  · rintro s a t b hc hseen fs i j r r' rfl rfl hqid
    have hc := (checkRecord_inode.1 hc).2
    simp only [checkInode, bind_eq_ok, ensure_eq_ok] at hc
    obtain ⟨_, -, _, -, _, hfresh, -⟩ := hc
    exact hfresh (hqid ▸ hseen fs i r rfl)

theorem qid_injective_of_validate (h : validateRecordSetWithLimits records limits = .ok ())
    {j : InodeId} {s : InodeRecord} (hr : inodeAt records fs i = some r)
    (hs : inodeAt records fs j = some s) (hqid : r.qidPath = s.qidPath) : i = j := by
  by_contra hne
  refine List.Pairwise.forall (qidDistinct_of_validate h)
    (Std.ExtTreeMap.mem_toList_iff_getElem?_eq_some.2 (inodeAt_eq_some.1 hr))
    (Std.ExtTreeMap.mem_toList_iff_getElem?_eq_some.2 (inodeAt_eq_some.1 hs)) (fun heq => ?_)
    fs i j r s rfl rfl hqid
  cases heq
  exact hne rfl

/-- The entries of one directory carry different cookies. -/
def CookieDistinct (a b : RecordKey × StateRecord) : Prop :=
  ∀ fs e f, a = (.directoryEntry fs e.parentInodeId e.name, .directoryEntry e) →
    b = (.directoryEntry fs f.parentInodeId f.name, .directoryEntry f) →
    e.parentInodeId = f.parentInodeId → e.cookie ≠ f.cookie

instance : Std.Symm CookieDistinct where
  symm _ _ hab fs e f ha hb hparent heq := hab fs f e hb ha hparent.symm heq.symm

theorem cookieDistinct_of_validate (h : validateRecordSetWithLimits records limits = .ok ()) :
    records.toList.Pairwise CookieDistinct := by
  obtain ⟨_, hfold, -⟩ := bind_eq_ok.1 h
  refine (foldlM_ok_pairwise (S := fun s item => ∀ fs e,
    item = (.directoryEntry fs e.parentInodeId e.name, .directoryEntry e) →
    (fs, e.parentInodeId, e.cookie) ∈ s.directoryCookies) ?_ ?_ ?_ hfold).1
  · intro s a t b hc hseen fs e hb
    exact (checkRecord_mono hc).2.2 (hseen fs e hb)
  · rintro s a t hc fs e rfl
    have hc := (checkRecord_entry.1 hc).2
    simp only [checkDirectoryEntry, bind_eq_ok] at hc
    obtain ⟨_, -, _, -, _, -, _, -, _, -, _, -, ht⟩ := hc
    cases ht
    exact List.mem_cons_self
  · rintro s a t b hc hseen fs e f rfl rfl hparent hcookie
    have hc := (checkRecord_entry.1 hc).2
    simp only [checkDirectoryEntry, bind_eq_ok, ensure_eq_ok] at hc
    obtain ⟨_, -, _, -, _, -, _, -, _, -, _, hfresh, -⟩ := hc
    exact hfresh (hcookie ▸ hparent ▸ hseen fs e rfl)

theorem cookie_injective_of_validate (h : validateRecordSetWithLimits records limits = .ok ())
    {f : DirectoryEntryRecord} (he : IsEntry records fs e) (hf : IsEntry records fs f)
    (hparent : e.parentInodeId = f.parentInodeId) (hcookie : e.cookie = f.cookie) : e = f := by
  by_contra hne
  refine List.Pairwise.forall (cookieDistinct_of_validate h)
    (Std.ExtTreeMap.mem_toList_iff_getElem?_eq_some.2 he)
    (Std.ExtTreeMap.mem_toList_iff_getElem?_eq_some.2 hf) (fun heq => hne ?_) fs e f rfl rfl hparent
    hcookie
  exact StateRecord.directoryEntry.inj (congrArg Prod.snd heq)

theorem LockRange.overlaps_comm (a b : LockRange) : a.overlaps b = b.overlaps a :=
  Bool.and_comm _ _

theorem LockRecord.conflictsWith_comm (a b : LockRecord) :
    a.conflictsWith b = b.conflictsWith a := by
  unfold conflictsWith
  rw [LockRange.overlaps_comm, Bool.or_comm, Bool.beq_comm, bne_comm]

/-- The locks of one filesystem are compatible. -/
def LocksCompatible (a b : RecordKey × StateRecord) : Prop :=
  ∀ fs i j k l x y, a = (.lock fs i k, .lock x) → b = (.lock fs j l, .lock y) →
    x.conflictsWith y = false

instance : Std.Symm LocksCompatible where
  symm _ _ hab fs i j k l x y hx hy := by
    rw [LockRecord.conflictsWith_comm]
    exact hab fs j i l k y x hy hx

theorem locksCompatible_of_validate (h : validateRecordSetWithLimits records limits = .ok ()) :
    records.toList.Pairwise LocksCompatible := by
  obtain ⟨_, hfold, -⟩ := bind_eq_ok.1 h
  refine (foldlM_ok_pairwise (S := fun s item => ∀ fs i k x, item = (.lock fs i k, .lock x) →
    (fs, x) ∈ s.locks) ?_ ?_ ?_ hfold).1
  · intro s a t b hc hseen fs i k x hb
    exact (checkRecord_mono hc).2.1 (hseen fs i k x hb)
  · rintro s a t hc fs i k x rfl
    have hc := (checkRecord_lock.1 hc).2
    simp only [checkLock, bind_eq_ok] at hc
    obtain ⟨_, -, _, -, _, -, _, -, ht⟩ := hc
    cases ht
    exact List.mem_cons_self
  · rintro s a t b hc hseen fs i j k l x y rfl rfl
    have hc := (checkRecord_lock.1 hc).2
    simp only [checkLock, bind_eq_ok, ensure_eq_ok] at hc
    obtain ⟨_, -, _, -, _, -, _, hfree, -⟩ := hc
    have hxy := hfree _ (hseen fs i k x rfl)
    rw [LockRecord.conflictsWith_comm]
    simpa using hxy

theorem locks_compatible_of_validate (h : validateRecordSetWithLimits records limits = .ok ())
    {j : InodeId} {k l : LockId} {a b : LockRecord} (ha : lockAt records fs i k = some a)
    (hb : lockAt records fs j l = some b) (hne : (i, k) ≠ (j, l)) : a.conflictsWith b = false := by
  refine List.Pairwise.forall (locksCompatible_of_validate h)
    (Std.ExtTreeMap.mem_toList_iff_getElem?_eq_some.2 (lockAt_eq_some.1 ha))
    (Std.ExtTreeMap.mem_toList_iff_getElem?_eq_some.2 (lockAt_eq_some.1 hb)) (fun heq => ?_)
    fs i j k l a b rfl rfl
  cases heq
  exact hne rfl

/-! ## The whole namespace -/

/-- **An accepted map is a rooted namespace**, filesystem by filesystem: whatever has an inode has
a header, and under every header the records form a `RootedNamespace`. -/
theorem rootedNamespace_of_validate (h : validateRecordSetWithLimits records limits = .ok ())
    (fs : FilesystemId) :
    (∀ i r, inodeAt records fs i = some r → ∃ header, filesystemAt records fs = some header) ∧
    ∀ header, filesystemAt records fs = some header →
      RootedNamespace records fs header.rootInodeId limits.maxDirectoryAncestorDepth := by
  refine ⟨fun i r hr => ?_, fun header hh => ?_⟩
  · obtain ⟨-, header, hh, -⟩ := accepted_inode h hr
    exact ⟨header, hh⟩
  · obtain ⟨root, hroot, -, hself⟩ := accepted_root h hh
    exact
      { root_self_parented := ⟨root, hroot, hself⟩
        root_unnamed := fun e he => root_unnamed_of_validate h hh he
        directory_named := fun i r hr hdir hne hl => directory_named_of_validate h hh hr hdir hne hl
        ancestry := fun i r hr hdir _ hl => ancestry_of_validate h hh hr hdir hl
        reachable := fun i r hr hl => reachable_of_validate h hh hr hl
        link_count := fun i r hr hkind => link_count_of_validate h hr hkind
        unlinked_directory := fun i r hr hdir hne hl e he =>
          unlinked_directory_of_validate h hh hr hdir hne hl he
        unlinked_pinned := fun i r hr hl => unlinked_pinned_of_validate h hr hl
        orphan_unlinked := fun i o ho => by
          obtain ⟨r, hr, hl, -⟩ := accepted_orphan h ho
          exact ⟨r, hr, hl⟩
        qid_injective := fun i j r s hr hs hq => qid_injective_of_validate h hr hs hq
        locks_compatible := fun i j k l a b ha hb hne => locks_compatible_of_validate h ha hb hne }

end Accepted

/-! ## An accepted map -/

theorem succ_ne (k : UInt8) : UInt64.ofNat (k.toNat + 1) ≠ 0 := by
  have hk := k.toNat_lt
  rw [ne_eq, ← UInt64.toNat_inj, UInt64.toNat_ofNat_of_lt' (show k.toNat + 1 < 2 ^ 64 by omega)]
  simp

theorem cookie_succ_ne (k : UInt8) : DirectoryCookie.mk (.ofNat (k.toNat + 1)) ≠ .start := fun h =>
  succ_ne k (congrArg DirectoryCookie.get h)

/-- The QID path after `k`. -/
def qidAfter (k : UInt8) : QidPath := ⟨.ofNat (k.toNat + 1), succ_ne k⟩

def sampleHeader : FilesystemRecord where
  filesystemId := ⟨1⟩
  revision := .one _
  recordRevision := .one _
  rootInodeId := ⟨1⟩
  nextQidPath := qidAfter 4
  nextDirectoryCookie := ⟨.ofNat 3⟩
  policyGeneration := 1
  cookie_ne := cookie_succ_ne 2
  policy_ne := Counter.one_ne

def sampleInode (id : InodeId) (qid : QidPath) (links : UInt64) (data : InodeData)
    (h : validateInodeData 0 data = .ok () := by rfl) : InodeRecord where
  inodeId := id
  qidPath := qid
  revision := .one _
  mode := 0o755
  owner := ⟨[1], by decide, by decide⟩
  group := ⟨[1], by decide, by decide⟩
  times := ⟨.epoch, .epoch, .epoch, .epoch⟩
  logicalSize := 0
  linkCount := links
  inodeGeneration := .one _
  contentContextId := none
  data := data
  data_valid := h

def sampleDirectory (id parent : InodeId) (qid : QidPath) : InodeRecord :=
  sampleInode id qid 1 (.directory (.one _) parent)

def sampleFifo (id : InodeId) (qid : QidPath) (links : UInt64) : InodeRecord :=
  sampleInode id qid links .fifo

def sampleName (byte : UInt8) (h : byte ≠ 0 ∧ byte ≠ 0x2f ∧ byte ≠ 0x2e) : EntryName where
  bytes := [byte]
  nonempty := by simp
  noNul := by simpa [eq_comm] using h.1
  noSlash := by simpa [eq_comm] using h.2.1
  notReserved := by simpa using h.2.2

def sampleEntry (parent child : InodeId) (name : EntryName) (k : UInt8) : DirectoryEntryRecord :=
  ⟨parent, name, ⟨.ofNat (k.toNat + 1)⟩, child, .one _, cookie_succ_ne k⟩

def nameD : EntryName := sampleName 0x64 (by decide)

def nameP : EntryName := sampleName 0x70 (by decide)

/-- A root with a subdirectory `d`, a pipe `d/p` and an unlinked pipe held by one open. -/
def sampleRecords : RecordMap :=
  let records : List (RecordKey × StateRecord) := [
    (.filesystem ⟨1⟩, .filesystem sampleHeader),
    (.inode ⟨1⟩ ⟨1⟩, .inode (sampleDirectory ⟨1⟩ ⟨1⟩ (.one _))),
    (.inode ⟨1⟩ ⟨2⟩, .inode (sampleDirectory ⟨2⟩ ⟨1⟩ (qidAfter 1))),
    (.inode ⟨1⟩ ⟨3⟩, .inode (sampleFifo ⟨3⟩ (qidAfter 2) 1)),
    (.inode ⟨1⟩ ⟨4⟩, .inode (sampleFifo ⟨4⟩ (qidAfter 3) 0)),
    (.directoryEntry ⟨1⟩ ⟨1⟩ nameD, .directoryEntry (sampleEntry ⟨1⟩ ⟨2⟩ nameD 0)),
    (.directoryEntry ⟨1⟩ ⟨2⟩ nameP, .directoryEntry (sampleEntry ⟨2⟩ ⟨3⟩ nameP 1)),
    (.openInstance ⟨1⟩ ⟨1⟩, .openInstance ⟨⟨1⟩, ⟨4⟩, ⟨1⟩, .readOnly, false, .one _, .one _⟩),
    (.openPin ⟨1⟩ ⟨4⟩ ⟨1⟩, .openPin ⟨⟨4⟩, ⟨1⟩, .one _⟩),
    (.orphan ⟨1⟩ ⟨4⟩, .orphan ⟨⟨4⟩, 1, .one _, .one _, Counter.one_ne⟩)]
  Std.ExtTreeMap.ofList records

theorem sampleRecords_valid :
    validateRecordSetWithLimits sampleRecords .default = .ok () := by decide +kernel

theorem rootedNamespace_sampleRecords : RootedNamespace sampleRecords ⟨1⟩ ⟨1⟩ 1024 :=
  (rootedNamespace_of_validate sampleRecords_valid ⟨1⟩).2 sampleHeader (by decide +kernel)

end W9pt.State

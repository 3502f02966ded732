import W9pt.State.Lease

/-!
# SQL encoding of record keys (`w9pt-fs-state-postgres/src/key_codec.rs`)

The rows of `change_keys` hold a key as sortable columns; an empty component is stored as NULL.

Decoding inverts encoding in both directions. The order is another matter: `ContentMetadata` is the third
variant of `RecordKey` and has the last family tag, so its keys change places with those of every family
in between (`mirrors_recordKey`).
-/

namespace W9pt.Postgres

open Lib State

/-- Sortable components of a key (key_codec.rs:26). A tag is an `i16`, of which only the order matters;
the sixteen bytes of the filesystem are compared as the number they write. -/
@[ext] structure SqlRecordKey where
  familyTag : Int
  filesystemId : FilesystemId
  componentA : Bytes
  componentB : Bytes

instance : Ord SqlRecordKey where
  compare a b := (compare a.familyTag b.familyTag).then <|
    (compare a.filesystemId.rank b.filesystemId.rank).then <|
    (compare a.componentA b.componentA).then (compare a.componentB b.componentB)

/-- key_codec.rs:211. -/
inductive KeyCodecError where
  | fixedWidth (field : String) (actual : Nat)
  | unknownFamilyTag (tag : Int)
  | invalidComponentShape (familyTag : Int)
  | bounded (error : BoundedValueError)

/-- `fixed_component` (key_codec.rs:257) as an identity. -/
def fixedComponent {kind : IdKind} (field : String) (bytes : Bytes) :
    Except KeyCodecError (FixedId kind) :=
  if bytes.length = 16 then .ok ⟨BitVec.ofNat 128 (beValue bytes)⟩
  else .error (.fixedWidth field bytes.length)

namespace SqlRecordKey

/-- The tags (key_codec.rs:11-22). -/
def tag : RecordFamily → Int
  | .filesystem => 1
  | .inode => 2
  | .directoryEntry => 3
  | .openInstance => 4
  | .openPin => 5
  | .orphan => 6
  | .lock => 7
  | .xattr => 8
  | .xattrStaging => 9
  | .mutation => 10
  | .writerLease => 11
  | .contentMetadata => 12

def components : RecordKey → Bytes × Bytes
  | .filesystem _ => ([], [])
  | .inode _ inode | .orphan _ inode => (idBytes inode, [])
  | .contentMetadata _ file => (idBytes file, [])
  | .directoryEntry _ parent name => (idBytes parent, name.bytes)
  | .openInstance _ openId => (idBytes openId, [])
  | .openPin _ inode openId => (idBytes inode, idBytes openId)
  | .lock _ inode lock => (idBytes inode, idBytes lock)
  | .xattr _ inode name => (idBytes inode, name.bytes)
  | .xattrStaging _ staging => (idBytes staging, [])
  | .mutation _ mutation => (idBytes mutation, [])
  | .writerLease _ scope => (idBytes scope, [])

/-- key_codec.rs:34. -/
def encode (key : RecordKey) : SqlRecordKey :=
  ⟨tag key.family, key.filesystemId, (components key).1, (components key).2⟩

section Decode

variable (key : SqlRecordKey) (limits : StateLimits)

/-- An arm whose guard wants the second component empty. -/
def single {kind : IdKind} (field : String) (make : FilesystemId → FixedId kind → RecordKey) :
    Except KeyCodecError RecordKey :=
  if key.componentB = [] then make key.filesystemId <$> fixedComponent field key.componentA
  else .error (.invalidComponentShape key.familyTag)

/-- An arm of an identity and a second component. -/
def double {kind : IdKind} {β : Type} (field : String) (second : Except KeyCodecError β)
    (make : FilesystemId → FixedId kind → β → RecordKey) : Except KeyCodecError RecordKey := do
  let first ← fixedComponent field key.componentA
  return make key.filesystemId first (← second)

/-- key_codec.rs:88. -/
def decode : Except KeyCodecError RecordKey :=
  match key.familyTag with
  | 1 =>
    if key.componentA = [] ∧ key.componentB = [] then .ok (.filesystem key.filesystemId)
    else .error (.invalidComponentShape key.familyTag)
  | 2 => key.single "inode_id" .inode
  | 3 => key.double "parent_inode_id" (mapErr .bounded (EntryName.new key.componentB limits))
      .directoryEntry
  | 4 => key.single "open_id" .openInstance
  | 5 => key.double "inode_id" (fixedComponent "open_id" key.componentB) .openPin
  | 6 => key.single "inode_id" .orphan
  | 7 => key.double "inode_id" (fixedComponent "lock_id" key.componentB) .lock
  | 8 => key.double "inode_id" (mapErr .bounded (BoundedBytes.new .xattrName key.componentB limits))
      .xattr
  | 9 => key.single "staging_id" .xattrStaging
  | 10 => key.single "mutation_id" .mutation
  | 11 => key.single "writer_scope_id" .writerLease
  | 12 => key.single "content_file_id" .contentMetadata
  | unknown => .error (.unknownFamilyTag unknown)

/-- key_codec.rs:151. -/
def sqlComponentA : Option Bytes := if key.componentA = [] then none else some key.componentA

/-- key_codec.rs:155. -/
def sqlComponentB : Option Bytes := if key.componentB = [] then none else some key.componentB

end Decode

/-- The key of a row as `decode_key_row` reads it (change.rs:301). -/
def decodeKeyRow (filesystemId : FilesystemId) (familyTag : Int) (componentA componentB : Option Bytes)
    (limits : StateLimits) : Except KeyCodecError RecordKey :=
  decode ⟨familyTag, filesystemId, componentA.getD [], componentB.getD []⟩ limits

/-! ## Decoding inverts encoding -/

theorem fixedComponent_eq_ok {kind : IdKind} {field : String} {bytes : Bytes} {id : FixedId kind} :
    fixedComponent field bytes = .ok id ↔ bytes = idBytes id := by
  unfold fixedComponent idBytes
  constructor
  · intro h
    split at h
    · rename_i hlength
      cases h
      have hlt := beValue_lt bytes
      rw [hlength] at hlt
      rw [BitVec.toNat_ofNat, Nat.mod_eq_of_lt (by simpa using hlt), ← hlength, beBytes_beValue]
    · cases h
  · rintro rfl
    rw [if_pos (length_beBytes _ _), beValue_beBytes (by simpa using id.bits.isLt),
      BitVec.ofNat_toNat, BitVec.setWidth_eq]

theorem entryName_new_eq_ok {value : Bytes} {limits : StateLimits} {name : EntryName} :
    EntryName.new value limits = .ok name ↔
      value = name.bytes ∧ name.bytes.length ≤ limits.maxEntryNameBytes := by
  unfold EntryName.new requireAtMost
  constructor
  · intro h
    split_ifs at h
    obtain ⟨_, hlimit, ⟨⟩⟩ := by simpa only [bind_eq_ok, mapErr_eq_ok, ensure_eq_ok] using h
    exact ⟨rfl, hlimit⟩
  · rintro ⟨rfl, hlimit⟩
    rw [dif_neg name.nonempty, dif_neg name.noNul, dif_neg name.noSlash,
      dif_neg (not_or.2 name.notReserved), ensure_of hlimit]
    rfl

theorem boundedBytes_new_eq_ok {kind : BoundedKind} {value : Bytes} {limits : StateLimits}
    {name : BoundedBytes kind} : BoundedBytes.new kind value limits = .ok name ↔
      value = name.bytes ∧ name.bytes.length ≤ kind.maximum limits := by
  unfold BoundedBytes.new requireAtMost
  constructor
  · intro h
    split_ifs at h
    obtain ⟨_, hlimit, ⟨⟩⟩ := by simpa only [bind_eq_ok, mapErr_eq_ok, ensure_eq_ok] using h
    exact ⟨rfl, hlimit⟩
  · rintro ⟨rfl, hlimit⟩
    rw [dif_neg name.nonempty, dif_neg name.noNul, ensure_of hlimit]
    rfl

variable {key : SqlRecordKey} {limits : StateLimits} {field : String} {kind : IdKind} {k : RecordKey}

theorem single_eq_ok {make : FilesystemId → FixedId kind → RecordKey} :
    key.single field make = .ok k ↔
      key.componentB = [] ∧ ∃ id, key.componentA = idBytes id ∧ make key.filesystemId id = k := by
  unfold single
  split
  · simp only [*, true_and, map_eq_ok, fixedComponent_eq_ok]
  · simp [*]

theorem double_eq_ok {β : Type} {second : Except KeyCodecError β}
    {make : FilesystemId → FixedId kind → β → RecordKey} :
    key.double field second make = .ok k ↔
      ∃ id, key.componentA = idBytes id ∧ ∃ x, second = .ok x ∧ make key.filesystemId id x = k := by
  simp only [double, bind_eq_ok, fixedComponent_eq_ok, pure_eq_ok]

/-- **The rows that are accepted**: those of the keys within the limits. -/
theorem decode_eq_ok :
    key.decode limits = .ok k ↔ key = encode k ∧ k.validateAgainstLimits limits = .ok () := by
  constructor
  · intro h
    obtain ⟨familyTag, fs, a, b⟩ := key
    unfold decode at h
    split at h
    all_goals
      rename_i htag
      try subst htag
      simp only [single_eq_ok, double_eq_ok, mapErr_eq_ok, entryName_new_eq_ok, boundedBytes_new_eq_ok,
        fixedComponent_eq_ok] at h
    case h_1 =>
      split at h
      · rename_i hempty
        obtain ⟨rfl, rfl⟩ := hempty
        cases h
        exact ⟨rfl, rfl⟩
      · cases h
    case h_3 | h_8 =>
      obtain ⟨parent, rfl, name, ⟨rfl, hlimit⟩, rfl⟩ := h
      exact ⟨rfl, ensure_of hlimit⟩
    case h_5 | h_7 =>
      obtain ⟨inode, rfl, other, rfl, rfl⟩ := h
      exact ⟨rfl, rfl⟩
    case h_13 => cases h
    all_goals
      obtain ⟨rfl, id, rfl, rfl⟩ := h
      exact ⟨rfl, rfl⟩
  · rintro ⟨rfl, hlimit⟩
    cases k with
    | filesystem fs => rfl
    | directoryEntry fs parent name =>
      exact double_eq_ok.2 ⟨parent, rfl, name, mapErr_eq_ok.2 (entryName_new_eq_ok.2
        ⟨rfl, ensure_eq_ok.1 hlimit⟩), rfl⟩
    | xattr fs inode name =>
      exact double_eq_ok.2 ⟨inode, rfl, name, mapErr_eq_ok.2 (boundedBytes_new_eq_ok.2
        ⟨rfl, ensure_eq_ok.1 hlimit⟩), rfl⟩
    | openPin fs inode other | lock fs inode other =>
      exact double_eq_ok.2 ⟨inode, rfl, other, fixedComponent_eq_ok.2 rfl, rfl⟩
    | inode fs id | orphan fs id | contentMetadata fs id | openInstance fs id | xattrStaging fs id
    | mutation fs id | writerLease fs id => exact single_eq_ok.2 ⟨rfl, id, rfl, rfl⟩

/-- A component stored as NULL is read back empty. -/
theorem decodeKeyRow_sql (key : SqlRecordKey) (limits : StateLimits) :
    decodeKeyRow key.filesystemId key.familyTag key.sqlComponentA key.sqlComponentB limits =
      key.decode limits := by
  unfold decodeKeyRow sqlComponentA sqlComponentB
  congr 2 <;> split <;> simp [*]

/-! ## Order -/

theorem compare_idBytes (a b : FixedId kind) :
    compare (idBytes a) (idBytes b) = compare a.rank b.rank := by
  unfold idBytes
  rw [compare_bytes (by simp), beValue_beBytes (by simpa using a.bits.isLt),
    beValue_beBytes (by simpa using b.bits.isLt)]
  rfl

theorem compare_map_toNat (a b : Bytes) :
    compare (a.map UInt8.toNat) (b.map UInt8.toNat) = compare a b := by
  induction a generalizing b with
  | nil => cases b <;> rfl
  | cons x a ih =>
    cases b with
    | nil => rfl
    | cons y b =>
      have hdigit : compare x.toNat y.toNat = compare x y := by
        simp [compare, compareOfLessAndEq, UInt8.lt_iff_toNat_lt, UInt8.toNat_inj]
      rw [List.map_cons, List.map_cons, List.compare_cons_cons, List.compare_cons_cons, hdigit, ih]

/-- Within a family the components are ordered as the keys are. -/
theorem compare_encode_of_family_eq {a b : RecordKey} (h : a.family = b.family) :
    compare (encode a) (encode b) = compare a b := by
  cases a <;> cases b <;> cases h
  all_goals
    change Ordering.then _ _ = compare (RecordKey.sortKey _) (RecordKey.sortKey _)
    simp only [encode, components, RecordKey.sortKey, RecordKey.family, RecordKey.filesystemId,
      List.compare_cons_cons, compare_idBytes, compare_map_toNat, Std.ReflOrd.compare_self,
      Ordering.then_eq, Ordering.eq_then]

/-- Between families the position of the variant decides. -/
theorem compare_of_family_ne {a b : RecordKey} (h : a.family.ctorIdx ≠ b.family.ctorIdx) :
    compare a b = compare a.family.ctorIdx b.family.ctorIdx := by
  have hhead : ∀ key : RecordKey, ∃ rest, key.sortKey = key.family.ctorIdx :: rest := by
    intro key
    cases key <;> exact ⟨_, rfl⟩
  obtain ⟨resta, ha⟩ := hhead a
  obtain ⟨restb, hb⟩ := hhead b
  change compare a.sortKey b.sortKey = _
  rw [ha, hb, List.compare_cons_cons]
  rcases Nat.lt_or_gt_of_ne h with hlt | hgt
  · rw [Nat.compare_eq_lt.2 hlt]
    rfl
  · rw [Nat.compare_eq_gt.2 hgt]
    rfl

/-- Between families the tag decides. -/
theorem compare_encode_of_tag_ne {a b : RecordKey} (h : tag a.family ≠ tag b.family) :
    compare (encode a) (encode b) = compare (tag a.family) (tag b.family) := by
  change Ordering.then (compare (tag a.family) (tag b.family)) _ = _
  rcases lt_or_gt_of_ne h with hlt | hgt
  · rw [Std.compare_eq_lt.2 hlt]
    rfl
  · rw [Std.compare_eq_gt.2 hgt]
    rfl

/-- One family is content metadata, the other a family with a later variant. -/
def Displaced (f g : RecordFamily) : Prop :=
  (f = .contentMetadata ∧ g ∉ [.filesystem, .inode, .contentMetadata]) ∨
  (g = .contentMetadata ∧ f ∉ [.filesystem, .inode, .contentMetadata])

instance (f g : RecordFamily) : Decidable (Displaced f g) := by unfold Displaced; infer_instance

/-- The tags are in the order of the variants, but for content metadata. -/
theorem tag_order {f g : RecordFamily} (h : f ≠ g) : f.ctorIdx ≠ g.ctorIdx ∧ tag f ≠ tag g ∧
    ((compare f.ctorIdx g.ctorIdx = .lt ↔ compare (tag f) (tag g) = .lt) ↔ ¬Displaced f g) := by
  revert h
  cases f <;> cases g <;> decide

/-- What a codec of record keys is for. -/
structure Mirrors (limits : StateLimits) (a b : RecordKey) (sql : SqlRecordKey) : Prop where
  order :
    (compare a b = .lt ↔ compare (encode a) (encode b) = .lt) ↔ ¬Displaced a.family b.family
  inverse : a.validateAgainstLimits limits = .ok () →
    (encode a).decode limits = .ok a ∧
    decodeKeyRow (encode a).filesystemId (encode a).familyTag (encode a).sqlComponentA
      (encode a).sqlComponentB limits = .ok a
  canonical : ∀ key, sql.decode limits = .ok key → encode key = sql

/-- **The SQL key encoding mirrors `RecordKey`** except that content metadata keys are displaced in the
order; decoding inverts encoding, through NULLs as well, and accepts nothing else. -/
theorem mirrors_recordKey (limits : StateLimits) (a b : RecordKey) (sql : SqlRecordKey) :
    Mirrors limits a b sql where
  order := by
    by_cases hfamily : a.family = b.family
    · rw [compare_encode_of_family_eq hfamily, hfamily]
      refine iff_of_true Iff.rfl ?_
      cases b.family <;> decide
    · obtain ⟨hindex, htag, horder⟩ := tag_order hfamily
      rw [compare_of_family_ne hindex, compare_encode_of_tag_ne htag]
      exact horder
  inverse hlimit := by
    have hdecode := decode_eq_ok.2 ⟨rfl, hlimit⟩
    exact ⟨hdecode, (decodeKeyRow_sql _ _).trans hdecode⟩
  canonical _ hdecode := (decode_eq_ok.1 hdecode).1.symm

/-- Content metadata comes before an open and is stored after it. -/
theorem contentMetadata_displaced :
    compare (RecordKey.contentMetadata ⟨1⟩ ⟨2⟩) (.openInstance ⟨1⟩ ⟨3⟩) = .lt ∧
    compare (encode (.contentMetadata ⟨1⟩ ⟨2⟩)) (encode (.openInstance ⟨1⟩ ⟨3⟩)) = .gt := by
  decide

end SqlRecordKey

end W9pt.Postgres

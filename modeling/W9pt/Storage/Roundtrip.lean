import W9pt.Storage.Format

/-!
# Objects are read back as they were written

For every field and record of the persistent formats, what its reader accepts, and from it that whole
objects are accepted exactly if they are what the encoder writes (`decodeHead_eq_ok`,
`decodeManifest_eq_ok`), and that pages are read back (`decodePage_encodePage`). The validations of
`format/` are turned into what they say (`validateBlob_eq_ok`, `validatePageRef_eq_ok`,
`validatePage_leaf`, `validatePage_branch`).
-/

namespace W9pt

open Lib

namespace Storage

/-! ## Fields -/

@[simp] theorem length_asBytes {kind : IdKind} (id : FixedId kind) : id.asBytes.length = 16 := by
  simp [FixedId.asBytes]

@[simp] theorem length_digestBytes (digest : Digest) : (digestBytes digest).length = 32 := by
  simp [digestBytes]

variable {s rest : Bytes}

theorem readId_eq_ok {kind : IdKind} {id : FixedId kind} :
    Reader.id kind s = .ok (id, rest) ↔ s = id.asBytes ++ rest := by
  simp only [Reader.id, parserBind_eq_ok, be_eq_ok, parserPure_eq_ok]
  constructor
  · rintro ⟨value, _, ⟨rfl, hlt⟩, rfl, rfl⟩
    rw [FixedId.asBytes, BitVec.toNat_ofNat, Nat.mod_eq_of_lt (hlt.trans_le (by decide))]
  · rintro rfl
    exact ⟨_, _, ⟨rfl, id.bits.isLt⟩, by rw [BitVec.ofNat_toNat, BitVec.setWidth_eq], rfl⟩

theorem readDigest_eq_ok {digest : Digest} :
    Reader.digest s = .ok (digest, rest) ↔ s = digestBytes digest ++ rest := by
  simp only [Reader.digest, parserBind_eq_ok, be_eq_ok, parserPure_eq_ok]
  constructor
  · rintro ⟨value, _, ⟨rfl, hlt⟩, rfl, rfl⟩
    rw [digestBytes, BitVec.toNat_ofNat, Nat.mod_eq_of_lt (hlt.trans_le (by decide))]
  · rintro rfl
    exact ⟨_, _, ⟨rfl, digest.isLt⟩, by rw [BitVec.ofNat_toNat, BitVec.setWidth_eq], rfl⟩

theorem check_eq_ok {c : Prop} [Decidable c] {error : FormatError} {u : Unit} :
    Reader.check c error s = .ok (u, rest) ↔ c ∧ s = rest := by
  rw [Reader.check, parserLift_eq_ok, ensure_eq_ok]

variable {limits : StorageLimits} {u : Unit} {bytes : Bytes} {crypto : Crypto}

theorem checkedKeyLength_eq_ok {key : ObjectKey} :
    checkedKeyLength key limits = .ok u ↔
      key.text.length ≤ limits.maxKeyBytes ∧ key.text.length < 2 ^ 32 := by
  simp [checkedKeyLength, bind_eq_ok]

theorem readKey_eq_ok {key : ObjectKey} : readKey limits s = .ok (key, rest) ↔
    s = keyBytes key ++ rest ∧ checkedKeyLength key limits = .ok () := by
  simp only [readKey, Reader.u32, Reader.bytes, parserBind_eq_ok, le_eq_ok, parserLift_eq_ok,
    take_eq_ok, mapErr_eq_ok, requireWithin_eq_ok, checkedKeyLength_eq_ok]
  constructor
  · rintro ⟨_, _, ⟨rfl, hlength⟩, _, _, ⟨hmax, rfl⟩, text, _, ⟨rfl, rfl⟩, h⟩
    split at h
    · obtain ⟨rfl, rfl⟩ := parserPure_eq_ok.1 h
      exact ⟨by rw [keyBytes, List.append_assoc], hmax, hlength⟩
    · cases h
  · rintro ⟨rfl, hmax, hlength⟩
    refine ⟨_, _, ⟨List.append_assoc .., hlength⟩, (), _, ⟨hmax, rfl⟩, _, _, ⟨rfl, rfl⟩, ?_⟩
    rw [dif_pos ⟨key.utf8, key.printable⟩]
    rfl

theorem readRepresentation_eq_ok :
    readRepresentation s = .ok (u, rest) ↔ s = representationBytes ++ rest := by
  constructor
  · intro h
    simp only [readRepresentation, Reader.u8, parserBind_eq_ok, le_eq_ok, check_eq_ok] at h
    obtain ⟨_, _, ⟨rfl, -⟩, _, _, ⟨rfl, rfl⟩, _, _, ⟨rfl, -⟩, _, _, ⟨rfl, rfl⟩, _, _, ⟨rfl, -⟩,
      rfl, rfl⟩ := h
    rfl
  · rintro rfl
    rfl

theorem readProfile_eq_ok : readProfile s = .ok (u, rest) ↔ s = profileBytes ++ rest := by
  simp only [readProfile, Reader.u8, Reader.u16, Reader.u32, parserBind_eq_ok, le_eq_ok, check_eq_ok]
  constructor
  · rintro ⟨_, _, ⟨rfl, -⟩, _, _, ⟨rfl, -⟩, _, _, ⟨rfl, -⟩, _, _, ⟨rfl, -⟩, ⟨rfl, rfl, rfl, rfl⟩, rfl⟩
    simp only [profileBytes, List.append_assoc]
  · rintro rfl
    simp only [profileBytes, List.append_assoc]
    exact ⟨_, _, ⟨rfl, by decide⟩, _, _, ⟨rfl, by decide⟩, _, _, ⟨rfl, by decide⟩, _, _,
      ⟨rfl, by decide⟩, ⟨rfl, rfl, rfl, rfl⟩, rfl⟩

theorem validateBlob_eq_ok {blob : BlobRef} :
    validateBlob blob limits = .ok u ↔
      checkedKeyLength blob.key limits = .ok () ∧ blob.plaintextLen ≠ 0 ∧
      payloadMinStoredBytes ≤ blob.storedLen ∧ blob.storedLen ≤ limits.maxObjectBytes := by
  simp only [validateBlob, bind_eq_ok, mapErr_eq_ok, requireWithin_eq_ok, ensure_eq_ok]
  constructor
  · rintro ⟨_, hkey, _, ⟨hplain, hmin⟩, hstored⟩
    exact ⟨hkey, hplain, hmin, hstored⟩
  · rintro ⟨hkey, hplain, hmin, hstored⟩
    exact ⟨(), hkey, (), ⟨hplain, hmin⟩, hstored⟩

theorem readBlob_eq_ok {blob : BlobRef} : readBlob limits s = .ok (blob, rest) ↔
    s = blobBytes blob ++ rest ∧ checkedKeyLength blob.key limits = .ok () ∧
      blob.plaintextLen < 2 ^ 64 ∧ blob.storedLen < 2 ^ 64 := by
  simp only [readBlob, Reader.u64, parserBind_eq_ok, readKey_eq_ok, le_eq_ok,
    readRepresentation_eq_ok, readDigest_eq_ok, parserPure_eq_ok, blobBytes, List.append_assoc]
  constructor
  · rintro ⟨_, _, ⟨rfl, hkey⟩, _, _, ⟨rfl, hplain⟩, _, _, ⟨rfl, hstored⟩, _, _, rfl, _, _, rfl, rfl, rfl⟩
    exact ⟨rfl, hkey, hplain, hstored⟩
  · rintro ⟨rfl, hkey, hplain, hstored⟩
    exact ⟨_, _, ⟨rfl, hkey⟩, _, _, ⟨rfl, hplain⟩, _, _, ⟨rfl, hstored⟩, (), _, rfl, _, _, rfl, rfl, rfl⟩

variable {level : Nat}

theorem pageCoverage_eq_ok {coverage : Nat} :
    pageCoverage level = .ok coverage ↔
      level ≤ blockMapMaxLevel ∧ coverage = 2 ^ (7 * (level + 1)) := by
  unfold pageCoverage
  split
  · rename_i h
    simp [h, eq_comm]
  · rename_i h
    simp [h]

variable {firstBlock : Nat}

theorem validateLocation_eq_ok {coverage : Nat} {alignment range : String} :
    validateLocation level firstBlock alignment range = .ok coverage ↔
      level ≤ blockMapMaxLevel ∧ coverage = 2 ^ (7 * (level + 1)) ∧ firstBlock % coverage = 0 ∧
      firstBlock < mapDomain ∧ firstBlock + coverage ≤ mapDomain := by
  simp only [validateLocation, bind_eq_ok, mapErr_eq_ok, pageCoverage_eq_ok, ensure_eq_ok,
    pure_eq_ok]
  constructor
  · rintro ⟨c, ⟨hlevel, rfl⟩, _, halign, _, hrange, rfl⟩
    exact ⟨hlevel, rfl, halign, hrange⟩
  · rintro ⟨hlevel, rfl, halign, hrange⟩
    exact ⟨_, ⟨hlevel, rfl⟩, (), halign, (), hrange, rfl⟩

/-- What a page reference that passes its checks satisfies. -/
structure PageRef.Valid (reference : PageRef) (limits : StorageLimits) : Prop where
  key : checkedKeyLength reference.key limits = .ok ()
  encodedLen : reference.encodedLen ≤ limits.maxMapPageBytes
  minimum : minimumPageBytes reference.level + mapPageMinOverhead ≤ reference.encodedLen
  level : reference.level ≤ blockMapMaxLevel
  aligned : reference.firstBlock % 2 ^ (7 * (reference.level + 1)) = 0
  domain : reference.firstBlock + 2 ^ (7 * (reference.level + 1)) ≤ mapDomain
  count_pos : reference.materializedBlockCount ≠ 0
  count_le : reference.materializedBlockCount ≤ 2 ^ (7 * (reference.level + 1))
  count_max : reference.materializedBlockCount ≤ limits.maxMaterializedBlocks
  covers : reference.Covers reference.highestMaterializedBlock
  count_highest : reference.materializedBlockCount ≤
    reference.highestMaterializedBlock - reference.firstBlock + 1

theorem validatePageRef_eq_ok {reference : PageRef} :
    validatePageRef reference limits = .ok u ↔ reference.Valid limits := by
  simp only [validatePageRef, bind_eq_ok, mapErr_eq_ok, requireWithin_eq_ok, ensure_eq_ok,
    validateLocation_eq_ok]
  constructor
  · rintro ⟨_, hkey, _, hlen, _, hmin, c, ⟨hlevel, rfl, halign, -, hdomain⟩, _, ⟨hpos, hle, hmax⟩,
      hcovers, hhighest⟩
    exact ⟨hkey, hlen, hmin, hlevel, halign, hdomain, hpos, hle, hmax, hcovers, hhighest⟩
  · intro h
    have hpow : 0 < 2 ^ (7 * (reference.level + 1)) := Nat.two_pow_pos _
    have hdomain := h.domain
    exact ⟨(), h.key, (), h.encodedLen, (), h.minimum, _,
      ⟨h.level, rfl, h.aligned, by omega, h.domain⟩, (), ⟨h.count_pos, h.count_le, h.count_max⟩,
      h.covers, h.count_highest⟩

theorem readPageRef_eq_ok {reference : PageRef} : readPageRef limits s = .ok (reference, rest) ↔
    s = pageRefBytes reference ++ rest ∧ reference.Valid limits := by
  simp only [readPageRef, Reader.u64, Reader.u8, parserBind_eq_ok, readKey_eq_ok, le_eq_ok,
    readDigest_eq_ok, parserLift_eq_ok, validatePageRef_eq_ok, parserPure_eq_ok, pageRefBytes,
    List.append_assoc]
  constructor
  · rintro ⟨_, _, ⟨rfl, -⟩, _, _, ⟨rfl, -⟩, _, _, rfl, _, _, ⟨rfl, -⟩, _, _, ⟨rfl, -⟩, _, _, ⟨rfl, -⟩,
      _, _, ⟨rfl, -⟩, _, _, ⟨hvalid, rfl⟩, rfl, rfl⟩
    exact ⟨rfl, hvalid⟩
  · rintro ⟨rfl, h⟩
    have hpage := (limits.consistent).2.1
    have hobject := limits.maxObjectBytes_lt
    have hlevel := h.level
    have hdomain := h.domain
    have hcount := h.count_le
    have hhighest := h.covers.2.2.2
    have hlen := h.encodedLen
    unfold mapDomain at hdomain
    unfold blockMapMaxLevel at hlevel
    have hpow : 2 ^ (7 * (reference.level + 1)) ≤ 2 ^ 49 :=
      Nat.pow_le_pow_right (by decide) (by omega)
    exact ⟨_, _, ⟨rfl, h.key⟩, _, _, ⟨rfl, by omega⟩, _, _, rfl, _, _, ⟨rfl, by omega⟩, _, _,
      ⟨rfl, by omega⟩, _, _, ⟨rfl, by omega⟩, _, _, ⟨rfl, by omega⟩, (), _, ⟨h, rfl⟩, rfl, rfl⟩

theorem readOption_eq_ok {α : Type} {field : String} {read : Reader α} {encode : α → Bytes}
    {P : α → Prop} (hread : Codes read encode P) {value : Option α} :
    readOption field read s = .ok (value, rest) ↔
      s = optionBytes encode value ++ rest ∧ ∀ a ∈ value, P a := by
  simp only [readOption, Reader.u8, parserBind_eq_ok, le_eq_ok]
  constructor
  · rintro ⟨tag, t, ⟨rfl, -⟩, h⟩
    split at h
    · rename_i hzero
      obtain ⟨rfl, rfl⟩ := parserPure_eq_ok.1 h
      simp [hzero, optionBytes]
    · split at h
      · rename_i hone
        obtain ⟨a, _, ha, h⟩ := parserBind_eq_ok.1 h
        obtain ⟨rfl, rfl⟩ := parserPure_eq_ok.1 h
        obtain ⟨rfl, hP⟩ := hread.eq_ok.1 ha
        simp [hone, optionBytes, hP]
      · cases h
  · rintro ⟨rfl, h⟩
    cases value with
    | none => exact ⟨0, _, ⟨rfl, by decide⟩, rfl⟩
    | some a =>
      refine ⟨1, _, ⟨List.append_assoc .., by decide⟩, ?_⟩
      exact parserBind_eq_ok.2 ⟨a, rest, hread.eq_ok.2 ⟨rfl, h a rfl⟩, rfl⟩

/-! ## Envelopes, heads and manifests -/

variable {kind : ObjectKind} {payload : Bytes}

theorem encodeEnvelope_eq_ok {maximum : Nat} :
    encodeEnvelope crypto kind payload maximum = .ok bytes ↔
      envelopeHeaderLen + payload.length ≤ maximum ∧
      bytes = envelopeHeader crypto kind payload ++ payload := by
  simp only [encodeEnvelope, bind_eq_ok, requireWithin_eq_ok, pure_eq_ok, exists_const]
  rw [eq_comm]

@[simp] theorem length_envelopeHeader (crypto : Crypto) (kind : ObjectKind) (payload : Bytes) :
    (envelopeHeader crypto kind payload).length = envelopeHeaderLen := by
  simp [envelopeHeader, envelopeHeaderLen, envelopeMagic]

theorem ObjectKind.code_lt (kind : ObjectKind) : kind.code < 256 := by cases kind <;> decide

theorem readEnvelope_eq_ok :
    readEnvelope crypto kind s = .ok (payload, rest) ↔
      s = envelopeHeader crypto kind payload ++ payload ∧ rest = [] ∧ payload.length < 2 ^ 64 := by
  simp only [readEnvelope, Reader.bytes, Reader.u8, Reader.u16, Reader.u64, Reader.finish,
    parserBind_eq_ok, take_eq_ok, le_eq_ok, check_eq_ok, remaining_eq_ok, finish_eq_ok,
    readDigest_eq_ok, parserLift_eq_ok, ensure_eq_ok, parserPure_eq_ok, envelopeHeader,
    List.append_assoc]
  constructor
  · rintro ⟨_, _, ⟨rfl, -⟩, _, _, ⟨rfl, rfl⟩, _, _, ⟨rfl, -⟩, _, _, ⟨rfl, rfl⟩, _, _, ⟨rfl, -⟩, _, _,
      ⟨rfl, -⟩, _, _, ⟨⟨rfl, rfl⟩, rfl⟩, _, _, ⟨rfl, hlt⟩, _, _, rfl, _, _, ⟨rfl, rfl⟩, _, _,
      ⟨rfl, rfl⟩, _, _, ⟨rfl, -⟩, _, _, ⟨rfl, rfl⟩, _, _, ⟨rfl, rfl⟩, rfl, rfl⟩
    rw [List.append_nil] at hlt
    exact ⟨by simp only [List.append_nil], rfl, hlt⟩
  · rintro ⟨rfl, rfl, hlt⟩
    exact ⟨_, _, ⟨rfl, rfl⟩, (), _, ⟨rfl, rfl⟩, _, _, ⟨rfl, kind.code_lt⟩, (), _, ⟨rfl, rfl⟩, _, _,
      ⟨rfl, by decide⟩, _, _, ⟨rfl, by decide⟩, (), _, ⟨⟨rfl, rfl⟩, rfl⟩, _, _, ⟨rfl, hlt⟩, _, _, rfl,
      _, _, ⟨rfl, rfl⟩, (), _, ⟨rfl, rfl⟩, _, [], ⟨(List.append_nil _).symm, rfl⟩, (), _, ⟨rfl, rfl⟩,
      (), _, ⟨rfl, rfl⟩, rfl, rfl⟩

/-- **An envelope is accepted exactly if it is the one that its payload is written in.** -/
theorem decodeEnvelope_eq_ok {maximum : Nat} (hmax : maximum < 2 ^ 64) :
    decodeEnvelope crypto kind bytes maximum = .ok payload ↔
      encodeEnvelope crypto kind payload maximum = .ok bytes := by
  simp only [decodeEnvelope, bind_eq_ok, mapErr_eq_ok, requireWithin_eq_ok, pure_eq_ok, Prod.exists,
    readEnvelope_eq_ok, encodeEnvelope_eq_ok]
  constructor
  · rintro ⟨_, hbound, _, _, ⟨rfl, -⟩, rfl⟩
    exact ⟨by simpa using hbound, rfl⟩
  · rintro ⟨hbound, rfl⟩
    exact ⟨(), by simpa using hbound, payload, [], ⟨rfl, rfl, by omega⟩, rfl⟩

theorem maxManifestBytes_lt (limits : StorageLimits) : limits.maxManifestBytes < 2 ^ 64 :=
  limits.values.maxManifestBytes.toNat_lt

theorem maxMapPageBytes_lt (limits : StorageLimits) : limits.maxMapPageBytes < 2 ^ 64 :=
  limits.values.maxMapPageBytes.toNat_lt

theorem readHead_eq_ok {head : FileHead} : readHead limits s = .ok (head, rest) ↔
    s = headPayload head ∧ rest = [] ∧ checkedKeyLength head.manifestKey limits = .ok () := by
  simp only [readHead, Reader.u64, Reader.finish, parserBind_eq_ok, readId_eq_ok, le_eq_ok,
    readKey_eq_ok, readDigest_eq_ok, finish_eq_ok, parserPure_eq_ok]
  constructor
  · rintro ⟨_, _, rfl, _, _, ⟨rfl, hlt⟩, _, _, ⟨rfl, hkey⟩, _, _, rfl, _, _, rfl, _, _, ⟨rfl, rfl⟩, rfl, rfl⟩
    rw [headPayload, UInt64.toNat_ofNat_of_lt' (hlt.trans_le (by decide)), List.append_nil]
    exact ⟨rfl, rfl, hkey⟩
  · rintro ⟨rfl, rfl, hkey⟩
    exact ⟨_, _, rfl, _, _, ⟨rfl, head.generation.toNat_lt⟩, _, _, ⟨rfl, hkey⟩, _, _, rfl, _, [],
      (List.append_nil _).symm, (), [], ⟨rfl, rfl⟩, by rw [UInt64.ofNat_toNat], rfl⟩

/-- **A head is accepted exactly if it is the encoding of what it is read as.** -/
theorem decodeHead_eq_ok {head : FileHead} : decodeHead crypto bytes limits = .ok head ↔
    encodeHead crypto head limits = .ok bytes := by
  simp only [decodeHead, encodeHead, bind_eq_ok, mapErr_eq_ok, pure_eq_ok, Prod.exists,
    decodeEnvelope_eq_ok limits.maxObjectBytes_lt, readHead_eq_ok]
  constructor
  · rintro ⟨_, henvelope, _, _, ⟨rfl, -⟩, _, hvalid, rfl⟩
    exact ⟨(), hvalid, henvelope⟩
  · rintro ⟨_, hvalid, henvelope⟩
    have hkey : checkedKeyLength head.manifestKey limits = .ok () := by
      simp only [validateHead, bind_eq_ok, ensure_eq_ok] at hvalid
      obtain ⟨_, -, hkey⟩ := hvalid
      exact hkey
    exact ⟨_, henvelope, head, [], ⟨rfl, rfl, hkey⟩, (), hvalid, rfl⟩

/-- What the reader of a layout checks itself. -/
def ManifestLayout.Readable (limits : StorageLimits) : ManifestLayout → Prop
  | .raw blob => ∀ b ∈ blob, checkedKeyLength b.key limits = .ok () ∧ b.plaintextLen < 2 ^ 64 ∧
      b.storedLen < 2 ^ 64
  | .blockSplit root => ∀ r ∈ root, r.Valid limits

theorem readLayout_eq_ok {layout : ManifestLayout} : readLayout limits s = .ok (layout, rest) ↔
    s = layoutBytes layout ++ rest ∧ layout.Readable limits := by
  simp only [readLayout, Reader.u8, parserBind_eq_ok, le_eq_ok, readRepresentation_eq_ok]
  constructor
  · rintro ⟨_, _, ⟨rfl, -⟩, _, _, rfl, h⟩
    split at h
    · rename_i hraw
      obtain ⟨blob, _, hblob, h⟩ := parserBind_eq_ok.1 h
      obtain ⟨rfl, rfl⟩ := parserPure_eq_ok.1 h
      obtain ⟨rfl, hreadable⟩ := (readOption_eq_ok fun _ _ _ => readBlob_eq_ok).1 hblob
      exact ⟨by simp only [hraw, layoutBytes, List.append_assoc], hreadable⟩
    · split at h
      · rename_i hsplit
        simp only [parserBind_eq_ok, readProfile_eq_ok] at h
        obtain ⟨_, _, rfl, root, _, hroot, h⟩ := h
        obtain ⟨rfl, rfl⟩ := parserPure_eq_ok.1 h
        obtain ⟨rfl, hvalid⟩ := (readOption_eq_ok fun _ _ _ => readPageRef_eq_ok).1 hroot
        exact ⟨by simp only [hsplit, layoutBytes, List.append_assoc], hvalid⟩
      · cases h
  · rintro ⟨rfl, h⟩
    cases layout with
    | raw blob =>
      simp only [layoutBytes, List.append_assoc]
      refine ⟨1, _, ⟨rfl, by decide⟩, (), _, rfl, parserBind_eq_ok.2 ⟨blob, rest, ?_, rfl⟩⟩
      exact (readOption_eq_ok fun _ _ _ => readBlob_eq_ok).2 ⟨rfl, h⟩
    | blockSplit root =>
      simp only [layoutBytes, List.append_assoc]
      refine ⟨2, _, ⟨rfl, by decide⟩, (), _, rfl, parserBind_eq_ok.2 ⟨(), _, readProfile_eq_ok.2 rfl,
        parserBind_eq_ok.2 ⟨root, rest, ?_, rfl⟩⟩⟩
      exact (readOption_eq_ok fun _ _ _ => readPageRef_eq_ok).2 ⟨rfl, h⟩

theorem readable_of_validateLayout {size : UInt64} {layout : ManifestLayout}
    (h : validateLayout size limits layout = .ok u) : layout.Readable limits := by
  cases layout with
  | raw blob =>
    rintro b ⟨⟩
    simp only [validateLayout, bind_eq_ok, mapErr_eq_ok, requireWithin_eq_ok, ensure_eq_ok,
      validateBlob_eq_ok] at h
    obtain ⟨_, -, _, -, _, ⟨hkey, -, -, hstored⟩, hlen⟩ := h
    exact ⟨hkey, hlen ▸ size.toNat_lt, hstored.trans_lt limits.maxObjectBytes_lt⟩
  | blockSplit root =>
    rintro r ⟨⟩
    simp only [validateLayout, bind_eq_ok, validatePageRef_eq_ok] at h
    obtain ⟨_, hvalid, -⟩ := h
    exact hvalid

variable {manifest : FileManifest}

theorem readManifest_eq_ok : readManifest limits s = .ok (manifest, rest) ↔
    s = manifestPayload manifest ∧ rest = [] ∧ manifest.layout.Readable limits := by
  simp only [readManifest, Reader.u64, Reader.finish, parserBind_eq_ok, readId_eq_ok, le_eq_ok,
    readLayout_eq_ok, finish_eq_ok, parserPure_eq_ok]
  constructor
  · rintro ⟨_, _, rfl, _, _, ⟨rfl, hgeneration⟩, _, _, ⟨rfl, hsize⟩, _, _, ⟨rfl, hlayout⟩, _, _,
      ⟨rfl, rfl⟩, rfl, rfl⟩
    rw [manifestPayload, UInt64.toNat_ofNat_of_lt' (hgeneration.trans_le (by decide)),
      UInt64.toNat_ofNat_of_lt' (hsize.trans_le (by decide)), List.append_nil]
    exact ⟨rfl, rfl, hlayout⟩
  · rintro ⟨rfl, rfl, hlayout⟩
    exact ⟨_, _, rfl, _, _, ⟨rfl, manifest.generation.toNat_lt⟩, _, _,
      ⟨rfl, manifest.logicalSize.toNat_lt⟩, _, [], ⟨(List.append_nil _).symm, hlayout⟩, (), [],
      ⟨rfl, rfl⟩, by rw [UInt64.ofNat_toNat, UInt64.ofNat_toNat], rfl⟩

theorem encodeManifest_eq_ok : encodeManifest crypto manifest limits = .ok bytes ↔
      validateManifest manifest limits = .ok () ∧
      envelopeHeaderLen + (manifestPayload manifest).length ≤ limits.maxManifestBytes ∧
      bytes = envelopeHeader crypto .manifest (manifestPayload manifest) ++ manifestPayload manifest := by
  simp only [encodeManifest, bind_eq_ok, mapErr_eq_ok, requireWithin_eq_ok, encodeEnvelope_eq_ok,
    exists_const, and_self_left]
  exact Unique.exists_iff

/-- **A manifest is accepted exactly if it is the encoding of what it is read as.** -/
theorem decodeManifest_eq_ok :
    decodeManifest crypto bytes limits = .ok manifest ↔
      encodeManifest crypto manifest limits = .ok bytes := by
  simp only [decodeManifest, encodeManifest_eq_ok, ← encodeEnvelope_eq_ok, bind_eq_ok, mapErr_eq_ok,
    requireWithin_eq_ok, pure_eq_ok, Prod.exists, decodeEnvelope_eq_ok (maxManifestBytes_lt limits),
    readManifest_eq_ok]
  constructor
  · rintro ⟨_, -, _, henvelope, _, _, ⟨rfl, -⟩, _, hvalid, rfl⟩
    exact ⟨hvalid, henvelope⟩
  · rintro ⟨hvalid, henvelope⟩
    have hlayout : validateLayout manifest.logicalSize limits manifest.layout = .ok () := by
      simp only [validateManifest, bind_eq_ok, ensure_eq_ok] at hvalid
      obtain ⟨_, -, hlayout⟩ := hvalid
      exact hlayout
    have hbound : bytes.length ≤ limits.maxManifestBytes := by
      obtain ⟨hlen, rfl⟩ := encodeEnvelope_eq_ok.1 henvelope
      simpa using hlen
    exact ⟨(), hbound, _, henvelope, manifest, [], ⟨rfl, rfl, readable_of_validateLayout hlayout⟩, (),
      hvalid, rfl⟩

/-! ## Pages -/

theorem foldlM_validateSlot {slots : List Nat} {previous last : Option Nat} :
    slots.foldlM validateSlot previous = .ok last ↔
      (∀ slot ∈ slots, slot < blockMapFanout) ∧ slots.Pairwise (· < ·) ∧
      (∀ prior ∈ previous, ∀ slot ∈ slots, prior < slot) ∧ last = (slots.getLast?).or previous := by
  induction slots generalizing previous with
  | nil => simp [pure, Except.pure, eq_comm]
  | cons slot slots ih =>
    have hstep : ∀ {next : Option Nat}, validateSlot previous slot = .ok next ↔
        slot < blockMapFanout ∧ (∀ prior ∈ previous, prior < slot) ∧ next = some slot := by
      intro next
      simp only [validateSlot, bind_eq_ok, ensure_eq_ok, pure_eq_ok]
      rw [exists_const, and_assoc, eq_comm (a := next)]
    have hlast : ((slot :: slots).getLast?).or previous = (slots.getLast?).or (some slot) := by
      cases slots with
      | nil => rfl
      | cons a l => simp [List.getLast?_eq_some_getLast]
    rw [foldlM_cons_eq_ok, hlast]
    simp only [hstep, List.forall_mem_cons, List.pairwise_cons]
    constructor
    · rintro ⟨_, ⟨hslot, hprior, rfl⟩, hrest⟩
      obtain ⟨hbound, hsorted, hafter, rfl⟩ := ih.1 hrest
      have hafter := hafter slot rfl
      exact ⟨⟨hslot, hbound⟩, ⟨hafter, hsorted⟩,
        fun p hp => ⟨hprior p hp, fun x hx => (hprior p hp).trans (hafter x hx)⟩, rfl⟩
    · rintro ⟨⟨hslot, hbound⟩, ⟨hafter, hsorted⟩, hprior, rfl⟩
      refine ⟨some slot, ⟨hslot, fun p hp => (hprior p hp).1, rfl⟩, ih.2 ⟨hbound, hsorted, ?_, rfl⟩⟩
      rintro p ⟨⟩
      exact hafter

theorem validateSlots_eq_ok {slots : List Nat} :
    validateSlots slots = .ok u ↔
      slots ≠ [] ∧ (∀ slot ∈ slots, slot < blockMapFanout) ∧ slots.Pairwise (· < ·) := by
  simp only [validateSlots, bind_eq_ok, ensure_eq_ok, foldlM_validateSlot]
  constructor
  · rintro ⟨last, ⟨hbound, hsorted, -, rfl⟩, hlast⟩
    refine ⟨?_, hbound, hsorted⟩
    rintro rfl
    exact hlast rfl
  · rintro ⟨hne, hbound, hsorted⟩
    refine ⟨_, ⟨hbound, hsorted, by simp, rfl⟩, ?_⟩
    rw [List.getLast?_eq_some_getLast hne]
    simp

theorem length_le_fanout {α : Type} {entries : List (Nat × α)}
    (hbound : ∀ e ∈ entries, e.1 < blockMapFanout) (hsorted : entries.Pairwise fun a b => a.1 < b.1) :
    entries.length ≤ blockMapFanout := by
  have hnodup : (entries.map Prod.fst).Nodup := (List.pairwise_map.2 hsorted).imp Nat.ne_of_lt
  have hsub : entries.map Prod.fst ⊆ List.range blockMapFanout := by
    intro slot hslot
    obtain ⟨e, he, rfl⟩ := List.mem_map.1 hslot
    exact List.mem_range.2 (hbound e he)
  simpa using (hnodup.subperm hsub).length_le

/-- The checks of a page, one set for both kinds. -/
theorem validatePage_leaf {fileId : FileId} {entries : List (Nat × BlobRef)} :
    validatePage crypto (.leaf fileId firstBlock entries) limits = .ok u ↔
      (firstBlock % 2 ^ 7 = 0 ∧ firstBlock + 2 ^ 7 ≤ mapDomain) ∧
      (entries ≠ [] ∧ (∀ e ∈ entries, e.1 < blockMapFanout) ∧
        entries.Pairwise fun a b => a.1 < b.1) ∧
      ∀ e ∈ entries, validateBlob e.2 limits = .ok () ∧ e.2.plaintextLen = blockSize ∧
        e.2.digest ≠ crypto.blake3 (List.replicate blockSize 0) := by
  simp only [validatePage, bind_eq_ok, validateLocation_eq_ok, validateSlots_eq_ok,
    forM_eq_ok, validateLeafEntry, ensure_eq_ok, BlockMapPage.level, BlockMapPage.firstBlock,
    List.pairwise_map, List.forall_mem_map, List.map_eq_nil_iff, ne_eq]
  constructor
  · rintro ⟨c, ⟨-, rfl, halign, -, hdomain⟩, _, hslots, hentries⟩
    refine ⟨⟨halign, hdomain⟩, hslots, fun e he => ?_⟩
    obtain ⟨_, hblob, _, hlen, _, hdigest, -⟩ := hentries e he
    exact ⟨hblob, hlen, hdigest⟩
  · rintro ⟨⟨halign, hdomain⟩, hslots, hentries⟩
    refine ⟨_, ⟨by decide, rfl, halign, ?_, hdomain⟩, (), hslots, fun e he => ?_⟩
    · omega
    · obtain ⟨hblob, hlen, hdigest⟩ := hentries e he
      have hslot := hslots.2.1 e he
      refine ⟨(), hblob, (), hlen, (), hdigest, ?_⟩
      unfold mapDomain at hdomain
      unfold blockMapFanout at hslot
      omega

theorem validatePage_branch {fileId : FileId} {entries : List (Nat × PageRef)} :
    validatePage crypto (.branch fileId level firstBlock entries) limits = .ok u ↔
      (level ≤ blockMapMaxLevel ∧ level ≠ 0 ∧ firstBlock % 2 ^ (7 * (level + 1)) = 0 ∧
        firstBlock + 2 ^ (7 * (level + 1)) ≤ mapDomain) ∧
      (entries ≠ [] ∧ (∀ e ∈ entries, e.1 < blockMapFanout) ∧
        entries.Pairwise fun a b => a.1 < b.1) ∧
      ∀ e ∈ entries, e.2.Valid limits ∧ e.2.level = level - 1 ∧
        e.2.firstBlock = firstBlock + e.1 * slotCoverage level := by
  simp only [validatePage, bind_eq_ok, validateLocation_eq_ok, validateSlots_eq_ok,
    forM_eq_ok, validateBranchEntry, ensure_eq_ok, BlockMapPage.level, BlockMapPage.firstBlock,
    List.pairwise_map, List.forall_mem_map, List.map_eq_nil_iff, ne_eq, validatePageRef_eq_ok]
  constructor
  · rintro ⟨c, ⟨hlevel, rfl, halign, -, hdomain⟩, _, hne, _, hslots, hentries⟩
    refine ⟨⟨hlevel, hne, halign, hdomain⟩, hslots, fun e he => ?_⟩
    obtain ⟨_, hvalid, _, -, hplace⟩ := hentries e he
    exact ⟨hvalid, hplace⟩
  · rintro ⟨⟨hlevel, hne, halign, hdomain⟩, hslots, hentries⟩
    have hpow : 0 < 2 ^ (7 * (level + 1)) := Nat.two_pow_pos _
    refine ⟨_, ⟨hlevel, rfl, halign, by omega, hdomain⟩, (), hne, (), hslots, fun e he => ?_⟩
    obtain ⟨hvalid, hplace⟩ := hentries e he
    refine ⟨(), hvalid, (), ?_, hplace⟩
    have hchild : 0 < 2 ^ (7 * (e.2.level + 1)) := Nat.two_pow_pos _
    have hdomain' := hvalid.domain
    rw [hplace.2] at hdomain'
    unfold mapDomain at hdomain'
    omega

theorem length_keyBytes (key : ObjectKey) : (keyBytes key).length = 4 + key.text.length := by
  simp [keyBytes]

theorem key_length_pos (key : ObjectKey) : 0 < key.text.length :=
  List.length_pos_of_ne_nil key.printable.1

theorem length_blobBytes (blob : BlobRef) :
    (blobBytes blob).length = minimumBlobRefBytes - 1 + blob.key.text.length := by
  simp only [blobBytes, List.length_append, length_keyBytes, length_leBytes, length_digestBytes,
    representationBytes, List.length_cons, List.length_nil, minimumBlobRefBytes]
  omega

theorem length_pageRefBytes (reference : PageRef) :
    (pageRefBytes reference).length = minimumPageRefBytes - 1 + reference.key.text.length := by
  simp only [pageRefBytes, List.length_append, length_keyBytes, length_leBytes, length_digestBytes,
    minimumPageRefBytes]
  omega

/-- Entries that are at least as long as the reader expects fill the input. -/
theorem length_le_div_entries {α : Type} {minimum : Nat} {encode : α → Bytes}
    {entries : List (Nat × α)} (h : ∀ e ∈ entries, minimum ≤ (encode e.2).length) :
    entries.length ≤
      (entries.flatMap fun e => leBytes 1 e.1 ++ encode e.2).length / (1 + minimum) := by
  rw [Nat.le_div_iff_mul_le (by omega), List.length_flatMap]
  have hsum := List.card_nsmul_le_sum
    (entries.map fun e => (leBytes 1 e.1 ++ encode e.2).length) (1 + minimum) ?_
  · simpa using hsum
  · rintro n hn
    obtain ⟨e, he, rfl⟩ := List.mem_map.1 hn
    have hmin := h e he
    simp only [List.length_append, length_leBytes]
    omega

theorem codes_entry {α : Type} {read : Reader α} {encode : α → Bytes} {P : α → Prop}
    (hread : Codes read encode P) :
    Codes (readEntry read) (fun e => leBytes 1 e.1 ++ encode e.2) fun e => e.1 < 256 ∧ P e.2 := by
  intro s e rest
  simp only [readEntry, Reader.u8, parserBind_eq_ok, le_eq_ok, hread.eq_ok, parserPure_eq_ok,
    List.append_assoc]
  constructor
  · rintro ⟨_, _, ⟨rfl, hslot⟩, _, _, ⟨rfl, hP⟩, rfl, rfl⟩
    exact ⟨rfl, hslot, hP⟩
  · rintro ⟨rfl, hslot, hP⟩
    exact ⟨_, _, ⟨rfl, hslot⟩, _, _, ⟨rfl, hP⟩, rfl, rfl⟩

variable {page : BlockMapPage}

theorem readEntries_eq_ok {α : Type} {read : Reader α} {encode : α → Bytes} {P : α → Prop}
    (hread : Codes read encode P) {count : Nat} {make : List (Nat × α) → BlockMapPage} :
    (Parser.many (readEntry read) count >>= fun entries =>
        Reader.finish >>= fun _ => pure (make entries)) s = .ok (page, rest) ↔
      ∃ entries, page = make entries ∧ rest = [] ∧ entries.length = count ∧
        s = (entries.flatMap fun e => leBytes 1 e.1 ++ encode e.2) ∧ ∀ e ∈ entries, e.1 < 256 ∧ P e.2 := by
  simp only [parserBind_eq_ok, many_eq_ok (codes_entry hread), Reader.finish, finish_eq_ok,
    parserPure_eq_ok]
  constructor
  · rintro ⟨entries, _, ⟨rfl, hcount, hP⟩, _, _, ⟨rfl, rfl⟩, rfl, rfl⟩
    exact ⟨entries, rfl, rfl, hcount, List.append_nil _, hP⟩
  · rintro ⟨entries, rfl, rfl, hcount, rfl, hP⟩
    exact ⟨entries, [], ⟨(List.append_nil _).symm, hcount, hP⟩, (), [], ⟨rfl, rfl⟩, rfl, rfl⟩

theorem readPage_pagePayload (h : validatePage crypto page limits = .ok u) :
    readPage page.level limits (pagePayload page) = .ok (page, []) := by
  simp only [readPage, Reader.u8, Reader.u16, Reader.u64, parserBind_eq_ok, readId_eq_ok, le_eq_ok,
    readProfile_eq_ok, check_eq_ok, remaining_eq_ok]
  cases page with
  | leaf fileId firstBlock entries =>
    obtain ⟨⟨-, hdomain⟩, ⟨hne, hslots, hsorted⟩, hentries⟩ := validatePage_leaf.1 h
    have hcount := length_le_fanout hslots hsorted
    have hfirst : firstBlock < 256 ^ 8 := by unfold mapDomain at hdomain; omega
    refine ⟨_, _, rfl, 0, _, ⟨rfl, by decide⟩, _, _, ⟨rfl, hfirst⟩, (), _, rfl, _, _,
      ⟨rfl, hcount.trans_lt (by decide)⟩, (), _, ⟨⟨by simpa using hne, hcount⟩, rfl⟩, _, _, ⟨rfl, rfl⟩,
      (), _, ⟨length_le_div_entries fun e _ => ?_, rfl⟩, ?_⟩
    · have hkey := key_length_pos e.2.key
      simp only [BlockMapPage.level, if_true, length_blobBytes, minimumBlobRefBytes]
      omega
    · refine (readEntries_eq_ok fun _ _ _ => readBlob_eq_ok).2 ⟨entries, rfl, rfl, rfl, rfl, fun e he => ?_⟩
      obtain ⟨hblob, hlen, -⟩ := hentries e he
      obtain ⟨hkey, -, -, hstored⟩ := validateBlob_eq_ok.1 hblob
      exact ⟨(hslots e he).trans (by decide), hkey, hlen.trans_lt (by decide),
        hstored.trans_lt limits.maxObjectBytes_lt⟩
  | branch fileId level firstBlock entries =>
    obtain ⟨⟨hlevel, hne0, -, hdomain⟩, ⟨hne, hslots, hsorted⟩, hentries⟩ := validatePage_branch.1 h
    have hcount := length_le_fanout hslots hsorted
    have hpow : 0 < 2 ^ (7 * (level + 1)) := Nat.two_pow_pos _
    have hfirst : firstBlock < 256 ^ 8 := by unfold mapDomain at hdomain; omega
    have hbranch : ¬ (BlockMapPage.branch fileId level firstBlock entries).level = 0 := hne0
    refine ⟨_, _, rfl, level, _, ⟨rfl, hlevel.trans_lt (by decide)⟩, _, _, ⟨rfl, hfirst⟩, (), _, rfl, _, _,
      ⟨rfl, hcount.trans_lt (by decide)⟩, (), _, ⟨⟨by simpa using hne, hcount⟩, rfl⟩, _, _, ⟨rfl, rfl⟩,
      (), _, ⟨length_le_div_entries fun e _ => ?_, rfl⟩, ?_⟩
    · have hkey := key_length_pos e.2.key
      rw [if_neg hbranch, length_pageRefBytes]
      unfold minimumPageRefBytes
      omega
    · rw [if_neg hbranch]
      exact (readEntries_eq_ok fun _ _ _ => readPageRef_eq_ok).2 ⟨entries, rfl, rfl, rfl, rfl,
        fun e he => ⟨(hslots e he).trans (by decide), (hentries e he).1⟩⟩

theorem encodePage_eq_ok : encodePage crypto page limits = .ok bytes ↔
      validatePage crypto page limits = .ok () ∧
      envelopeHeaderLen + (pagePayload page).length ≤ limits.maxMapPageBytes ∧
      bytes = envelopeHeader crypto (.ifMapLevel page.level) (pagePayload page) ++
        pagePayload page := by
  simp only [encodePage, bind_eq_ok, mapErr_eq_ok, requireWithin_eq_ok, encodeEnvelope_eq_ok,
    exists_const, and_self_left]
  exact Unique.exists_iff

/-- **A page is read back as it was written.** -/
theorem decodePage_encodePage (h : encodePage crypto page limits = .ok bytes) :
    decodePage crypto bytes page.level limits = .ok page := by
  obtain ⟨hvalid, hlen, rfl⟩ := encodePage_eq_ok.1 h
  simp only [decodePage, bind_eq_ok, mapErr_eq_ok, requireWithin_eq_ok, ensure_eq_ok, pure_eq_ok,
    decodeEnvelope_eq_ok (maxMapPageBytes_lt limits)]
  exact ⟨(), by simpa using hlen, _, encodeEnvelope_eq_ok.2 ⟨hlen, rfl⟩, (page, []),
    readPage_pagePayload hvalid, (), hvalid, (), rfl, rfl⟩

end Storage

end W9pt

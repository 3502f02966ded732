import W9pt.Storage.Roundtrip

/-!
# Stored formats are canonical, up to one byte

By `Storage/Roundtrip.lean` a decoder accepts what the encoder writes for the value it returns, and
nothing else. There is one exception: `decode_block_map_page` reads the level byte of a page and drops it
where a leaf is expected (block_map.rs:537, 559-572), and a leaf page has level zero whatever it was read
from. A leaf is accepted with any level byte and re-encoded with zero (`formats_canonical_iff`,
`leaf_with_level_accepted`).
-/

namespace W9pt.Storage

open Lib

variable {bytes payload : Bytes} {crypto : Crypto} {limits : StorageLimits}

/-- The payload of a page with a level byte of its own. -/
def payloadAtLevel (level : Nat) (page : BlockMapPage) : Bytes :=
  page.fileId.asBytes ++ (leBytes 1 level ++ (leBytes 8 page.firstBlock ++
    (profileBytes ++ entriesBytes page)))

theorem pagePayload_eq (page : BlockMapPage) : pagePayload page = payloadAtLevel page.level page := rfl

/-- A page is read from its payload, but the level byte of a leaf is not looked at. -/
theorem readPage_eq_ok {expectedLevel : Nat} {rest : Bytes}
    {page : BlockMapPage} (h : readPage expectedLevel limits payload = .ok (page, rest)) :
    ∃ level < 256, payload = payloadAtLevel level page ∧ (expectedLevel ≠ 0 → level = page.level) := by
  simp only [readPage, Reader.u8, Reader.u16, Reader.u64, parserBind_eq_ok, readId_eq_ok, le_eq_ok,
    readProfile_eq_ok, check_eq_ok, remaining_eq_ok] at h
  obtain ⟨_, _, rfl, level, _, ⟨rfl, hlevel⟩, _, _, ⟨rfl, -⟩, _, _, rfl, _, _, ⟨rfl, -⟩, _, _, ⟨-, rfl⟩,
    _, _, ⟨-, rfl⟩, _, _, ⟨-, rfl⟩, h⟩ := h
  refine ⟨level, hlevel, ?_⟩
  split at h
  · rename_i hleaf
    obtain ⟨entries, rfl, -, rfl, rfl, -⟩ := (readEntries_eq_ok fun _ _ _ => readBlob_eq_ok).1 h
    exact ⟨rfl, fun hne => absurd hleaf hne⟩
  · obtain ⟨entries, rfl, -, rfl, rfl, -⟩ := (readEntries_eq_ok fun _ _ _ => readPageRef_eq_ok).1 h
    exact ⟨rfl, fun _ => rfl⟩

def levelOffset : Nat := envelopeHeaderLen + 16

theorem getElem?_levelOffset (crypto : Crypto) (kind : ObjectKind) (level : Nat) (page : BlockMapPage) :
    (envelopeHeader crypto kind (payloadAtLevel level page) ++ payloadAtLevel level page)[levelOffset]? =
      some (UInt8.ofNat level) := by
  rw [levelOffset, List.getElem?_append_right (by simp), length_envelopeHeader, Nat.add_sub_cancel_left,
    payloadAtLevel, List.getElem?_append_right (by simp [FixedId.asBytes])]
  simp [FixedId.asBytes, leBytes]

section

variable {expectedLevel : Nat} {page : BlockMapPage}
  (h : decodePage crypto bytes expectedLevel limits = .ok page)

include h

theorem decodePage_eq_ok :
    ∃ level < 256, bytes = envelopeHeader crypto (.ifMapLevel page.level) (payloadAtLevel level page) ++
        payloadAtLevel level page ∧ bytes.length ≤ limits.maxMapPageBytes ∧
      validatePage crypto page limits = .ok () ∧ page.level = expectedLevel ∧
      (expectedLevel ≠ 0 → level = page.level) := by
  simp only [decodePage, bind_eq_ok, mapErr_eq_ok, requireWithin_eq_ok, ensure_eq_ok, pure_eq_ok,
    decodeEnvelope_eq_ok (maxMapPageBytes_lt limits), encodeEnvelope_eq_ok] at h
  obtain ⟨_, hbound, payload, ⟨-, hbytes⟩, ⟨page', rest⟩, hread, _, hvalid, _, hlevel, rfl⟩ := h
  obtain ⟨level, hlt, rfl, hsame⟩ := readPage_eq_ok hread
  dsimp only at hlevel
  rw [← hlevel] at hbytes
  exact ⟨level, hlt, hbytes, hbound, hvalid, hlevel, hsame⟩

/-- **An accepted page re-encodes to the bytes it was read from exactly if it is a branch or its level
byte is zero.** -/
theorem encodePage_decodePage :
    encodePage crypto page limits = .ok bytes ↔ expectedLevel ≠ 0 ∨ bytes[levelOffset]? = some 0 := by
  obtain ⟨level, hlt, rfl, hbound, hvalid, hexpected, hsame⟩ := decodePage_eq_ok h
  rw [getElem?_levelOffset, encodePage_eq_ok, pagePayload_eq]
  constructor
  · rintro ⟨-, -, hbytes⟩
    have hlevelByte := getElem?_levelOffset crypto (.ifMapLevel page.level) level page
    rw [hbytes, getElem?_levelOffset] at hlevelByte
    by_cases hleaf : expectedLevel = 0
    · right
      rw [hexpected, hleaf] at hlevelByte
      exact hlevelByte.symm
    · exact .inl hleaf
  · intro hcanonical
    have hlevel : level = page.level := by
      rcases hcanonical with hbranch | hzero
      · exact hsame hbranch
      · by_cases hleaf : expectedLevel = 0
        · have hvalue := congrArg UInt8.toNat (Option.some.inj hzero)
          rw [UInt8.toNat_ofNat_of_lt' hlt] at hvalue
          rw [hexpected, hleaf]
          exact hvalue
        · exact hsame hleaf
    rw [hlevel, List.length_append, length_envelopeHeader] at hbound
    exact ⟨hvalid, hbound, by rw [hlevel]⟩

end

/-! ## All formats -/

/-- **The four formats.** An envelope, a head and a manifest are accepted exactly if they are what the
encoder writes. A page that was encoded is read back, and an accepted page is what the encoder writes
exactly if it is not a leaf or its level byte is zero. -/
theorem formats_canonical_iff (crypto : Crypto) (limits : StorageLimits) :
    (∀ (kind : ObjectKind) (payload bytes : Bytes) (maxObjectBytes : UInt64),
      encodeEnvelope crypto kind payload maxObjectBytes.toNat = .ok bytes ↔
        decodeEnvelope crypto kind bytes maxObjectBytes.toNat = .ok payload) ∧
    (∀ (head : FileHead) (bytes : Bytes),
      encodeHead crypto head limits = .ok bytes ↔ decodeHead crypto bytes limits = .ok head) ∧
    (∀ (manifest : FileManifest) (bytes : Bytes),
      encodeManifest crypto manifest limits = .ok bytes ↔
        decodeManifest crypto bytes limits = .ok manifest) ∧
    (∀ (page : BlockMapPage) (bytes : Bytes),
      encodePage crypto page limits = .ok bytes → decodePage crypto bytes page.level limits = .ok page) ∧
    (∀ (level : Nat) (page : BlockMapPage) (bytes : Bytes),
      decodePage crypto bytes level limits = .ok page →
        (encodePage crypto page limits = .ok bytes ↔ level ≠ 0 ∨ bytes[levelOffset]? = some 0)) :=
  ⟨fun _ _ _ maxObjectBytes => (decodeEnvelope_eq_ok maxObjectBytes.toNat_lt).symm,
    fun _ _ => decodeHead_eq_ok.symm, fun _ _ => decodeManifest_eq_ok.symm,
    fun _ _ => decodePage_encodePage, fun _ _ _ => encodePage_decodePage⟩

def sampleLeaf : BlockMapPage :=
  .leaf ⟨1⟩ 0 [(0, ⟨⟨[0x6b], by decide +kernel, by decide +kernel⟩, blockSize, 512, 9⟩)]

def sampleLeafBytes : Bytes :=
  envelopeHeader sampleCrypto .leafMap (payloadAtLevel 5 sampleLeaf) ++ payloadAtLevel 5 sampleLeaf

/-- A leaf page whose header says level 5 is accepted, as the leaf that is written with level 0. -/
theorem leaf_with_level_accepted :
    decodePage sampleCrypto sampleLeafBytes 0 .standard = .ok sampleLeaf ∧
      encodePage sampleCrypto sampleLeaf .standard ≠ .ok sampleLeafBytes := by
  decide +kernel

end W9pt.Storage

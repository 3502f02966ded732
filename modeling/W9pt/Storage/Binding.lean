import W9pt.Storage.KeyNames
import W9pt.Storage.Repository
import W9pt.Storage.Summary

/-!
# Objects are bound to their place

Stored bytes open only where they were sealed. A header that is accepted is the header of the kind and
the context that are expected (`readObjectHeader_eq_ok`), the key and the policy are part of what the
checksum or the cipher covers (`objectAad_inj`), and the body carries its own provenance
(`decodeObject_bound`). What identifies a context in all of this is its id and its policy: the file, the
commitment and the revision of the binding are not covered (`decodeObject_other_file`).

The references that the repository hands out carry the lengths of what it stored, and pass
`validate_blob` and `validate_page_ref` (`validateBlob_expectedPayload`,
`validatePageRef_expectedMapPage`).
-/

namespace W9pt.Storage

open Lib

/-! ## Headers -/

variable {kind kind' : ObjectKind}

theorem ObjectKind.code_inj (h : kind.code = kind'.code) : kind = kind' := by
  cases kind <;> cases kind' <;> first | rfl | cases h

theorem ContentCipher.tag_inj {cipher cipher' : ContentCipher} (h : cipher.tag = cipher'.tag) :
    cipher = cipher' := by
  cases cipher <;> cases cipher' <;> first | rfl | cases h

theorem FileStoragePolicy.toBytes_inj {policy policy' : FileStoragePolicy}
    (h : policy.toBytes = policy'.toBytes) : policy = policy' := by
  have hread := fromBytes_toBytes policy
  rw [h, fromBytes_toBytes] at hread
  exact (Except.ok.inj hread).symm

variable {context context' : FileCryptoContext}

theorem objectHeader_inj {length length' : Nat}
    (h : objectHeader kind context length = objectHeader kind' context' length') :
    kind = kind' ∧ context.policy.encryption = context'.policy.encryption ∧
      context.binding.contextId = context'.binding.contextId := by
  obtain ⟨-, h⟩ := List.append_inj h rfl
  obtain ⟨hkind, h⟩ := List.append_inj h (by simp)
  obtain ⟨-, h⟩ := List.append_inj h rfl
  obtain ⟨-, h⟩ := List.append_inj h rfl
  obtain ⟨hcipher, h⟩ := List.append_inj h rfl
  obtain ⟨hcontext, -⟩ := List.append_inj h (by simp)
  refine ⟨ObjectKind.code_inj ((leBytes_inj kind.code_lt kind'.code_lt).1 hkind),
    ContentCipher.tag_inj (List.cons.inj hcipher).1, ?_⟩
  have hbits := (beBytes_inj context.binding.contextId.bits.isLt
    context'.binding.contextId.bits.isLt).1 hcontext
  exact FixedId.rank_inj.1 hbits

variable {key key' : ObjectKey}

/-- The associated data determines the header, the key and the policy. -/
theorem objectAad_inj {header header' : Bytes} {policy policy' : FileStoragePolicy}
    (hheader : header.length = header'.length)
    (h : objectAad header key policy.toBytes = objectAad header' key' policy'.toBytes) :
    key = key' ∧ policy = policy' := by
  obtain ⟨-, h⟩ := List.append_inj h hheader
  obtain ⟨-, h⟩ := List.append_inj h (by simp)
  have hlength : key.text.length = key'.text.length := by
    simpa [FileStoragePolicy.toBytes_length] using congrArg List.length h
  obtain ⟨hkey, h⟩ := List.append_inj h hlength
  obtain ⟨-, h⟩ := List.append_inj h (by simp)
  obtain ⟨-, hpolicy⟩ := List.append_inj h (by simp)
  exact ⟨ObjectKey.ext hkey, FileStoragePolicy.toBytes_inj hpolicy⟩

/-! ## Bodies -/

/-- Two readers of a body differ in what they expect, not in what they read. -/
theorem agree_readBody (crypto : Crypto) (context context' : FileCryptoContext) (max max' : Nat) :
    Agree (readBody crypto context max) (readBody crypto context' max') := by
  refine .bind (.refl _) fun magic => .bind .lift fun _ => ?_
  refine .bind (.refl _) fun provenanceLen => .bind (.refl _) fun provenanceText => ?_
  refine .bind (.refl _) fun provenance => ?_
  refine .bind (.refl _) fun policyFormat => .bind (.refl _) fun policyLen => ?_
  refine .bind (.refl _) fun policy => .bind .lift fun _ => ?_
  refine .bind (.refl _) fun contextId => .bind .lift fun _ => ?_
  refine .bind (.refl _) fun codecByte => .bind (.refl _) fun codec => ?_
  refine .bind (.refl _) fun canonicalLen => .bind (.refl _) fun encodedLen => ?_
  exact .bind (.refl _) fun remaining => .bind .lift fun _ => .refl _

/-! ## Opening what was sealed -/

theorem digestBytes_inj {a b : Digest} (h : digestBytes a = digestBytes b) : a = b :=
  BitVec.eq_of_toNat_eq ((beBytes_inj a.isLt b.isLt).1 h)

/-- The associated data under which stored bytes are opened (representation/mod.rs:716). -/
def associatedData (stored : Bytes) (key : ObjectKey) (context : FileCryptoContext) : Bytes :=
  objectAad (stored.take outerHeaderBytes) key context.policy.toBytes

theorem derivationInput_inj {dek dek' : FileKey} {key key' : Bytes}
    (h : derivationInput [digestBytes dek, key] = derivationInput [digestBytes dek', key']) :
    dek = dek' ∧ key = key' := by
  simp only [derivationInput, List.flatMap_cons, List.flatMap_nil, List.append_nil,
    List.append_assoc] at h
  obtain ⟨-, h⟩ := List.append_inj h (by simp)
  obtain ⟨hdek, h⟩ := List.append_inj h (by simp)
  obtain ⟨-, hkey⟩ := List.append_inj h (by simp)
  exact ⟨digestBytes_inj hdek, hkey⟩

/-- The primitives keep two places of `stored` apart. BLAKE3 does not collide on the two checksummed
strings, nor its derivation on the inputs of the two object keys; and AES-SIV opens the ciphertext
under both only if its key and its associated data are the same. -/
structure Crypto.Separates (crypto : Crypto) (stored : Bytes) (key key' : ObjectKey)
    (context context' : FileCryptoContext) : Prop where
  checksum : Set.InjOn crypto.blake3
    {associatedData stored key context ++ stored.drop (outerHeaderBytes + 32),
      associatedData stored key' context' ++ stored.drop (outerHeaderBytes + 32)}
  derivation : ∀ dek dek', context.dek = some dek → context'.dek = some dek' →
    Set.InjOn (fun input => crypto.deriveKey objectKeyLabel input 512)
      {derivationInput [digestBytes dek, key.text], derivationInput [digestBytes dek', key'.text]}
  cipher : ∀ dek dek' body body', context.dek = some dek → context'.dek = some dek' →
    crypto.sivDecrypt (objectCipherKey crypto dek key.text) (associatedData stored key context)
      (stored.drop outerHeaderBytes) = some body →
    crypto.sivDecrypt (objectCipherKey crypto dek' key'.text) (associatedData stored key' context')
      (stored.drop outerHeaderBytes) = some body' →
    objectCipherKey crypto dek key.text = objectCipherKey crypto dek' key'.text ∧
      associatedData stored key context = associatedData stored key' context'

variable {crypto : Crypto} {stored : Bytes}

/-- What a successful decoding consists of. -/
theorem decodeObject_eq_ok {expected : ObjectKind} {maxCanonical : Nat} {decoded : DecodedObject}
    (h : decodeObject crypto expected key stored context maxCanonical = .ok decoded) :
    ∃ length body rest, stored.take outerHeaderBytes = objectHeader expected context length ∧
      openBody crypto context key (associatedData stored key context)
        (stored.drop outerHeaderBytes) = .ok body ∧
      readBody crypto context maxCanonical body = .ok (decoded, rest) := by
  simp only [decodeObject, bind_eq_ok, ensure_eq_ok, Prod.exists, pure_eq_ok] at h
  obtain ⟨_, -, length, protected', hheader, _, -, body, hopen, _, rest, hread, rfl⟩ := h
  obtain ⟨hstored, -⟩ := readObjectHeader_eq_ok.1 hheader
  have htake : stored.take outerHeaderBytes = objectHeader expected context length := by
    rw [hstored, List.take_left' (length_objectHeader ..)]
  have hdrop : stored.drop outerHeaderBytes = protected' := by
    rw [hstored, List.drop_left' (length_objectHeader ..)]
  refine ⟨length, body, rest, htake, ?_, hread⟩
  rw [hdrop]
  exact hopen

/-- Two openings of one object are under one key and one policy, and give one body. -/
theorem openBody_bound {body body' : Bytes}
    (separates : crypto.Separates stored key key' context context')
    (hcipher : context.policy.encryption = context'.policy.encryption)
    (h : openBody crypto context key (associatedData stored key context)
      (stored.drop outerHeaderBytes) = .ok body)
    (h' : openBody crypto context' key' (associatedData stored key' context')
      (stored.drop outerHeaderBytes) = .ok body') :
    key = key' ∧ context.policy = context'.policy ∧ body = body' ∧
      (context.policy.encryption.isEncrypted = true → context.dek = context'.dek) := by
  unfold openBody at h h'
  rw [← hcipher] at h'
  cases hkind : context.policy.encryption with
  | none =>
    simp only [hkind, bind_eq_ok, ensure_eq_ok, List.drop_drop, pure_eq_ok] at h h'
    obtain ⟨_, -, _, hsum, rfl⟩ := h
    obtain ⟨_, -, _, hsum', rfl⟩ := h'
    have hdigest := digestBytes_inj (hsum.symm.trans hsum')
    have hsame := separates.checksum (by simp) (by simp) hdigest
    obtain ⟨hkey, hpolicy⟩ := objectAad_inj rfl (List.append_cancel_right hsame)
    exact ⟨hkey, hpolicy, rfl, fun hencrypted => by simp [ContentCipher.isEncrypted] at hencrypted⟩
  | aes256SivV1 =>
    simp only [hkind, FileCryptoContext.fileKey, decrypt, bind_eq_ok, ensure_eq_ok, okOr_eq_ok] at h h'
    obtain ⟨dek, hdek, _, -, hopen⟩ := h
    obtain ⟨dek', hdek', _, -, hopen'⟩ := h'
    obtain ⟨hsiv, haad⟩ := separates.cipher dek dek' body body' hdek hdek' hopen hopen'
    -- the derived keys agree, and with them what they were derived from
    obtain ⟨rfl, -⟩ := derivationInput_inj
      (separates.derivation dek dek' hdek hdek' (by simp) (by simp) hsiv)
    obtain ⟨hkey, hpolicy⟩ := objectAad_inj rfl haad
    rw [hsiv, haad, hopen'] at hopen
    exact ⟨hkey, hpolicy, (Option.some.inj hopen).symm, fun _ => hdek.trans hdek'.symm⟩

variable {canonical : Bytes} {payloadCompression : Bool}

/-- **Objects open only where they were sealed**: with the kind, the key, the context id, the policy and
the file key they were encoded with. They then give the payload and the provenance they were encoded
with. -/
theorem decodeObject_bound (lawful : crypto.Lawful) {provenance : ObjectProvenance}
    {maxStored maxCanonical : Nat} {decoded : DecodedObject} (fits : provenance.Fits)
    (hstored : maxStored < 2 ^ 64) (separates : crypto.Separates stored key key' context context')
    (hencode : encodeObject crypto kind key canonical provenance context payloadCompression maxStored =
      .ok stored)
    (hdecode : decodeObject crypto kind' key' stored context' maxCanonical = .ok decoded) :
    kind = kind' ∧ key = key' ∧ context.binding.contextId = context'.binding.contextId ∧
      context.policy = context'.policy ∧
      (context.policy.encryption.isEncrypted = true → context.dek = context'.dek) ∧
      decoded = ⟨canonical, provenance⟩ := by
  have hown := decodeObject_encodeObject lawful fits hstored le_rfl hencode
  obtain ⟨length, body, rest, hheader, hopen, hread⟩ := decodeObject_eq_ok hown
  obtain ⟨length', body', rest', hheader', hopen', hread'⟩ := decodeObject_eq_ok hdecode
  obtain ⟨hkind, hcipher, hcontext⟩ := objectHeader_inj (hheader.symm.trans hheader')
  obtain ⟨hkey, hpolicy, rfl, hdek⟩ := openBody_bound separates hcipher hopen hopen'
  have hagree := agree_readBody crypto context context' canonical.length maxCanonical
  have hdecoded := hagree _ _ _ hread hread'
  exact ⟨hkind, hkey, hcontext, hpolicy, hdek, (congrArg Prod.fst hdecoded).symm⟩

/-! ## The lengths of references -/

theorem length_encodeObject (lawful : crypto.Lawful) {provenance : ObjectProvenance}
    {maxStored : Nat}
    (h : encodeObject crypto kind key canonical provenance context payloadCompression maxStored =
      .ok stored) :
    ∃ codec encoded, packed crypto context payloadCompression canonical = .ok (codec, encoded) ∧
      stored.length = outerHeaderBytes + (context.policy.encryption.protectionBytes +
        (bodyFixedBytes + provenance.encodedLen + encoded.length)) ∧
      stored.length ≤ maxStored := by
  obtain ⟨codec, encoded, body, hpacked, -, htotal, hprotect, rfl⟩ := encodeObject_eq_ok.1 h
  obtain ⟨hlength, -⟩ := openBody_protectBody lawful hprotect
  rw [length_objectBody] at hlength htotal
  refine ⟨codec, encoded, hpacked, ?_, ?_⟩
  · rw [List.length_append, length_objectHeader, hlength]
  · rw [List.length_append, length_objectHeader, hlength]
    exact htotal

theorem protectionBytes_ge (cipher : ContentCipher) : 16 ≤ cipher.protectionBytes := by
  cases cipher <;> decide

theorem encodedLen_ge (provenance : ObjectProvenance) : 93 ≤ provenance.encodedLen := by
  cases provenance <;> simp [ObjectProvenance.encodedLen]

/-- LZ4 blocks start with a token byte, so that none is empty. -/
def Crypto.NonemptyBlocks (crypto : Crypto) : Prop :=
  ∀ plaintext encoded, crypto.compress plaintext = some encoded → encoded ≠ []

theorem packed_ne_nil (blocks : crypto.NonemptyBlocks) {encoded : Bytes} {codec : ActualCodec}
    (hne : canonical ≠ [])
    (h : packed crypto context payloadCompression canonical = .ok (codec, encoded)) :
    encoded ≠ [] := by
  unfold packed at h
  split at h
  · cases hpolicy : context.policy.compression with
    | identity =>
      rw [hpolicy] at h
      cases h
      exact hne
    | lz4BlockV1 =>
      simp only [hpolicy, compress, bind_eq_ok, ensure_eq_ok, okOr_eq_ok] at h
      obtain ⟨_, -, packed, hpacked, h⟩ := h
      split at h
      · cases h
        exact blocks _ _ hpacked
      · cases h
        exact hne
  · cases h
    exact hne

section References

variable {E : Type} {repository : Repository} {context : FileCryptoContext}

/-- **The reference of a payload passes `validate_blob`** where its key is not too long to be written. -/
theorem validateBlob_expectedPayload (lawful : repository.crypto.Lawful)
    (blocks : repository.crypto.NonemptyBlocks) {key : ObjectKey} {provenance : ObjectProvenance}
    {plaintext : Bytes} {blob : BlobRef} (hne : plaintext ≠ [])
    (h : (repository.expectedPayload context key provenance plaintext : Except (StorageError E) _) =
      .ok blob) :
    validateBlob blob repository.limits = .ok () ↔
      checkedKeyLength key repository.limits = .ok () := by
  simp only [Repository.expectedPayload, bind_eq_ok, pure_eq_ok] at h
  obtain ⟨_, -, _, -, stored, hstored, rfl⟩ := h
  obtain ⟨codec, encoded, hpacked, hlength, hmax⟩ := length_encodeObject lawful
    (mapErr_eq_ok.1 hstored)
  have hencoded := List.length_pos_of_ne_nil (packed_ne_nil blocks hne hpacked)
  have hprotection := protectionBytes_ge context.policy.encryption
  have hprovenance := encodedLen_ge provenance
  have hminimum : payloadMinStoredBytes ≤ stored.length := by
    unfold payloadMinStoredBytes
    rw [hlength, outerHeaderBytes, bodyFixedBytes]
    omega
  rw [validateBlob_eq_ok]
  constructor
  · exact fun hblob => hblob.1
  · intro hkey
    exact ⟨hkey, (List.length_pos_of_ne_nil hne).ne', hminimum, hmax⟩

theorem minimumBlobRefBytes_le (blob : BlobRef) : minimumBlobRefBytes ≤ (blobBytes blob).length := by
  have hkey := key_length_pos blob.key
  rw [length_blobBytes]
  omega

theorem minimumPageRefBytes_le (reference : PageRef) :
    minimumPageRefBytes ≤ (pageRefBytes reference).length := by
  have hkey := key_length_pos reference.key
  rw [length_pageRefBytes]
  omega

theorem length_entries_ge {α : Type} {minimum : Nat} {encode : α → Bytes} {entries : List (Nat × α)}
    (hne : entries ≠ []) (h : ∀ e ∈ entries, minimum ≤ (encode e.2).length) :
    1 + minimum ≤ (entries.flatMap fun e => leBytes 1 e.1 ++ encode e.2).length := by
  have hcount := length_le_div_entries h
  have hpos := List.length_pos_of_ne_nil hne
  have hdiv := (Nat.le_div_iff_mul_le (by omega)).1 (hpos.trans_le hcount)
  simpa using hdiv

variable {page : BlockMapPage}

theorem minimumPageBytes_le {crypto : Crypto} {limits : StorageLimits}
    (h : validatePage crypto page limits = .ok ()) :
    minimumPageBytes page.level ≤ envelopeHeaderLen + (pagePayload page).length := by
  cases page with
  | leaf fileId firstBlock entries =>
    obtain ⟨-, ⟨hne, -, -⟩, -⟩ := validatePage_leaf.1 h
    have hentries := length_entries_ge hne fun e _ => minimumBlobRefBytes_le e.2
    simp only [minimumPageBytes, BlockMapPage.level, pagePayload, BlockMapPage.fileId,
      BlockMapPage.firstBlock, entriesBytes, List.length_append, length_asBytes, length_leBytes,
      profileBytes, pageHeaderBytes, if_true]
    omega
  | branch fileId level firstBlock entries =>
    obtain ⟨⟨-, hlevel, -⟩, ⟨hne, -, -⟩, -⟩ := validatePage_branch.1 h
    have hentries := length_entries_ge hne fun e _ => minimumPageRefBytes_le e.2
    simp only [minimumPageBytes, BlockMapPage.level, pagePayload, BlockMapPage.fileId,
      BlockMapPage.firstBlock, entriesBytes, List.length_append, length_asBytes, length_leBytes,
      profileBytes, pageHeaderBytes, hlevel, if_false]
    omega

/-- **The reference of a map page passes `validate_page_ref`** where its key is not too long to be
written and it maps at most the permitted number of blocks. -/
theorem validatePageRef_expectedMapPage (lawful : repository.crypto.Lawful)
    {identity : PreparationIdentity} {attempt : UInt32} {reference : PageRef} {stored : Bytes}
    (h : (repository.expectedMapPage context page identity attempt : Except (StorageError E) _) =
      .ok (reference, stored)) :
    validatePageRef reference repository.limits = .ok () ↔
      checkedKeyLength reference.key repository.limits = .ok () ∧
        reference.materializedBlockCount ≤ repository.limits.maxMaterializedBlocks := by
  simp only [Repository.expectedMapPage, bind_eq_ok, Prod.exists, pure_eq_ok, Prod.mk.injEq] at h
  obtain ⟨canonical, hcanonical, count, highest, hsummary, _, -, encoded, hencoded, rfl, rfl⟩ := h
  obtain ⟨hvalid, -, rfl⟩ := encodePage_eq_ok.1 (mapErr_eq_ok.1 hcanonical)
  have hsum := summary_summarizes hvalid (mapErr_eq_ok.1 hsummary)
  obtain ⟨codec, packed, hpacked, hlength, hmax⟩ := length_encodeObject lawful
    (mapErr_eq_ok.1 hencoded)
  cases hpacked
  have hprotection := protectionBytes_ge context.policy.encryption
  have hpage := minimumPageBytes_le hvalid
  have hminimum : minimumPageBytes page.level + mapPageMinOverhead ≤ encoded.length := by
    rw [hlength, List.length_append, length_envelopeHeader, outerHeaderBytes, bodyFixedBytes,
      ObjectProvenance.encodedLen, mapPageMinOverhead]
    omega
  rw [validatePageRef_eq_ok, PageRef.valid_iff]
  constructor
  · rintro ⟨hkey, -, -, -, hcount⟩
    exact ⟨hkey, hcount⟩
  · rintro ⟨hkey, hcount⟩
    exact ⟨hkey, hmax, hminimum, hsum, hcount⟩

theorem key_expectedMapPage {identity : PreparationIdentity} {attempt : UInt32}
    {reference : PageRef} {stored : Bytes}
    (h : (repository.expectedMapPage context page identity attempt : Except (StorageError E) _) =
      .ok (reference, stored)) :
    reference.key = repository.objectKey context page.fileId
      (.mapPage identity attempt page.level page.firstBlock) := by
  simp only [Repository.expectedMapPage, bind_eq_ok, Prod.exists, pure_eq_ok, Prod.mk.injEq] at h
  obtain ⟨_, -, _, _, -, _, -, _, -, rfl, -⟩ := h
  rfl

theorem length_objectKey_le (repository : Repository) (context : FileCryptoContext) (file : FileId)
    (provenance : ObjectProvenance) :
    (repository.objectKey context file provenance).text.length ≤ repository.limits.maxKeyBytes := by
  have hkey : ∀ components : List KeyComponent, components ≠ [] →
      (components.map fun c => c.text.length + 1).sum ≤ longestSuffixBytes →
      (repository.keys.key components).text.length ≤ repository.limits.maxKeyBytes := by
    intro components hne hlength
    rw [← repository.keys_bound]
    exact KeySpace.length_key_le hne hlength
  unfold Repository.objectKey
  split <;> split <;>
    exact hkey _ (by simp [KeySpace.token])
      (by simp [KeySpace.preparation, KeySpace.token, longestSuffixBytes])

theorem checkedKeyLength_objectKey (file : FileId) (provenance : ObjectProvenance) :
    checkedKeyLength (repository.objectKey context file provenance) repository.limits = .ok () ↔
      (repository.objectKey context file provenance).text.length < 2 ^ 32 := by
  have hlength := length_objectKey_le repository context file provenance
  simp [checkedKeyLength, bind_eq_ok, mapErr_eq_ok, requireWithin_eq_ok, ensure_eq_ok, hlength]

theorem requireWriterSupport_eq_ok {policy : FileStoragePolicy} :
    repository.requireWriterSupport policy = .ok () ↔
      (policy.compression = .lz4BlockV1 → repository.crypto.lz4 = true) ∧
        (policy.encryption = .aes256SivV1 → repository.crypto.aesSiv = true) := by
  simp [Repository.requireWriterSupport, bind_eq_ok, ensure_eq_ok]

/-- **Objects are bound to their place.** Whatever fits its limit is encoded under a policy that is
supported, and read back under the key, the context and the kind it was encoded with. What opens
elsewhere was encoded with the same kind, key, context id, policy and file key, and carries the
provenance it was encoded with. The references of stored objects pass `validate_blob` and
`validate_page_ref` as long as keys are shorter than 4 GiB and a page maps at most the permitted number
of blocks. -/
theorem objects_bound_to_place (repository : Repository) (lawful : repository.crypto.Lawful)
    (blocks : repository.crypto.NonemptyBlocks) :
    (∀ kind key canonical provenance context payloadCompression maxStored,
      repository.requireWriterSupport context.policy = .ok () →
      canonical.length ≤ wordMax →
      outerHeaderBytes + (context.policy.encryption.protectionBytes +
        (bodyFixedBytes + ObjectProvenance.encodedLen provenance + canonical.length)) ≤ maxStored →
      ∃ stored, encodeObject repository.crypto kind key canonical provenance context
        payloadCompression maxStored = .ok stored) ∧
    (∀ kind key canonical provenance context payloadCompression maxStored maxCanonical stored,
      ObjectProvenance.Fits provenance → maxStored < 2 ^ 64 → canonical.length ≤ maxCanonical →
      encodeObject repository.crypto kind key canonical provenance context payloadCompression
        maxStored = .ok stored →
      decodeObject repository.crypto kind key stored context maxCanonical =
        .ok ⟨canonical, provenance⟩) ∧
    (∀ kind kind' key key' canonical provenance context context' payloadCompression maxStored
        maxCanonical stored decoded,
      ObjectProvenance.Fits provenance → maxStored < 2 ^ 64 →
      encodeObject repository.crypto kind key canonical provenance context payloadCompression
        maxStored = .ok stored →
      repository.crypto.Separates stored key key' context context' →
      decodeObject repository.crypto kind' key' stored context' maxCanonical = .ok decoded →
      kind = kind' ∧ key = key' ∧ context.binding.contextId = context'.binding.contextId ∧
        context.policy = context'.policy ∧
        (context.policy.encryption.isEncrypted = true → context.dek = context'.dek) ∧
        decoded = ⟨canonical, provenance⟩) ∧
    (∀ context file provenance plaintext blob, plaintext ≠ [] →
      (repository.expectedPayload context (repository.objectKey context file provenance) provenance
        plaintext : Except (StorageError E) _) = .ok blob →
      (validateBlob blob repository.limits = .ok () ↔
        (repository.objectKey context file provenance).text.length < 2 ^ 32)) ∧
    (∀ context page identity attempt reference stored,
      (repository.expectedMapPage context page identity attempt : Except (StorageError E) _) =
        .ok (reference, stored) →
      (validatePageRef reference repository.limits = .ok () ↔
        reference.key.text.length < 2 ^ 32 ∧
          reference.materializedBlockCount ≤ repository.limits.maxMaterializedBlocks)) := by
  refine ⟨?_, ?_, ?_, ?_, ?_⟩
  · intro kind key canonical provenance context payloadCompression maxStored hsupport hword hroom
    obtain ⟨hlz4, hsiv⟩ := requireWriterSupport_eq_ok.1 hsupport
    exact encodeObject_ok lawful kind key payloadCompression hlz4 hsiv hword hroom
  · intro kind key canonical provenance context payloadCompression maxStored maxCanonical stored fits
      hmax hlength hencode
    exact decodeObject_encodeObject lawful fits hmax hlength hencode
  · intro kind kind' key key' canonical provenance context context' payloadCompression maxStored
      maxCanonical stored decoded fits hmax hencode separates hdecode
    exact decodeObject_bound lawful fits hmax separates hencode hdecode
  · intro context file provenance plaintext blob hne h
    rw [validateBlob_expectedPayload lawful blocks hne h, checkedKeyLength_objectKey]
  · intro context page identity attempt reference stored h
    rw [validatePageRef_expectedMapPage lawful h, key_expectedMapPage h, checkedKeyLength_objectKey]

end References

/-! ## What is not bound -/

def sampleContext : FileCryptoContext := .plainForFile ⟨1⟩ .raw

/-- The same for another file, at another revision. -/
def foreignContext : FileCryptoContext :=
  { sampleContext with
    binding := { sampleContext.binding with fileId := ⟨2⟩, contextRevision := 9 } }

def samplePlace : ObjectKey := ⟨ascii "k", by decide +kernel, by decide +kernel⟩

def sampleProvenance : ObjectProvenance := .rawPayload ⟨⟨3⟩, ⟨0, 0⟩, 5⟩ 0

def sampleStored : Bytes :=
  match encodeObject sampleCrypto .payload samplePlace [7] sampleProvenance sampleContext true 1000 with
  | .ok stored => stored
  | .error _ => []

/-- The file and the revision of a context take no part in decoding, for any primitives: what was
encoded for one file opens with the context of another, which its metadata opens. -/
theorem decodeObject_other_file :
    sampleContext.binding.fileId ≠ foreignContext.binding.fileId ∧
      (∀ crypto, openCommittedContext crypto ⟨⟨4⟩, ⟨5⟩, ⟨2⟩, ⟨1⟩⟩ 1 [1, 1, 0, 0] none none 9 none =
        .ok foreignContext) ∧
      (∀ crypto kind key stored maxCanonical,
        decodeObject crypto kind key stored foreignContext maxCanonical =
          decodeObject crypto kind key stored sampleContext maxCanonical) ∧
      encodeObject sampleCrypto .payload samplePlace [7] sampleProvenance sampleContext true 1000 =
        .ok sampleStored ∧
      decodeObject sampleCrypto .payload samplePlace sampleStored foreignContext 1000 =
        .ok ⟨[7], sampleProvenance⟩ :=
  ⟨by decide, fun _ => rfl, fun _ _ _ _ _ => rfl, by decide +kernel, by decide +kernel⟩

/-! ## A file that is compressed and encrypted -/

def sealedContext : FileCryptoContext where
  binding := ⟨⟨1⟩, ⟨1⟩, 1, [1, 1, 1, 1], some 6, 1⟩
  policy := ⟨.raw, .lz4BlockV1, .aes256SivV1⟩
  dek := some 9
  policy_bound := ⟨rfl, rfl⟩
  dek_present := rfl
  commitment_present := rfl

/-- The same at another revision. -/
def rewrappedContext : FileCryptoContext :=
  { sealedContext with binding := { sealedContext.binding with contextRevision := 2 } }

theorem sampleCrypto_separates (stored : Bytes) :
    sampleCrypto.Separates stored samplePlace samplePlace sealedContext rewrappedContext where
  checksum := by
    rw [show associatedData stored samplePlace rewrappedContext =
      associatedData stored samplePlace sealedContext from rfl, Set.pair_eq_singleton]
    exact Set.injOn_singleton _ _
  derivation dek dek' hdek hdek' := by
    cases hdek
    cases hdek'
    rw [Set.pair_eq_singleton]
    exact Set.injOn_singleton _ _
  cipher dek dek' body body' hdek hdek' _ _ := by
    cases hdek
    cases hdek'
    exact ⟨rfl, rfl⟩

theorem sampleCrypto_nonemptyBlocks : sampleCrypto.NonemptyBlocks := by
  intro plaintext encoded h
  simp only [sampleCrypto] at h
  split at h <;> cases h <;> simp

/-- A hundred bytes are stored in two, encrypted, and read back. -/
theorem objects_bound_to_place_sample :
    ∃ stored, encodeObject sampleRepository.crypto .payload samplePlace (.replicate 100 7)
        sampleProvenance sealedContext true 1000 = .ok stored ∧ stored.length = 232 ∧
      decodeObject sampleRepository.crypto .payload samplePlace stored sealedContext 1000 =
        .ok ⟨.replicate 100 7, sampleProvenance⟩ ∧
      decodeObject sampleRepository.crypto .payload samplePlace stored rewrappedContext 1000 =
        .ok ⟨.replicate 100 7, sampleProvenance⟩ ∧ sealedContext.dek = rewrappedContext.dek := by
  obtain ⟨hencodes, hread, hbound, -⟩ := objects_bound_to_place (E := Empty) sampleRepository
    sampleCrypto_lawful sampleCrypto_nonemptyBlocks
  have fits : sampleProvenance.Fits := trivial
  obtain ⟨stored, hencode⟩ := hencodes .payload samplePlace (.replicate 100 7) sampleProvenance
    sealedContext true 1000 (by decide) (by decide) (by decide)
  have hdecode : decodeObject sampleRepository.crypto .payload samplePlace stored sealedContext 1000 =
      .ok ⟨.replicate 100 7, sampleProvenance⟩ :=
    hread _ _ _ _ _ _ _ _ _ fits (by decide) (by decide) hencode
  have hbound := hbound _ _ _ _ _ _ _ _ _ _ _ _ _ fits (by decide) hencode
    (sampleCrypto_separates stored) hdecode
  refine ⟨stored, hencode, ?_, hdecode, hdecode, hbound.2.2.2.2.1 rfl⟩
  have hlength : (encodeObject sampleRepository.crypto .payload samplePlace (.replicate 100 7)
      sampleProvenance sealedContext true 1000).toOption.map List.length = some 232 := by
    decide +kernel
  rw [hencode] at hlength
  exact Option.some.inj hlength

end W9pt.Storage

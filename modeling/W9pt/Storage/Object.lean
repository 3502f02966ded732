import W9pt.Storage.Keys

/-!
# Stored objects (`representation/mod.rs`, `representation/compression.rs`, `encryption.rs`)

Canonical bytes are stored inside a body that records where they come from, under a header; the body is
followed by a checksum or encrypted. `encodeObject` and `decodeObject` are inverse to one another for
primitives that decode what they encoded (`Crypto.Lawful`, `decodeObject_encodeObject`).
-/

namespace W9pt.Storage

open Lib

/-! ## Where an object comes from -/

/-- Provenance authenticated inside an object (representation/mod.rs:364). -/
inductive ObjectProvenance where
  | manifest (identity : PreparationIdentity) (attempt : UInt32) (generation : UInt64)
  | rawPayload (identity : PreparationIdentity) (attempt : UInt32)
  | blockPayload (identity : PreparationIdentity) (attempt : UInt32) (blockIndex : Nat)
  | mapPage (identity : PreparationIdentity) (attempt : UInt32) (level firstBlock : Nat)
deriving DecidableEq

namespace ObjectProvenance

/-- representation/mod.rs:404. -/
def identityAttempt : ObjectProvenance → PreparationIdentity × UInt32
  | manifest identity attempt _ => (identity, attempt)
  | rawPayload identity attempt => (identity, attempt)
  | blockPayload identity attempt _ => (identity, attempt)
  | mapPage identity attempt _ _ => (identity, attempt)

/-- The tag of the provenance (`encode_provenance`). -/
def tag : ObjectProvenance → Nat
  | manifest .. => 1
  | rawPayload .. => 2
  | blockPayload .. => 3
  | mapPage .. => 4

/-- What follows the common fields (`encode_provenance`). -/
def suffix : ObjectProvenance → Bytes
  | manifest _ _ generation => leBytes 8 generation.toNat
  | rawPayload .. => []
  | blockPayload _ _ blockIndex => leBytes 8 blockIndex
  | mapPage _ _ level firstBlock => leBytes 1 level ++ leBytes 8 firstBlock

/-- The numbers fit their fields. -/
def Fits : ObjectProvenance → Prop
  | manifest .. => True
  | rawPayload .. => True
  | blockPayload _ _ blockIndex => blockIndex < 2 ^ 64
  | mapPage _ _ level firstBlock => level < 2 ^ 8 ∧ firstBlock < 2 ^ 64

/-- representation/mod.rs:419. -/
def encodedLen (provenance : ObjectProvenance) : Nat :=
  1 + 16 + 8 + 32 + 32 + 4 +
    match provenance with
    | manifest .. => 8
    | rawPayload .. => 0
    | blockPayload .. => 8
    | mapPage .. => 9

end ObjectProvenance

def identityBytes (identity : PreparationIdentity) (attempt : UInt32) : Bytes :=
  identity.mutationId.asBytes ++ (leBytes 8 identity.base.generation.toNat ++
    (digestBytes identity.base.manifestDigest ++ (digestBytes identity.fingerprint ++
      leBytes 4 attempt.toNat)))

/-- `encode_provenance` (representation/mod.rs:837). -/
def provenanceBytes (provenance : ObjectProvenance) : Bytes :=
  leBytes 1 provenance.tag ++
    (identityBytes provenance.identityAttempt.1 provenance.identityAttempt.2 ++ provenance.suffix)

abbrev ObjectReader := Parser RepresentationError

namespace ObjectReader

def le (width : Nat) : ObjectReader Nat := Parser.le width .invalidLength

/-- The common fields of a provenance (`decode_provenance`). -/
def identity : ObjectReader (PreparationIdentity × UInt32) := do
  let mutation ← Parser.be 16 .provenanceMismatch
  let generation ← Parser.le 8 .provenanceMismatch
  let digest ← Parser.be 32 .provenanceMismatch
  let fingerprint ← Parser.be 32 .provenanceMismatch
  let attempt ← Parser.le 4 .provenanceMismatch
  return (⟨⟨.ofNat 128 mutation⟩, ⟨UInt64.ofNat generation, .ofNat 256 digest⟩,
    .ofNat 256 fingerprint⟩, UInt32.ofNat attempt)

/-- `decode_provenance` (representation/mod.rs:872). -/
def provenance : ObjectReader ObjectProvenance := do
  let tag ← Parser.le 1 .provenanceMismatch
  let (identity, attempt) ← identity
  let remaining ← Parser.remaining
  if tag = 1 ∧ remaining = 8 then
    return .manifest identity attempt (UInt64.ofNat (← Parser.le 8 .provenanceMismatch))
  else if tag = 2 ∧ remaining = 0 then return .rawPayload identity attempt
  else if tag = 3 ∧ remaining = 8 then
    return .blockPayload identity attempt (← Parser.le 8 .provenanceMismatch)
  else if tag = 4 ∧ remaining = 9 then do
    let level ← Parser.le 1 .provenanceMismatch
    return .mapPage identity attempt level (← Parser.le 8 .provenanceMismatch)
  else Parser.lift (.error .provenanceMismatch)

end ObjectReader

/-! ## Working memory -/

/-- Checked sum of `usize` values (representation/mod.rs:493). -/
def checkedSum (values : List Nat) : Except RepresentationError Nat :=
  if values.sum ≤ wordMax then .ok values.sum else .error .invalidLength

/-- compression.rs:18. -/
def maximumEncodeCapacity (crypto : Crypto) (policy : CompressionPolicy) (plaintextLen : Nat) :
    Except RepresentationError Nat :=
  match policy with
  | .identity => .ok plaintextLen
  | .lz4BlockV1 =>
    if crypto.lz4 then .ok (crypto.maximumOutputSize plaintextLen) else .error .unsupportedCompression

/-- representation/mod.rs:23. -/
def outerHeaderBytes : Nat := 8 + 1 + 2 + 2 + 1 + 16 + 8

/-- representation/mod.rs:26. -/
def bodyFixedBytes : Nat := 83

/-- representation/mod.rs:27. -/
def aadFixedBytes : Nat := outerHeaderBytes + 8 + 2 + 2 + 4

/-- The checksum or the authentication tag before a body (representation/mod.rs:24). -/
def ContentCipher.protectionBytes : ContentCipher → Nat
  | .none => 32
  | .aes256SivV1 => 16

/-- `OBJECT_KEY_BYTES` where the content is encrypted (representation/mod.rs:28). -/
def ContentCipher.objectKeyBytes : ContentCipher → Nat
  | .none => 0
  | .aes256SivV1 => 64

/-- What the codec may need (`encode_working_bytes`). -/
def codecCapacity (crypto : Crypto) (context : FileCryptoContext) (payloadCompression : Bool)
    (canonicalLen : Nat) : Except RepresentationError Nat :=
  if payloadCompression then maximumEncodeCapacity crypto context.policy.compression canonicalLen
  else .ok canonicalLen

/-- representation/mod.rs:429. -/
def encodeWorkingBytes (crypto : Crypto) (canonicalLen : Nat) (key : ObjectKey)
    (provenance : ObjectProvenance) (context : FileCryptoContext) (payloadCompression : Bool) :
    Except RepresentationError Nat := do
  let codecCapacity ← codecCapacity crypto context payloadCompression canonicalLen
  let bodyLen ← checkedSum [bodyFixedBytes, provenance.encodedLen, canonicalLen]
  let protectedLen ← checkedSum [context.policy.encryption.protectionBytes, bodyLen]
  let finalLen ← checkedSum [outerHeaderBytes, protectedLen]
  let aadLen ← checkedSum [aadFixedBytes, key.text.length]
  checkedSum [codecCapacity, provenance.encodedLen, bodyLen, aadLen, protectedLen, finalLen,
    context.policy.encryption.objectKeyBytes]

/-- representation/mod.rs:476. -/
def decodeWorkingBytes (canonicalLen storedLen : Nat) (key : ObjectKey)
    (context : FileCryptoContext) : Except RepresentationError Nat := do
  let aadLen ← checkedSum [aadFixedBytes, key.text.length]
  checkedSum [storedLen, storedLen, canonicalLen, aadLen, context.policy.encryption.objectKeyBytes]

/-! ## Compression and encryption -/

/-- Codec recorded inside a body (representation/mod.rs:355). -/
inductive ActualCodec where
  | identity | lz4BlockV1

/-- The byte of a codec (representation/mod.rs:610). -/
def ActualCodec.code : ActualCodec → Nat
  | .identity => 0
  | .lz4BlockV1 => 1

/-- `encode` (compression.rs:8): compressed only where it saves at least 64 bytes. -/
def compress (crypto : Crypto) (policy : CompressionPolicy) (plaintext : Bytes) :
    Except RepresentationError (ActualCodec × Bytes) :=
  match policy with
  | .identity => .ok (.identity, plaintext)
  | .lz4BlockV1 => do
    ensure (crypto.lz4 = true) .unsupportedCompression
    let encoded ← okOr (crypto.compress plaintext) .codecFailure
    if encoded.length + 64 ≤ plaintext.length then return (.lz4BlockV1, encoded)
    else return (.identity, plaintext)

/-- `decode` (compression.rs:57). -/
def decompress (crypto : Crypto) (codec : ActualCodec) (encoded : Bytes) (expectedLen : Nat) :
    Except RepresentationError Bytes :=
  match codec with
  | .identity => do
    ensure (encoded.length = expectedLen) .invalidLength
    return encoded
  | .lz4BlockV1 => do
    ensure (crypto.lz4 = true) .unsupportedCompression
    let plaintext ← okOr (crypto.decompress encoded expectedLen) .codecFailure
    ensure (plaintext.length = expectedLen) .invalidLength
    return plaintext

/-- `dek` (representation/mod.rs:307). -/
def FileCryptoContext.fileKey (context : FileCryptoContext) : Except RepresentationError FileKey :=
  okOr context.dek .missingFileKey

/-- The label of object keys (encryption.rs:44). -/
def objectKeyLabel : String := "w9pt v3 per-object AES-256-SIV key"

/-- The AES-256-SIV key of one object (encryption.rs:43). -/
def objectCipherKey (crypto : Crypto) (dek : FileKey) (objectKey : Bytes) : BitVec 512 :=
  crypto.derive 512 objectKeyLabel [digestBytes dek, objectKey]

/-- encryption.rs:17. -/
def encrypt (crypto : Crypto) (dek : FileKey) (objectKey aad plaintext : Bytes) :
    Except RepresentationError Bytes := do
  ensure (crypto.aesSiv = true) .unsupportedCipher
  okOr (crypto.sivEncrypt (objectCipherKey crypto dek objectKey) aad plaintext) .authenticationFailed

/-- encryption.rs:26. -/
def decrypt (crypto : Crypto) (dek : FileKey) (objectKey aad ciphertext : Bytes) :
    Except RepresentationError Bytes := do
  ensure (crypto.aesSiv = true) .unsupportedCipher
  okOr (crypto.sivDecrypt (objectCipherKey crypto dek objectKey) aad ciphertext) .authenticationFailed

/-- representation/mod.rs:318. -/
def FileCryptoContext.preparationToken (crypto : Crypto) (context : FileCryptoContext)
    (identity : PreparationIdentity) (attempt : UInt32) : Digest :=
  let material := context.binding.fileId.asBytes ++ (context.binding.contextId.asBytes ++
    (identityBytes identity attempt ++ context.policy.toBytes))
  match context.dek with
  | some dek =>
    crypto.derive 256 "w9pt v3 protected preparation token" [digestBytes dek, material]
  | none => crypto.derive 256 "w9pt v3 plain preparation token" [material]

/-! ## File keys -/

/-- Master key of the deployment (file_keys.rs:40). -/
structure MasterKey where
  id : Bytes
  bytes : Bytes

/-- Who a file context belongs to (file_keys.rs:82). -/
structure FileContextScope where
  filesystemId : FilesystemId
  ownerInodeId : InodeId
  fileId : FileId
  contextId : ContentContextId

/-- file_keys.rs:262. -/
def FileContextScope.commitment (crypto : Crypto) (scope : FileContextScope) (dek : FileKey)
    (policy : Bytes) : Digest :=
  crypto.derive 256 "w9pt v3 file DEK commitment" [digestBytes dek, scope.filesystemId.asBytes,
    scope.fileId.asBytes, scope.ownerInodeId.asBytes, scope.contextId.asBytes, policy]

/-- file_keys.rs:276. -/
def FileContextScope.wrapAad (scope : FileContextScope) (masterId policy : Bytes)
    (commitment : Digest) : Bytes :=
  masterId ++ (scope.filesystemId.asBytes ++ (scope.ownerInodeId.asBytes ++ (scope.fileId.asBytes ++
    (scope.contextId.asBytes ++ (leBytes 2 (min policy.length 65535) ++ (policy ++
      digestBytes commitment))))))

/-- `unwrap_dek` (file_keys.rs:324): 28 bytes of header and 48 of ciphertext. -/
def unwrapDek (crypto : Crypto) (master : MasterKey) (wrapped : Bytes) (scope : FileContextScope)
    (policy : Bytes) (expected : Digest) : Except RepresentationError FileKey := do
  ensure (wrapped.length = 76 ∧ wrapped.take 8 = [0x57, 0x39, 0x50, 0x54, 0x4b, 0x45, 0x59, 0])
    .invalidWrappedKey
  ensure (leValue ((wrapped.drop 8).take 2) = 1) .unsupportedWrappedKey
  ensure ((wrapped.drop 10).take 16 = master.id) .wrongMaster
  ensure (leValue ((wrapped.drop 26).take 2) = 48) .invalidWrappedKey
  ensure (crypto.aesSiv = true) .unsupportedCipher
  let plaintext ← okOr (crypto.sivDecrypt
    (crypto.derive 512 "w9pt v3 master KEK wrapping key" [master.bytes, master.id])
    (scope.wrapAad master.id policy expected) (wrapped.drop 28)) .authenticationFailed
  ensure (plaintext.length = 32) .invalidWrappedKey
  let dek := .ofNat 256 (beValue plaintext)
  ensure (scope.commitment crypto dek policy = expected) .commitmentMismatch
  return dek

/-- representation/mod.rs:232. -/
def ContentContextBinding.new (binding : ContentContextBinding) : Except RepresentationError Unit :=
  ensure (binding.policyFormat ≠ 0 ∧ binding.policyBytes ≠ [] ∧ binding.policyBytes.length ≤ 512)
    .invalidPolicy

/-- file_keys.rs:207. -/
def openCommittedContext (crypto : Crypto) (scope : FileContextScope) (policyFormat : UInt16)
    (policyBytes : Bytes) (keyCommitment : Option Digest) (wrappedKeyBytes : Option Bytes)
    (contextRevision : UInt64) (master : Option MasterKey) :
    Except RepresentationError FileCryptoContext :=
  match h : FileStoragePolicy.fromBytes policyFormat policyBytes with
  | .error error => .error error
  | .ok policy => do
    let binding :=
      ⟨scope.fileId, scope.contextId, policyFormat, policyBytes, keyCommitment, contextRevision⟩
    ContentContextBinding.new binding
    if hc : policy.encryption.isEncrypted = true then do
      let master ← okOr master .missingMaster
      match keyCommitment with
      | none => .error .contextMismatch
      | some expected => do
        let wrapped ← okOr wrappedKeyBytes .contextMismatch
        let dek ← unwrapDek crypto master wrapped scope policyBytes expected
        return ⟨{ binding with keyCommitment := some expected }, policy, some dek,
          FileStoragePolicy.fromBytes_eq_ok h, hc.symm, hc.symm⟩
    else if hn : keyCommitment = none ∧ wrappedKeyBytes = none then
      return ⟨binding, policy, none, FileStoragePolicy.fromBytes_eq_ok h,
        (Bool.eq_false_of_not_eq_true hc).symm,
        (congrArg Option.isSome hn.1).trans (Bool.eq_false_of_not_eq_true hc).symm⟩
    else .error .contextMismatch

/-! ## Encoding -/

/-- `W9PTREP\0` (representation/mod.rs:19). -/
def objectMagic : Bytes := [0x57, 0x39, 0x50, 0x54, 0x52, 0x45, 0x50, 0x00]

/-- `W9PTBODY` (representation/mod.rs:20). -/
def bodyMagic : Bytes := [0x57, 0x39, 0x50, 0x54, 0x42, 0x4f, 0x44, 0x59]

/-- The body of an object (`encode_object`). -/
def objectBody (crypto : Crypto) (canonical : Bytes) (provenance : ObjectProvenance)
    (context : FileCryptoContext) (codec : ActualCodec) (encoded : Bytes) : Bytes :=
  bodyMagic ++ (leBytes 2 (provenanceBytes provenance).length ++ (provenanceBytes provenance ++
    (leBytes 2 FileStoragePolicy.format.toNat ++ (leBytes 2 context.policy.toBytes.length ++
      (context.policy.toBytes ++ (context.binding.contextId.asBytes ++ (leBytes 1 codec.code ++
        (leBytes 8 canonical.length ++ (leBytes 8 encoded.length ++
          (digestBytes (crypto.blake3 canonical) ++ encoded))))))))))

/-- The header of an object (`encode_object`). -/
def objectHeader (kind : ObjectKind) (context : FileCryptoContext) (protectedLen : Nat) : Bytes :=
  objectMagic ++ (leBytes 1 kind.code ++ (leBytes 2 3 ++ (leBytes 2 0 ++
    ([context.policy.encryption.tag] ++ (context.binding.contextId.asBytes ++
      leBytes 8 protectedLen)))))

/-- representation/mod.rs:813. -/
def objectAad (header : Bytes) (key : ObjectKey) (policy : Bytes) : Bytes :=
  header ++ (leBytes 8 key.text.length ++ (key.text ++
    (leBytes 2 FileStoragePolicy.format.toNat ++ (leBytes 2 policy.length ++ policy))))

/-- The body with its checksum, or encrypted (`encode_object`). -/
def protectBody (crypto : Crypto) (context : FileCryptoContext) (key : ObjectKey) (aad body : Bytes) :
    Except RepresentationError Bytes :=
  match context.policy.encryption with
  | .none => .ok (digestBytes (crypto.blake3 (aad ++ body)) ++ body)
  | .aes256SivV1 => do
    let dek ← context.fileKey
    encrypt crypto dek key.text aad body

/-- The codec and the bytes that are stored (`encode_object`). -/
def packed (crypto : Crypto) (context : FileCryptoContext) (payloadCompression : Bool)
    (canonical : Bytes) : Except RepresentationError (ActualCodec × Bytes) :=
  if payloadCompression then compress crypto context.policy.compression canonical
  else .ok (.identity, canonical)

/-- `encode_object` (representation/mod.rs:576). The other length conversions cannot fail: a
provenance and a policy are short, and what is encoded is not longer than `canonical`. -/
def encodeObject (crypto : Crypto) (kind : ObjectKind) (key : ObjectKey) (canonical : Bytes)
    (provenance : ObjectProvenance) (context : FileCryptoContext) (payloadCompression : Bool)
    (maxStored : Nat) : Except RepresentationError Bytes := do
  let (codec, encoded) ← packed crypto context payloadCompression canonical
  ensure (canonical.length ≤ wordMax) .invalidLength
  let body := objectBody crypto canonical provenance context codec encoded
  let protectedLen := context.policy.encryption.protectionBytes + body.length
  ensure (outerHeaderBytes + protectedLen ≤ maxStored) .invalidLength
  let header := objectHeader kind context protectedLen
  let stored ← protectBody crypto context key
    (objectAad header key context.policy.toBytes) body
  return header ++ stored

/-! ## Decoding -/

/-- Canonical bytes and where they come from (representation/mod.rs:503). -/
structure DecodedObject where
  canonical : Bytes
  provenance : ObjectProvenance
deriving DecidableEq

/-- The reads of `decode_body`. -/
def readBody (crypto : Crypto) (context : FileCryptoContext) (maxCanonical : Nat) :
    ObjectReader DecodedObject := do
  let magic ← Parser.take 8 .invalidLength
  Parser.lift (ensure (magic = bodyMagic) .provenanceMismatch)
  let provenanceLen ← ObjectReader.le 2
  let provenanceText ← Parser.take provenanceLen .invalidLength
  let (provenance, _) ← Parser.lift (ObjectReader.provenance provenanceText)
  let policyFormat ← ObjectReader.le 2
  let policyLen ← ObjectReader.le 2
  let policy ← Parser.take policyLen .invalidLength
  Parser.lift (ensure (policyFormat = context.binding.policyFormat.toNat ∧
    policy = context.binding.policyBytes) .contextMismatch)
  let contextId ← Parser.take 16 .invalidLength
  Parser.lift (ensure (contextId = context.binding.contextId.asBytes) .contextMismatch)
  let codecByte ← ObjectReader.le 1
  let codec ← Parser.lift (if codecByte = 0 then .ok .identity
    else if codecByte = 1 then .ok .lz4BlockV1 else .error .unsupportedCompression)
  let canonicalLen ← ObjectReader.le 8
  let encodedLen ← ObjectReader.le 8
  let remaining ← Parser.remaining
  Parser.lift (ensure (canonicalLen ≤ maxCanonical ∧ 32 ≤ remaining) .invalidLength)
  let digest ← Parser.be 32 .invalidLength
  let encoded ← Parser.take encodedLen .invalidLength
  Parser.finish .invalidLength
  let canonical ← Parser.lift (decompress crypto codec encoded canonicalLen)
  Parser.lift (ensure (digest = (crypto.blake3 canonical).toNat) .authenticationFailed)
  return ⟨canonical, provenance⟩

/-- The body behind a checksum or an authentication tag (`decode_object`). -/
def openBody (crypto : Crypto) (context : FileCryptoContext) (key : ObjectKey) (aad stored : Bytes) :
    Except RepresentationError Bytes :=
  match context.policy.encryption with
  | .none => do
    ensure (32 ≤ stored.length) .invalidLength
    ensure (stored.take 32 = digestBytes (crypto.blake3 (aad ++ stored.drop 32)))
      .authenticationFailed
    return stored.drop 32
  | .aes256SivV1 => do
    let dek ← context.fileKey
    decrypt crypto dek key.text aad stored

/-- The header checks of `decode_object`, up to the length of what
follows the header. -/
def readObjectHeader (expected : ObjectKind) (context : FileCryptoContext) : ObjectReader Nat := do
  let magic ← Parser.take 8 .invalidLength
  Parser.lift (ensure (magic = objectMagic) .unsupportedPolicy)
  let kind ← ObjectReader.le 1
  Parser.lift (ensure (kind = expected.code) .provenanceMismatch)
  let major ← ObjectReader.le 2
  let minor ← ObjectReader.le 2
  Parser.lift (ensure (major = 3 ∧ minor = 0) .unsupportedPolicy)
  let cipher ← ObjectReader.le 1
  Parser.lift (ensure (cipher = 0 ∨ cipher = 1) .unsupportedCipher)
  let contextId ← Parser.take 16 .invalidLength
  Parser.lift (ensure (cipher = context.policy.encryption.tag.toNat ∧
    contextId = context.binding.contextId.asBytes) .contextMismatch)
  ObjectReader.le 8

/-- representation/mod.rs:673. -/
def decodeObject (crypto : Crypto) (expected : ObjectKind) (key : ObjectKey) (stored : Bytes)
    (context : FileCryptoContext) (maxCanonical : Nat) : Except RepresentationError DecodedObject := do
  ensure (outerHeaderBytes ≤ stored.length) .invalidLength
  let (bodyLen, rest) ← readObjectHeader expected context stored
  ensure (stored.length = outerHeaderBytes + bodyLen) .invalidLength
  let body ← openBody crypto context key
    (objectAad (stored.take outerHeaderBytes) key context.policy.toBytes) rest
  let (decoded, _) ← readBody crypto context maxCanonical body
  return decoded

/-! ## Objects are read back -/

/-- Decoding undoes encoding: LZ4 and AES-SIV accept every input and do what they are for, and the
synthetic tag takes 16 bytes. -/
structure Crypto.Lawful (crypto : Crypto) : Prop where
  compress : ∀ plaintext, (crypto.compress plaintext).isSome = true
  decompress : ∀ {plaintext encoded : Bytes}, crypto.compress plaintext = some encoded →
    crypto.decompress encoded plaintext.length = some plaintext
  encrypt : ∀ key aad plaintext, (crypto.sivEncrypt key aad plaintext).isSome = true
  decrypt : ∀ {key : BitVec 512} {aad plaintext ciphertext : Bytes},
    crypto.sivEncrypt key aad plaintext = some ciphertext →
    crypto.sivDecrypt key aad ciphertext = some plaintext
  length_encrypt : ∀ {key : BitVec 512} {aad plaintext ciphertext : Bytes},
    crypto.sivEncrypt key aad plaintext = some ciphertext →
    ciphertext.length = 16 + plaintext.length

theorem sampleCrypto_lawful : sampleCrypto.Lawful where
  compress plaintext := by
    simp only [sampleCrypto]
    split <;> rfl
  decompress {plaintext encoded} h := by
    simp only [sampleCrypto] at h ⊢
    split at h
    · rename_i hconstant
      cases h
      exact congrArg some hconstant.symm
    · cases h
      rfl
  encrypt _ _ _ := rfl
  decrypt {key aad plaintext ciphertext} h := by
    cases h
    simp [sampleCrypto, Function.comp_def]
  length_encrypt h := by
    cases h
    simp

theorem length_identityBytes (identity : PreparationIdentity) (attempt : UInt32) :
    (identityBytes identity attempt).length = 92 := by
  simp [identityBytes]

theorem length_provenanceBytes (provenance : ObjectProvenance) :
    (provenanceBytes provenance).length = provenance.encodedLen := by
  cases provenance <;>
    simp [provenanceBytes, length_identityBytes, ObjectProvenance.suffix,
      ObjectProvenance.encodedLen]

theorem encodedLen_le (provenance : ObjectProvenance) : provenance.encodedLen ≤ 102 := by
  cases provenance <;> simp [ObjectProvenance.encodedLen]

variable {crypto : Crypto}

variable {encoded : Bytes} {codec : ActualCodec}

/-- What is stored of the canonical bytes is not longer than they are, and gives them back. -/
theorem decompress_compress (lawful : crypto.Lawful) {policy : CompressionPolicy}
    {plaintext : Bytes} (h : compress crypto policy plaintext = .ok (codec, encoded)) :
    encoded.length ≤ plaintext.length ∧
      decompress crypto codec encoded plaintext.length = .ok plaintext := by
  have hidentity : decompress crypto .identity plaintext plaintext.length = .ok plaintext := by
    rw [decompress, ensure_of rfl]
    rfl
  cases policy with
  | identity =>
    cases h
    exact ⟨le_rfl, hidentity⟩
  | lz4BlockV1 =>
    simp only [compress, bind_eq_ok, ensure_eq_ok, okOr_eq_ok] at h
    obtain ⟨_, hlz4, packed, hpacked, h⟩ := h
    split at h
    · rename_i hsaves
      cases h
      refine ⟨by omega, ?_⟩
      rw [decompress, ensure_of hlz4, lawful.decompress hpacked]
      show (do ensure (plaintext.length = plaintext.length) _; pure plaintext) = _
      rw [ensure_of rfl]
      rfl
    · cases h
      exact ⟨le_rfl, hidentity⟩

theorem readIdentity_identityBytes (identity : PreparationIdentity) (attempt : UInt32) (rest : Bytes) :
    ObjectReader.identity (identityBytes identity attempt ++ rest) = .ok ((identity, attempt), rest) := by
  simp only [ObjectReader.identity, parserBind_eq_ok, be_eq_ok, le_eq_ok, parserPure_eq_ok,
    identityBytes, List.append_assoc]
  exact ⟨_, _, ⟨rfl, identity.mutationId.bits.isLt⟩, _, _, ⟨rfl, identity.base.generation.toNat_lt⟩, _, _,
    ⟨rfl, identity.base.manifestDigest.isLt⟩, _, _, ⟨rfl, identity.fingerprint.isLt⟩, _, _,
    ⟨rfl, attempt.toNat_lt⟩, by simp, rfl⟩

variable {provenance : ObjectProvenance}

theorem readProvenance_provenanceBytes (fits : provenance.Fits) :
    ObjectReader.provenance (provenanceBytes provenance) = .ok (provenance, []) := by
  have htag : provenance.tag < 256 ^ 1 := by cases provenance <;> simp [ObjectProvenance.tag]
  have hlast : ∀ width value, leBytes width value = leBytes width value ++ [] :=
    fun _ _ => (List.append_nil _).symm
  refine parserBind_eq_ok.2 ⟨_, _, le_eq_ok.2 ⟨rfl, htag⟩, parserBind_eq_ok.2 ⟨_, _,
    readIdentity_identityBytes _ _ _, parserBind_eq_ok.2 ⟨_, _, rfl, ?_⟩⟩⟩
  cases provenance with
  | manifest identity attempt generation =>
    refine parserBind_eq_ok.2 ⟨_, [], le_eq_ok.2 ⟨hlast 8 generation.toNat, generation.toNat_lt⟩, ?_⟩
    rw [UInt64.ofNat_toNat]
    rfl
  | rawPayload identity attempt => rfl
  | blockPayload identity attempt blockIndex =>
    exact parserBind_eq_ok.2 ⟨_, [], le_eq_ok.2 ⟨hlast 8 blockIndex, fits⟩, rfl⟩
  | mapPage identity attempt level firstBlock =>
    exact parserBind_eq_ok.2 ⟨_, _, le_eq_ok.2 ⟨rfl, fits.1⟩,
      parserBind_eq_ok.2 ⟨_, [], le_eq_ok.2 ⟨hlast 8 firstBlock, fits.2⟩, rfl⟩⟩

variable {context : FileCryptoContext} {canonical : Bytes} {payloadCompression : Bool}

theorem decompress_packed (lawful : crypto.Lawful)
    (h : packed crypto context payloadCompression canonical = .ok (codec, encoded)) :
    encoded.length ≤ canonical.length ∧
      decompress crypto codec encoded canonical.length = .ok canonical := by
  unfold packed at h
  split at h
  · exact decompress_compress lawful h
  · cases h
    refine ⟨le_rfl, ?_⟩
    rw [decompress, ensure_of rfl]
    rfl

theorem length_objectBody (crypto : Crypto) (canonical : Bytes) (provenance : ObjectProvenance)
    (context : FileCryptoContext) (codec : ActualCodec) (encoded : Bytes) :
    (objectBody crypto canonical provenance context codec encoded).length =
      bodyFixedBytes + provenance.encodedLen + encoded.length := by
  simp [objectBody, bodyMagic, bodyFixedBytes, length_provenanceBytes,
    FileStoragePolicy.toBytes_length]
  omega

theorem readBody_objectBody {maxCanonical : Nat} (fits : provenance.Fits)
    (hword : canonical.length < 2 ^ 64) (hmax : canonical.length ≤ maxCanonical)
    (hshort : encoded.length ≤ canonical.length)
    (hdecode : decompress crypto codec encoded canonical.length = .ok canonical) :
    readBody crypto context maxCanonical
      (objectBody crypto canonical provenance context codec encoded) =
        .ok (⟨canonical, provenance⟩, []) := by
  have hlength : (provenanceBytes provenance).length < 256 ^ 2 := by
    rw [length_provenanceBytes]
    exact (encodedLen_le provenance).trans_lt (by decide)
  have hpolicy : context.policy.toBytes.length < 256 ^ 2 := by
    rw [FileStoragePolicy.toBytes_length]
    decide
  have hcodec : codec.code < 256 ^ 1 := by cases codec <;> decide
  simp only [readBody, ObjectReader.le, parserBind_eq_ok, take_eq_ok, le_eq_ok, be_eq_ok,
    parserLift_eq_ok, ensure_eq_ok, remaining_eq_ok, finish_eq_ok, parserPure_eq_ok]
  refine ⟨_, _, ⟨rfl, rfl⟩, (), _, ⟨rfl, rfl⟩, _, _, ⟨rfl, hlength⟩, _, _, ⟨rfl, rfl⟩, _, _,
    ⟨readProvenance_provenanceBytes fits, rfl⟩, _, _, ⟨rfl, by decide⟩, _, _, ⟨rfl, hpolicy⟩, _, _,
    ⟨rfl, rfl⟩, (), _, ⟨?_, rfl⟩, _, _, ⟨rfl, length_asBytes _⟩, (), _, ⟨rfl, rfl⟩, _, _, ⟨rfl, hcodec⟩,
    codec, _, ⟨by cases codec <;> rfl, rfl⟩, _, _, ⟨rfl, hword⟩, _, _, ⟨rfl, hshort.trans_lt hword⟩, _, _,
    ⟨rfl, rfl⟩, (), _, ⟨⟨hmax, by simp⟩, rfl⟩, _, _, ⟨rfl, (crypto.blake3 canonical).isLt⟩, _, [],
    ⟨(List.append_nil _).symm, rfl⟩, (), [], ⟨rfl, rfl⟩, _, _, ⟨hdecode, rfl⟩, (), _, ⟨rfl, rfl⟩, rfl, rfl⟩
  rw [context.policy_bound.1, context.policy_bound.2]
  exact ⟨rfl, rfl⟩

theorem length_objectHeader (kind : ObjectKind) (context : FileCryptoContext) (protectedLen : Nat) :
    (objectHeader kind context protectedLen).length = outerHeaderBytes := by
  simp [objectHeader, objectMagic, outerHeaderBytes]

variable {kind : ObjectKind}

/-- A header is accepted exactly where its kind and its context are expected. -/
theorem readObjectHeader_eq_ok {s rest : Bytes} {length : Nat} :
    readObjectHeader kind context s = .ok (length, rest) ↔
      s = objectHeader kind context length ++ rest ∧ length < 2 ^ 64 := by
  have hcipher : [context.policy.encryption.tag] = leBytes 1 context.policy.encryption.tag.toNat := by
    cases context.policy.encryption <;> rfl
  simp only [readObjectHeader, ObjectReader.le, parserBind_eq_ok, parserLift_eq_ok, take_eq_ok, le_eq_ok,
    ensure_eq_ok, objectHeader, hcipher, List.append_assoc]
  constructor
  · rintro ⟨_, _, ⟨rfl, -⟩, _, _, ⟨rfl, rfl⟩, _, _, ⟨rfl, -⟩, _, _, ⟨rfl, rfl⟩, _, _, ⟨rfl, -⟩, _, _,
      ⟨rfl, -⟩, _, _, ⟨⟨rfl, rfl⟩, rfl⟩, _, _, ⟨rfl, -⟩, _, _, ⟨-, rfl⟩, _, _, ⟨rfl, -⟩, _, _,
      ⟨⟨rfl, rfl⟩, rfl⟩, rfl, hlt⟩
    exact ⟨rfl, hlt⟩
  · rintro ⟨rfl, hlt⟩
    refine ⟨_, _, ⟨rfl, rfl⟩, (), _, ⟨rfl, rfl⟩, _, _, ⟨rfl, kind.code_lt⟩, (), _, ⟨rfl, rfl⟩, _, _,
      ⟨rfl, by decide⟩, _, _, ⟨rfl, by decide⟩, (), _, ⟨⟨rfl, rfl⟩, rfl⟩, _, _,
      ⟨rfl, context.policy.encryption.tag.toNat_lt⟩, (), _, ⟨?_, rfl⟩, _, _, ⟨rfl, length_asBytes _⟩, (), _,
      ⟨⟨rfl, rfl⟩, rfl⟩, rfl, hlt⟩
    cases context.policy.encryption
    · exact .inl rfl
    · exact .inr rfl

variable {key : ObjectKey} {stored : Bytes}

theorem openBody_protectBody (lawful : crypto.Lawful) {aad body : Bytes}
    (h : protectBody crypto context key aad body = .ok stored) :
    stored.length = context.policy.encryption.protectionBytes + body.length ∧
      openBody crypto context key aad stored = .ok body := by
  unfold protectBody at h
  unfold openBody
  cases hcipher : context.policy.encryption with
  | none =>
    simp only [hcipher] at h ⊢
    cases h
    have hdrop : (digestBytes (crypto.blake3 (aad ++ body)) ++ body).drop 32 = body :=
      List.drop_left' (length_digestBytes _)
    refine ⟨by simp [ContentCipher.protectionBytes], ?_⟩
    rw [ensure_of (by simp), ok_bind, hdrop, List.take_left' (length_digestBytes _), ensure_of rfl]
    rfl
  | aes256SivV1 =>
    simp only [hcipher, encrypt, decrypt, bind_eq_ok, ensure_eq_ok, okOr_eq_ok] at h ⊢
    obtain ⟨dek, hdek, _, haes, hstored⟩ := h
    exact ⟨lawful.length_encrypt hstored, dek, hdek, (), haes, lawful.decrypt hstored⟩

variable {maxStored : Nat}

/-- What a successful encoding consists of. -/
theorem encodeObject_eq_ok :
    encodeObject crypto kind key canonical provenance context payloadCompression maxStored =
        .ok stored ↔
      ∃ codec encoded protected',
        packed crypto context payloadCompression canonical = .ok (codec, encoded) ∧
        canonical.length ≤ wordMax ∧
        outerHeaderBytes + (context.policy.encryption.protectionBytes +
          (objectBody crypto canonical provenance context codec encoded).length) ≤ maxStored ∧
        protectBody crypto context key
          (objectAad (objectHeader kind context (context.policy.encryption.protectionBytes +
            (objectBody crypto canonical provenance context codec encoded).length)) key
            context.policy.toBytes)
          (objectBody crypto canonical provenance context codec encoded) = .ok protected' ∧
        stored = objectHeader kind context (context.policy.encryption.protectionBytes +
          (objectBody crypto canonical provenance context codec encoded).length) ++ protected' := by
  simp only [encodeObject, bind_eq_ok, ensure_eq_ok, pure_eq_ok, Prod.exists]
  constructor
  · rintro ⟨codec, encoded, hpacked, _, hword, _, hmax, protected', hprotect, rfl⟩
    exact ⟨codec, encoded, protected', hpacked, hword, hmax, hprotect, rfl⟩
  · rintro ⟨codec, encoded, protected', hpacked, hword, hmax, hprotect, rfl⟩
    exact ⟨codec, encoded, hpacked, (), hword, (), hmax, protected', hprotect, rfl⟩

/-- **Whatever fits is encoded**, where the primitives of the policy are compiled in. -/
theorem encodeObject_ok (lawful : crypto.Lawful) (kind : ObjectKind) (key : ObjectKey)
    (payloadCompression : Bool)
    (hlz4 : context.policy.compression = .lz4BlockV1 → crypto.lz4 = true)
    (hsiv : context.policy.encryption = .aes256SivV1 → crypto.aesSiv = true)
    (hword : canonical.length ≤ wordMax)
    (hroom : outerHeaderBytes + (context.policy.encryption.protectionBytes +
      (bodyFixedBytes + provenance.encodedLen + canonical.length)) ≤ maxStored) :
    ∃ stored, encodeObject crypto kind key canonical provenance context payloadCompression maxStored =
      .ok stored := by
  have hpacked : ∃ codec encoded,
      packed crypto context payloadCompression canonical = .ok (codec, encoded) := by
    obtain ⟨compressed, hcompressed⟩ := Option.isSome_iff_exists.1 (lawful.compress canonical)
    unfold packed compress
    split
    · cases hpolicy : context.policy.compression with
      | identity => exact ⟨_, _, rfl⟩
      | lz4BlockV1 =>
        simp only [ensure_of (hlz4 hpolicy), hcompressed, okOr, ok_bind]
        split <;> exact ⟨_, _, rfl⟩
    · exact ⟨_, _, rfl⟩
  obtain ⟨codec, encoded, hpacked⟩ := hpacked
  obtain ⟨hshort, -⟩ := decompress_packed lawful hpacked
  have hprotect : ∀ aad body, ∃ stored, protectBody crypto context key aad body = .ok stored := by
    intro aad body
    unfold protectBody
    cases hcipher : context.policy.encryption with
    | none => exact ⟨_, rfl⟩
    | aes256SivV1 =>
      obtain ⟨dek, hdek⟩ := Option.isSome_iff_exists.1
        (context.dek_present.trans (by rw [hcipher]; rfl))
      obtain ⟨sealed, hsealed⟩ := Option.isSome_iff_exists.1
        (lawful.encrypt (objectCipherKey crypto dek key.text) aad body)
      simp only [FileCryptoContext.fileKey, hdek, okOr, ok_bind, encrypt, ensure_of (hsiv hcipher),
        hsealed]
      exact ⟨_, rfl⟩
  obtain ⟨stored, hstored⟩ := hprotect _ _
  exact ⟨_, encodeObject_eq_ok.2 ⟨codec, encoded, stored, hpacked, hword,
    by rw [length_objectBody]; omega, hstored, rfl⟩⟩

/-- **An object is read back as it was encoded**, with the provenance it was given. -/
theorem decodeObject_encodeObject (lawful : crypto.Lawful) {maxCanonical : Nat}
    (fits : provenance.Fits) (hstored : maxStored < 2 ^ 64) (hmax : canonical.length ≤ maxCanonical)
    (h : encodeObject crypto kind key canonical provenance context payloadCompression maxStored =
      .ok stored) :
    decodeObject crypto kind key stored context maxCanonical = .ok ⟨canonical, provenance⟩ := by
  obtain ⟨codec, encoded, body, hpacked, hword, htotal, hprotect, rfl⟩ := encodeObject_eq_ok.1 h
  obtain ⟨hshort, hdecode⟩ := decompress_packed lawful hpacked
  obtain ⟨hlength, hopen⟩ := openBody_protectBody lawful hprotect
  simp only [decodeObject, bind_eq_ok, ensure_eq_ok, Prod.exists, readObjectHeader_eq_ok, pure_eq_ok]
  refine ⟨(), by simp [length_objectHeader], _, body, ⟨rfl, by omega⟩, (),
    by simp [length_objectHeader, hlength], _, ?_, _, _,
    readBody_objectBody fits (by unfold wordMax at hword; omega) hmax hshort hdecode, rfl⟩
  rwa [List.take_left' (length_objectHeader ..)]

end W9pt.Storage

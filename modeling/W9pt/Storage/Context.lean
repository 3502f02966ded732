import W9pt.Storage.Content

/-!
# Storage failures and file contexts (`error.rs`, `limits.rs:236-330`, `representation/`)

A file's objects are stored under a context: the persisted policy (layout, compression, cipher) and,
for an encrypted file, the data key.

The cryptographic primitives are not part of the repository; `Crypto` collects what the code asks
of them. How their keys are derived (`encryption.rs`, `file_keys.rs`) is modelled.
-/

namespace W9pt.Storage

open Lib

/-! ## Errors -/

/-- error.rs:9. -/
inductive PreparationError where
  | mutationMismatch | baseMismatch | keyMismatch | fingerprintMismatch | unchangedPublication
deriving DecidableEq

/-- error.rs:42. -/
inductive RangeError where
  | endOverflow (offset length : UInt64)
  | lengthConversion
  | invalidOrder (start finish : UInt64)
deriving DecidableEq

/-- error.rs:79. -/
inductive FormatError where
  | truncated | trailingData | invalidMagic
  | unexpectedKind (expected actual : UInt8)
  | unsupportedVersion (major minor : UInt16)
  | unknownTag (field : String) (tag : UInt64)
  | nonCanonical (field : String)
  | inconsistentLength (field : String)
  | arithmeticOverflow (field : String)
deriving DecidableEq

/-- error.rs:151. -/
inductive CorruptionError where
  | checksumMismatch | digestMismatch
  | identityMismatch (field : String)
  | invalidLength (field : String) (expected actual : UInt64)
  | immutableCollision | nonZeroPadding | foreignKey | invalidKeySchema
deriving DecidableEq

/-- representation/mod.rs:510. -/
inductive RepresentationError where
  | invalidPolicy | unsupportedPolicy | unsupportedCompression | unsupportedCipher | codecFailure
  | invalidLength | authenticationFailed | missingContext | missingMaster | missingFileKey
  | wrongMaster | contextMismatch | commitmentMismatch | invalidWrappedKey | unsupportedWrappedKey
  | wrappingFailed | provenanceMismatch
deriving DecidableEq

/-- limits.rs:242. -/
inductive ConfigurationError where
  | zero (field : String)
  | inconsistent (field other : String)
  | invalidPrefix (reason : String)
  | missingTargetGuarantee (guarantee : String)
  | tooLarge (field : String) (maximum : UInt64)
deriving DecidableEq

/-- limits.rs:298. -/
inductive LimitKind where
  | rawFile | manifest | object | materializedBlocks | mapPage | mapPageReads | mapPageWrites
  | mapWorkingBytes | representationWorkingBytes | read | write | key
deriving DecidableEq

/-- limits.rs:327. -/
structure LimitError where
  kind : LimitKind
  actual : UInt64
  limit : UInt64
deriving DecidableEq

/-- error.rs:214. -/
inductive TargetOperation where
  | get | getRange | putIfAbsent | compareExchange
deriving DecidableEq

/-- error.rs:227. -/
structure TargetError (E : Type) where
  operation : TargetOperation
  key : ObjectKey
  source : E
deriving DecidableEq

/-- error.rs:269. -/
inductive AmbiguousOperation where
  | immutableCreation | headPublication
deriving DecidableEq

/-- error.rs:308. -/
inductive MissingObjectKind where
  | head | manifest | mappingPage | payload
deriving DecidableEq

/-- Failure of a repository operation over a target whose own errors are `E` (error.rs:321). -/
inductive StorageError (E : Type) where
  | configuration (error : ConfigurationError)
  | range (error : RangeError)
  | format (error : FormatError)
  | corruption (error : CorruptionError)
  | target (error : TargetError E)
  | conflict (conflicts : UInt32)
  | ambiguous (operation : AmbiguousOperation) (key : ObjectKey)
  | limit (error : LimitError)
  | preparation (error : PreparationError)
  | representation (error : RepresentationError)
  | missing (kind : MissingObjectKind) (key : ObjectKey)
deriving DecidableEq

/-! ## Policies -/

/-- representation/mod.rs:71. -/
inductive CompressionPolicy where
  | identity | lz4BlockV1
deriving DecidableEq

/-- representation/mod.rs:80. -/
inductive ContentCipher where
  | none | aes256SivV1
deriving DecidableEq

/-- The policy byte of a layout (representation/mod.rs:141). -/
def StorageMethod.tag : StorageMethod → UInt8
  | .raw => 1
  | .blockSplit => 2

/-- The policy byte of a codec (representation/mod.rs:145). -/
def CompressionPolicy.tag : CompressionPolicy → UInt8
  | .identity => 0
  | .lz4BlockV1 => 1

/-- The policy byte of a cipher (representation/mod.rs:149). -/
def ContentCipher.tag : ContentCipher → UInt8
  | .none => 0
  | .aes256SivV1 => 1

/-- representation/mod.rs:89. -/
def ContentCipher.isEncrypted : ContentCipher → Bool
  | .none => false
  | .aes256SivV1 => true

/-- Layout, compression and cipher of one file (representation/mod.rs:96). -/
structure FileStoragePolicy where
  method : StorageMethod
  compression : CompressionPolicy
  encryption : ContentCipher

namespace FileStoragePolicy

/-- representation/mod.rs:104. -/
def format : UInt16 := 1

/-- representation/mod.rs:120. -/
def plain (method : StorageMethod) : FileStoragePolicy := ⟨method, .identity, .none⟩

/-- representation/mod.rs:138. -/
def toBytes (policy : FileStoragePolicy) : Bytes :=
  [1, policy.method.tag, policy.compression.tag, policy.encryption.tag]

def methodOf (byte : UInt8) : Except RepresentationError StorageMethod :=
  if byte = 1 then .ok .raw else if byte = 2 then .ok .blockSplit else .error .unsupportedPolicy

def compressionOf (byte : UInt8) : Except RepresentationError CompressionPolicy :=
  if byte = 0 then .ok .identity else if byte = 1 then .ok .lz4BlockV1
  else .error .unsupportedCompression

def cipherOf (byte : UInt8) : Except RepresentationError ContentCipher :=
  if byte = 0 then .ok .none else if byte = 1 then .ok .aes256SivV1 else .error .unsupportedCipher

/-- representation/mod.rs:157. -/
def fromBytes (policyFormat : UInt16) (bytes : Bytes) :
    Except RepresentationError FileStoragePolicy :=
  match bytes with
  | [version, method, compression, cipher] => do
    ensure (policyFormat = format ∧ version = 1) .unsupportedPolicy
    let method ← methodOf method
    let compression ← compressionOf compression
    let encryption ← cipherOf cipher
    return ⟨method, compression, encryption⟩
  | _ => .error .unsupportedPolicy

theorem toBytes_length (policy : FileStoragePolicy) : policy.toBytes.length = 4 := rfl

theorem fromBytes_toBytes (policy : FileStoragePolicy) :
    fromBytes format policy.toBytes = .ok policy := by
  obtain ⟨method, compression, encryption⟩ := policy
  cases method <;> cases compression <;> cases encryption <;> rfl

theorem fromBytes_eq_ok {policyFormat : UInt16} {bytes : Bytes} {policy : FileStoragePolicy}
    (h : fromBytes policyFormat bytes = .ok policy) :
    policyFormat = format ∧ bytes = policy.toBytes := by
  unfold fromBytes at h
  split at h
  · rename_i version method compression cipher
    simp only [bind_eq_ok, ensure_eq_ok, methodOf, compressionOf, cipherOf, pure_eq_ok] at h
    obtain ⟨_, ⟨rfl, rfl⟩, m, hm, c, hc, e, he, rfl⟩ := h
    refine ⟨rfl, ?_⟩
    have hmethod : m.tag = method := by
      split_ifs at hm with h1 h2 <;> cases hm <;> simp_all [StorageMethod.tag]
    have hcompression : c.tag = compression := by
      split_ifs at hc with h1 h2 <;> cases hc <;> simp_all [CompressionPolicy.tag]
    have hcipher : e.tag = cipher := by
      split_ifs at he with h1 h2 <;> cases he <;> simp_all [ContentCipher.tag]
    simp [toBytes, hmethod, hcompression, hcipher]
  · cases h

end FileStoragePolicy

/-! ## Contexts -/

abbrev FileKey := BitVec 256

/-- Opened context of one file (representation/mod.rs:280). Its constructor is private to the module:
the binding carries the policy's own bytes, and exactly an encrypted file has a key and a commitment
to it. -/
structure FileCryptoContext where
  binding : ContentContextBinding
  policy : FileStoragePolicy
  dek : Option FileKey
  policy_bound : binding.policyFormat = FileStoragePolicy.format ∧
    binding.policyBytes = policy.toBytes
  dek_present : dek.isSome = policy.encryption.isEncrypted
  commitment_present : binding.keyCommitment.isSome = policy.encryption.isEncrypted

/-- What the code asks of the cryptographic libraries: BLAKE3, the first bits of its output under a
derivation label, the LZ4 block format, and AES-256-SIV. The two flags are the cargo features
`compression-lz4` and `encryption-aes-siv`. -/
structure Crypto where
  blake3 : Bytes → Digest
  deriveKey : (label : String) → (material : Bytes) → (bits : Nat) → BitVec bits
  lz4 : Bool
  compress : Bytes → Option Bytes
  maximumOutputSize : Nat → Nat
  decompress : Bytes → Nat → Option Bytes
  aesSiv : Bool
  sivEncrypt : (key : BitVec 512) → (aad plaintext : Bytes) → Option Bytes
  sivDecrypt : (key : BitVec 512) → (aad ciphertext : Bytes) → Option Bytes

/-- Libraries to evaluate with. The digest is the number in the first bytes; a constant block is
compressed to its byte; a ciphertext is masked with a byte of the key, behind a tag. -/
def sampleCrypto : Crypto where
  blake3 := fun bytes => .ofNat 256 (leValue (bytes.take 32))
  deriveKey := fun _ material bits => .ofNat bits (leValue material)
  lz4 := true
  compress := fun plaintext =>
    if plaintext = .replicate plaintext.length (plaintext.headD 0) then some [0, plaintext.headD 0]
    else some (1 :: plaintext)
  maximumOutputSize := (· + 2)
  decompress := fun encoded length =>
    match encoded with
    | [0, byte] => some (.replicate length byte)
    | 1 :: plaintext => some plaintext
    | _ => none
  aesSiv := true
  sivEncrypt := fun key aad plaintext => some (leBytes 16 (key.toNat + leValue aad) ++
    plaintext.map (· ^^^ UInt8.ofNat key.toNat))
  sivDecrypt := fun key aad ciphertext =>
    if ciphertext.take 16 = leBytes 16 (key.toNat + leValue aad) then
      some ((ciphertext.drop 16).map (· ^^^ UInt8.ofNat key.toNat))
    else none

/-- What `derive` hashes: every part behind its length. -/
def derivationInput (parts : List Bytes) : Bytes :=
  parts.flatMap fun part => leBytes 8 part.length ++ part

/-- encryption.rs:6. -/
def Crypto.derive (crypto : Crypto) (bits : Nat) (label : String) (parts : List Bytes) : BitVec bits :=
  crypto.deriveKey label (derivationInput parts) bits

/-- `implicit_plain_context` (file_keys.rs:420): the context of the standalone helpers. -/
def FileCryptoContext.plainForFile (file : FileId) (method : StorageMethod) : FileCryptoContext where
  binding := ⟨file, ⟨file.bits⟩, FileStoragePolicy.format,
    (FileStoragePolicy.plain method).toBytes, none, 0⟩
  policy := FileStoragePolicy.plain method
  dek := none
  policy_bound := ⟨rfl, rfl⟩
  dek_present := rfl
  commitment_present := rfl

end W9pt.Storage

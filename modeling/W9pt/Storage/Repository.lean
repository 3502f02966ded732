import W9pt.Storage.Target

/-!
# Immutable objects of a repository (`repository.rs`)

Everything but the publication of heads reaches the target in two ways: `get_required_bounded` loads an
object that must be there, `put_immutable` stores an object that is never changed. The code above them is
a program over these two operations (`ObjectQuery`), and `Repository.serve` is their own code, down to
the calls of the target.
-/

namespace W9pt.Storage

open Lib

variable {E α : Type}

/-! ## Errors of the layers below -/

/-- `StorageError::from` of a format failure (error.rs:378). -/
def StorageError.ofPersistent : PersistentFormatError → StorageError E
  | .format error => .format error
  | .corruption error => .corruption error
  | .limit error => .limit error

/-- `.map_err(StorageError::from)?` on a format result. -/
def fromPersistent (x : Except PersistentFormatError α) : Except (StorageError E) α :=
  mapErr .ofPersistent x

/-- `?` on a representation result. -/
def fromRepresentation (x : Except RepresentationError α) : Except (StorageError E) α :=
  mapErr .representation x

/-- `?` on a corruption check. -/
def fromCorruption (x : Except CorruptionError α) : Except (StorageError E) α := mapErr .corruption x

/-- `?` on a limit check. -/
def fromLimit (x : Except LimitError α) : Except (StorageError E) α := mapErr .limit x

/-- `?` on a format computation. -/
def fromFormat (x : Except FormatError α) : Except (StorageError E) α := mapErr .format x

/-- `.checked_add(..).ok_or(ArithmeticOverflow)`. -/
def addWord (a b : Nat) (field : String) : Except FormatError Nat := do
  ensure (a + b < 2 ^ 64) (.arithmeticOverflow field)
  return a + b

/-! ## The target's guarantees -/

/-- manifest.rs:169. -/
def FileManifest.validateContentRef (manifest : FileManifest) (content : ContentRef) :
    Except CorruptionError Unit := do
  ensure (manifest.fileId = content.fileId) (.identityMismatch "file")
  ensure (manifest.generation = content.generation) (.identityMismatch "generation")
  ensure (manifest.logicalSize = content.logicalSize) (.identityMismatch "logical size")
  ensure (manifest.method = content.method) (.identityMismatch "storage method")

/-! ## Repositories -/

/-- A repository without its target (repository.rs:22); its key space was made with its limits. -/
structure Repository where
  crypto : Crypto
  keys : KeySpace
  defaults : StorageMethod
  limits : StorageLimits
  keys_bound : keys.maxKeyBytes = limits.maxKeyBytes

/-! ## Loading and storing objects -/

inductive ObjectQuery where
  | load (key : ObjectKey) (kind : MissingObjectKind) (maxBytes : Nat)
  | store (key : ObjectKey) (bytes : Bytes) (kind : MissingObjectKind)

def ObjectAnswer : ObjectQuery → Type
  | .load .. => Bytes
  | .store .. => Unit

abbrev ObjectProg (E α : Type) := Prog ObjectQuery ObjectAnswer (StorageError E) α

def getObject (key : ObjectKey) (maxBytes : Nat) : TargetProg E (Except E (Option TargetObject)) :=
  Prog.query (TargetQuery.get key maxBytes)

def putObject (key : ObjectKey) (bytes : Bytes) : TargetProg E (Except E PutIfAbsent) :=
  Prog.query (TargetQuery.putIfAbsent key bytes)

def loadObject (key : ObjectKey) (kind : MissingObjectKind) (maxBytes : Nat) : ObjectProg E Bytes :=
  Prog.query (ObjectQuery.load key kind maxBytes)

def storeObject (key : ObjectKey) (bytes : Bytes) (kind : MissingObjectKind) : ObjectProg E Unit :=
  Prog.query (ObjectQuery.store key bytes kind)

namespace Repository

variable (repository : Repository)

/-- The bound on an object by its kind (`get_required`). -/
def maxBytesOf : MissingObjectKind → Nat
  | .manifest => repository.limits.maxManifestBytes
  | .mappingPage => repository.limits.maxMapPageBytes
  | .head | .payload => repository.limits.maxObjectBytes

/-- repository.rs:1053. -/
def getRequiredBounded (key : ObjectKey) (kind : MissingObjectKind) (maxBytes : Nat) :
    TargetProg E Bytes := do
  match ← getObject key maxBytes with
  | .error source => .fail (.target ⟨.get, key, source⟩)
  | .ok none => .fail (.missing kind key)
  | .ok (some object) => do
    Prog.lift (fromLimit
      (requireWithin .object object.bytes.length repository.limits.maxObjectBytes))
    return object.bytes

/-- The bound on the object that an existing key is compared with (`put_immutable`). -/
def existingBound (kind : MissingObjectKind) (bytes : Bytes) : Nat :=
  if kind = .mappingPage then bytes.length else repository.maxBytesOf kind

/-- repository.rs:1019. -/
def resolveAmbiguousImmutable (key : ObjectKey) (desired : Bytes) (kind : MissingObjectKind) :
    TargetProg E Unit := do
  match ← getObject key (repository.existingBound kind desired) with
  | .ok (some object) =>
    if object.bytes = desired then return () else .fail (.corruption .immutableCollision)
  | .ok none | .error _ => .fail (.ambiguous .immutableCreation key)

/-- repository.rs:984. -/
def putImmutable (key : ObjectKey) (bytes : Bytes) (kind : MissingObjectKind) : TargetProg E Unit := do
  match ← putObject key bytes with
  | .error source => .fail (.target ⟨.putIfAbsent, key, source⟩)
  | .ok (.created _) => return ()
  | .ok (.alreadyExists _) => do
    let existing ← repository.getRequiredBounded key kind (repository.existingBound kind bytes)
    if existing = bytes then return () else .fail (.corruption .immutableCollision)
  | .ok .ambiguous => repository.resolveAmbiguousImmutable key bytes kind

/-- The two operations as calls of the target. -/
def serve : (q : ObjectQuery) → TargetProg E (ObjectAnswer q)
  | .load key kind maxBytes => repository.getRequiredBounded key kind maxBytes
  | .store key bytes kind => repository.putImmutable key bytes kind

/-! ## Checks -/

/-- repository.rs:904. -/
def checkRepresentationWork (actual : Nat) : Except (StorageError E) Unit :=
  fromLimit (requireWithin .representationWorkingBytes actual
    repository.limits.maxRepresentationWorkingBytes)

/-- repository.rs:880. -/
def checkEncodeRepresentationWork (canonicalLen : Nat) (key : ObjectKey)
    (provenance : ObjectProvenance) (context : FileCryptoContext) (payloadCompression : Bool) :
    Except (StorageError E) Unit := do
  let actual ← fromRepresentation
    (encodeWorkingBytes repository.crypto canonicalLen key provenance context payloadCompression)
  repository.checkRepresentationWork actual

/-- repository.rs:893. -/
def checkDecodeRepresentationWork (canonicalLen storedLen : Nat) (key : ObjectKey)
    (context : FileCryptoContext) : Except (StorageError E) Unit := do
  let actual ← fromRepresentation (decodeWorkingBytes canonicalLen storedLen key context)
  repository.checkRepresentationWork actual

/-- repository.rs:917. -/
def validateContext (file : FileId) (method : StorageMethod) (context : FileCryptoContext) :
    Except (StorageError E) Unit :=
  ensure (context.binding.fileId = file ∧ context.policy.method = method)
    (.representation .contextMismatch)

/-- representation/mod.rs:180. -/
def requireWriterSupport (policy : FileStoragePolicy) : Except RepresentationError Unit := do
  ensure (¬ (policy.compression = .lz4BlockV1 ∧ repository.crypto.lz4 = false))
    .unsupportedCompression
  ensure (¬ (policy.encryption = .aes256SivV1 ∧ repository.crypto.aesSiv = false)) .unsupportedCipher

section

variable (context : FileCryptoContext) (file : FileId) (provenance : ObjectProvenance)

/-- repository.rs:929. -/
def objectKey :
    ObjectKey :=
  if context.policy.encryption.isEncrypted then
    let token := context.preparationToken repository.crypto provenance.identityAttempt.1
      provenance.identityAttempt.2
    match provenance with
    | .manifest .. => repository.keys.protectedManifest file token
    | .rawPayload .. => repository.keys.protectedRawPayload file token
    | .blockPayload _ _ blockIndex => repository.keys.protectedBlockPayload file token blockIndex
    | .mapPage _ _ level firstBlock => repository.keys.protectedMapPage file token level firstBlock
  else
    match provenance with
    | .manifest identity attempt _ => repository.keys.manifest file identity attempt
    | .rawPayload identity attempt => repository.keys.rawPayload file identity attempt
    | .blockPayload identity attempt blockIndex =>
      repository.keys.blockPayload file identity attempt blockIndex
    | .mapPage identity attempt level firstBlock =>
      repository.keys.mapPage file identity attempt level firstBlock

/-- repository.rs:971. -/
def validateObjectKey (actual : ObjectKey) : Except (StorageError E) Unit :=
  ensure (repository.objectKey context file provenance = actual) (.corruption .invalidKeySchema)

end

/-- repository.rs:741. -/
def validateManifestPayloads (manifest : FileManifest) (context : FileCryptoContext) :
    Except CorruptionError Unit :=
  if context.policy.encryption.isEncrypted then .ok ()
  else
    match manifest.layout with
    | .raw (some blob) => repository.keys.validateRawPayload manifest.fileId blob.key
    | .blockSplit (some root) =>
      repository.keys.validateMapPage manifest.fileId root.level root.firstBlock root.key
    | .raw none | .blockSplit none => .ok ()

/-- The check of one leaf entry (`validate_page_children`). -/
def validateLeafChild (context : FileCryptoContext) (file : FileId) (firstBlock : Nat)
    (entry : Nat × BlobRef) : Except (StorageError E) Unit := do
  let index ← fromFormat (addWord firstBlock entry.1 "leaf block index")
  if context.policy.encryption.isEncrypted then
    ensure ((ascii "/blocks/" ++ hexText 16 index) <:+ entry.2.key.text)
      (.corruption .invalidKeySchema)
  else fromCorruption (repository.keys.validateBlockPayload file index entry.2.key)

/-- The check of one branch entry (`validate_page_children`). -/
def validateBranchChild (context : FileCryptoContext) (file : FileId) (entry : Nat × PageRef) :
    Except (StorageError E) Unit :=
  if context.policy.encryption.isEncrypted then
    ensure ((ascii "/maps/" ++ hexText 2 entry.2.level ++ ascii "/" ++ hexText 16 entry.2.firstBlock)
      <:+ entry.2.key.text) (.corruption .invalidKeySchema)
  else
    fromCorruption
      (repository.keys.validateMapPage file entry.2.level entry.2.firstBlock entry.2.key)

/-- repository.rs:771. -/
def validatePageChildren (page : BlockMapPage) (context : FileCryptoContext) :
    Except (StorageError E) Unit :=
  match page with
  | .leaf file firstBlock entries =>
    entries.forM (repository.validateLeafChild context file firstBlock)
  | .branch file _ _ entries => entries.forM (repository.validateBranchChild context file)

/-! ## Loading -/

section

variable (content : ContentRef) (context : FileCryptoContext)

/-- What `load_manifest_with_context` makes of the stored bytes. -/
def openManifest (bytes : Bytes) :
    Except (StorageError E) FileManifest := do
  ensure (repository.crypto.blake3 bytes = content.manifestDigest) (.corruption .digestMismatch)
  let decoded ← fromRepresentation (decodeObject repository.crypto .manifest content.manifestKey bytes
    context repository.limits.maxManifestBytes)
  match decoded.provenance with
  | .manifest identity attempt generation => do
    ensure (generation = content.generation)
      (.corruption (.identityMismatch "manifest generation"))
    fromCorruption
      (PreparationKey.validateResultGeneration ⟨identity, attempt⟩ content.generation)
    repository.validateObjectKey context content.fileId decoded.provenance content.manifestKey
    let manifest ← fromPersistent
      (decodeManifest repository.crypto decoded.canonical repository.limits)
    fromCorruption (manifest.validateContentRef content)
    fromCorruption (repository.validateManifestPayloads manifest context)
    return manifest
  | _ => .error (.representation .provenanceMismatch)

/-- The checks of `load_manifest_with_context` before the object is read. -/
def checkManifest :
    Except (StorageError E) Unit := do
  validateContext content.fileId content.method context
  fromCorruption (repository.keys.ensureOwned content.manifestKey)
  repository.checkDecodeRepresentationWork repository.limits.maxManifestBytes
    repository.limits.maxManifestBytes content.manifestKey context

/-- `load_manifest_with_context` (repository.rs:82). -/
def loadManifest : ObjectProg E FileManifest := do
  Prog.lift (repository.checkManifest content context)
  let bytes ← loadObject content.manifestKey .manifest repository.limits.maxManifestBytes
  Prog.lift (repository.openManifest content context bytes)

end

section

variable (context : FileCryptoContext)

/-- What `load_payload` makes of the stored bytes. -/
def openPayload (blob : BlobRef) (bytes : Bytes) :
    Except (StorageError E) Bytes := do
  ensure (bytes.length = blob.storedLen) (.corruption
    (.invalidLength "stored payload" (toWord blob.storedLen) (toWord bytes.length)))
  let decoded ← fromRepresentation
    (decodeObject repository.crypto .payload blob.key bytes context blob.plaintextLen)
  repository.validateObjectKey context context.binding.fileId decoded.provenance blob.key
  ensure (decoded.canonical.length = blob.plaintextLen ∧
    repository.crypto.blake3 decoded.canonical = blob.digest) (.corruption .digestMismatch)
  return decoded.canonical

/-- repository.rs:536. -/
def loadPayload (blob : BlobRef) : ObjectProg E Bytes := do
  Prog.lift (fromCorruption (repository.keys.ensureOwned blob.key))
  Prog.lift (repository.checkDecodeRepresentationWork blob.plaintextLen blob.storedLen blob.key context)
  let bytes ← loadObject blob.key .payload blob.storedLen
  Prog.lift (repository.openPayload context blob bytes)

/-- What `load_map_page` makes of the stored bytes. -/
def openMapPage (file : FileId) (reference : PageRef) (bytes : Bytes) :
    Except (StorageError E) BlockMapPage := do
  ensure (bytes.length = reference.encodedLen) (.corruption
    (.invalidLength "mapping page" (toWord reference.encodedLen) (toWord bytes.length)))
  ensure (repository.crypto.blake3 bytes = reference.digest) (.corruption .digestMismatch)
  let decoded ← fromRepresentation (decodeObject repository.crypto (.ifMapLevel reference.level)
    reference.key bytes context repository.limits.maxMapPageBytes)
  match decoded.provenance with
  | .mapPage _ _ level firstBlock => do
    ensure (level = reference.level ∧ firstBlock = reference.firstBlock)
      (.representation .provenanceMismatch)
    repository.validateObjectKey context file decoded.provenance reference.key
    let page ← fromPersistent
      (decodePage repository.crypto decoded.canonical reference.level repository.limits)
    fromPersistent (validatePageContext page reference file repository.limits)
    repository.validatePageChildren page context
    return page
  | _ => .error (.representation .provenanceMismatch)

/-- The checks of `load_map_page` before the object is read. -/
def checkMapPage (file : FileId) (reference : PageRef) :
    Except (StorageError E) Unit := do
  validateContext file context.policy.method context
  fromCorruption (repository.keys.ensureOwned reference.key)
  repository.checkDecodeRepresentationWork repository.limits.maxMapPageBytes reference.encodedLen
    reference.key context

/-- repository.rs:576. -/
def loadMapPage (file : FileId) (reference : PageRef) :
    ObjectProg E BlockMapPage := do
  Prog.lift (repository.checkMapPage context file reference)
  let bytes ← loadObject reference.key .mappingPage reference.encodedLen
  Prog.lift (repository.openMapPage context file reference bytes)

end

/-! ## Storing -/

section

variable (context : FileCryptoContext)

/-- The object of a payload (`store_payload` and `expected_payload`). -/
def payloadObject (key : ObjectKey) (provenance : ObjectProvenance) (plaintext : Bytes) :
    Except (StorageError E) Bytes :=
  fromRepresentation (encodeObject repository.crypto .payload key plaintext provenance context true
    repository.limits.maxObjectBytes)

/-- repository.rs:844. -/
def expectedPayload (key : ObjectKey) (provenance : ObjectProvenance) (plaintext : Bytes) :
    Except (StorageError E) BlobRef := do
  ensure (plaintext.length ≤ wordMax) (.limit (.new .object wordMax repository.limits.maxObjectBytes))
  repository.checkEncodeRepresentationWork plaintext.length key provenance context true
  let encoded ← repository.payloadObject context key provenance plaintext
  return ⟨key, plaintext.length, encoded.length, repository.crypto.blake3 plaintext⟩

/-- repository.rs:818. -/
def storePayload (key : ObjectKey) (provenance : ObjectProvenance) (plaintext : Bytes) :
    ObjectProg E BlobRef := do
  let expected ← Prog.lift (repository.expectedPayload context key provenance plaintext)
  let encoded ← Prog.lift (repository.payloadObject context key provenance plaintext)
  storeObject key encoded .payload
  return expected

/-- repository.rs:472. -/
def storeRawPayload (file : FileId) (identity : PreparationIdentity) (attempt : UInt32)
    (plaintext : Bytes) : ObjectProg E BlobRef :=
  repository.storePayload context
    (repository.objectKey context file (.rawPayload identity attempt)) (.rawPayload identity attempt)
    plaintext

/-- repository.rs:639. -/
def expectedMapPage (page : BlockMapPage) (identity : PreparationIdentity) (attempt : UInt32) :
    Except (StorageError E) (PageRef × Bytes) := do
  let canonical ← fromPersistent (encodePage repository.crypto page repository.limits)
  let (count, highest) ← fromPersistent page.summary
  let provenance := ObjectProvenance.mapPage identity attempt page.level page.firstBlock
  let key := repository.objectKey context page.fileId provenance
  repository.checkEncodeRepresentationWork canonical.length key provenance context false
  let encoded ← fromRepresentation (encodeObject repository.crypto (.ifMapLevel page.level) key
    canonical provenance context false repository.limits.maxMapPageBytes)
  return (⟨key, encoded.length, repository.crypto.blake3 encoded, page.level, page.firstBlock, count,
    highest⟩, encoded)

/-- repository.rs:677. -/
def storeMapPage (page : BlockMapPage) (identity : PreparationIdentity) (attempt : UInt32) :
    ObjectProg E PageRef := do
  let (reference, encoded) ← Prog.lift (repository.expectedMapPage context page identity attempt)
  storeObject reference.key encoded .mappingPage
  return reference

/-- The object of a manifest (`prepare_manifest`). -/
def manifestObject (manifest : FileManifest) (identity : PreparationIdentity) (attempt : UInt32) :
    Except (StorageError E) (ObjectKey × Bytes) := do
  let provenance := ObjectProvenance.manifest identity attempt manifest.generation
  let key := repository.objectKey context manifest.fileId provenance
  let canonical ← fromPersistent (encodeManifest repository.crypto manifest repository.limits)
  repository.checkEncodeRepresentationWork canonical.length key provenance context false
  let encoded ← fromRepresentation (encodeObject repository.crypto .manifest key canonical provenance
    context false repository.limits.maxManifestBytes)
  return (key, encoded)

/-- `prepare_manifest` (repository.rs:694). Every caller passes `true` for `content_changed`; the
generation is not zero, as the manifest was encoded. -/
def prepareManifest (manifest : FileManifest) (identity : PreparationIdentity) (attempt : UInt32) :
    ObjectProg E PreparedContent := do
  let (key, encoded) ← Prog.lift (repository.manifestObject context manifest identity attempt)
  storeObject key encoded .manifest
  if h : manifest.generation ≠ 0 then
    return {
      content := ⟨manifest.fileId, manifest.generation, manifest.logicalSize, key,
        repository.crypto.blake3 encoded, manifest.method, h⟩
      contentChanged := true
      identity
      attempt
      contextBinding := context.binding
      base := none
      unchanged := fun hchanged => by cases hchanged
      base_identity := fun _ hbase => by cases hbase }
  else .fail (.format (.nonCanonical "zero generation"))

end

end Repository

/-! ## A repository to evaluate -/

def sampleRepository : Repository where
  crypto := sampleCrypto
  keys := ⟨ascii "r", 1024, by decide +kernel, by decide +kernel, by decide +kernel⟩
  defaults := .raw
  limits := .standard
  keys_bound := by decide +kernel

end W9pt.Storage

import W9pt.Storage.Limits

/-!
# Persistent formats (`format/`)

Heads, manifests and map pages are checked envelopes around little-endian payloads. Every encoder
validates what it writes with the function its decoder validates with; that a written object is read
back as it was is the subject of `Storage/Roundtrip.lean`.

| here | there |
|---|---|
| `encodeEnvelope`, `decodeEnvelope` | `format/envelope.rs` |
| `FileHead`, `encodeHead` | `format/head.rs` |
| `BlobRef`, `FileManifest` | `format/manifest.rs` |
| `PageRef`, `BlockMapPage` | `format/block_map.rs` |

`Representation` and `BlockSplitParameters` have one value each, written as constant bytes and compared
on reading; they are not fields here. Lengths, levels, slots and block numbers are natural numbers: the
validations bound each of them before it is written in its fixed width.
-/

namespace W9pt

open Lib

def FixedId.asBytes {kind : IdKind} (id : FixedId kind) : Bytes := beBytes 16 id.bits.toNat

def digestBytes (digest : Digest) : Bytes := beBytes 32 digest.toNat

namespace Storage

/-! ## Errors and primitives -/

/-- Failure while decoding one checked object (format/mod.rs:20). -/
inductive PersistentFormatError where
  | format (error : FormatError)
  | corruption (error : CorruptionError)
  | limit (error : LimitError)
deriving DecidableEq

/-- format/primitives.rs:6. -/
abbrev Reader := Parser PersistentFormatError

namespace Reader

/-- `read_bytes` (primitives.rs:51). -/
def bytes (length : Nat) : Reader Bytes := Parser.take length (.format .truncated)

/-- `read_u8` (primitives.rs:20). -/
def u8 : Reader Nat := Parser.le 1 (.format .truncated)

/-- `read_u16` (primitives.rs:24). -/
def u16 : Reader Nat := Parser.le 2 (.format .truncated)

/-- `read_u32` (primitives.rs:28). -/
def u32 : Reader Nat := Parser.le 4 (.format .truncated)

/-- `read_u64` (primitives.rs:32). -/
def u64 : Reader Nat := Parser.le 8 (.format .truncated)

def id (kind : IdKind) : Reader (FixedId kind) := do
  return ⟨.ofNat 128 (← Parser.be 16 (.format .truncated))⟩

def digest : Reader Digest := do return .ofNat 256 (← Parser.be 32 (.format .truncated))

/-- primitives.rs:64. -/
def finish : Reader Unit := Parser.finish (.format .trailingData)

def check (c : Prop) [Decidable c] (error : FormatError) : Reader Unit :=
  Parser.lift (ensure c (.format error))

end Reader

/-! ## Envelopes -/

/-- Kind of checked object (envelope.rs:15). -/
inductive ObjectKind where
  | head | manifest | payload | leafMap | branchMap

def ObjectKind.code : ObjectKind → Nat
  | .head => 1
  | .manifest => 2
  | .payload => 3
  | .leafMap => 4
  | .branchMap => 5

/-- envelope.rs:29. -/
def ObjectKind.ifMapLevel (level : Nat) : ObjectKind := if level = 0 then .leafMap else .branchMap

/-- `W9PTOBJ\0` (envelope.rs:7). -/
def envelopeMagic : Bytes := [0x57, 0x39, 0x50, 0x54, 0x4f, 0x42, 0x4a, 0x00]

/-- `HEADER_LEN` (envelope.rs:10). -/
def envelopeHeaderLen : Nat := 8 + 1 + 2 + 2 + 8 + 32

def envelopeHeader (crypto : Crypto) (kind : ObjectKind) (payload : Bytes) : Bytes :=
  envelopeMagic ++ (leBytes 1 kind.code ++ (leBytes 2 3 ++ (leBytes 2 0 ++
    (leBytes 8 payload.length ++ digestBytes (crypto.blake3 payload)))))

/-- envelope.rs:58. -/
def encodeEnvelope (crypto : Crypto) (kind : ObjectKind) (payload : Bytes) (maxObjectBytes : Nat) :
    Except LimitError Bytes := do
  requireWithin .object (envelopeHeaderLen + payload.length) maxObjectBytes
  return envelopeHeader crypto kind payload ++ payload

/-- The reads of `decode_envelope`. -/
def readEnvelope (crypto : Crypto) (expected : ObjectKind) : Reader Bytes := do
  let magic ← Reader.bytes 8
  Reader.check (magic = envelopeMagic) .invalidMagic
  let actual ← Reader.u8
  Reader.check (actual = expected.code)
    (.unexpectedKind (UInt8.ofNat expected.code) (UInt8.ofNat actual))
  let major ← Reader.u16
  let minor ← Reader.u16
  Reader.check (major = 3 ∧ minor = 0) (.unsupportedVersion (UInt16.ofNat major) (UInt16.ofNat minor))
  let payloadLen ← Reader.u64
  let checksum ← Reader.digest
  let remaining ← Parser.remaining
  Reader.check (remaining = payloadLen) (.inconsistentLength "envelope payload")
  let payload ← Reader.bytes payloadLen
  Reader.finish
  Parser.lift (ensure (crypto.blake3 payload = checksum) (.corruption .checksumMismatch))
  return payload

/-- envelope.rs:99. -/
def decodeEnvelope (crypto : Crypto) (expected : ObjectKind) (bytes : Bytes) (maxObjectBytes : Nat) :
    Except PersistentFormatError Bytes := do
  mapErr .limit (requireWithin .object bytes.length maxObjectBytes)
  let (payload, _) ← readEnvelope crypto expected bytes
  return payload

/-! ## Keys -/

/-- head.rs:136. -/
def checkedKeyLength (key : ObjectKey) (limits : StorageLimits) : Except PersistentFormatError Unit := do
  mapErr .limit (requireWithin .key key.text.length limits.maxKeyBytes)
  ensure (key.text.length < 2 ^ 32) (.format (.arithmeticOverflow "object key length"))

/-- What `write_key` appends (head.rs:125). -/
def keyBytes (key : ObjectKey) : Bytes := leBytes 4 key.text.length ++ key.text

/-- head.rs:157. -/
def readKey (limits : StorageLimits) : Reader ObjectKey := do
  let length ← Reader.u32
  Parser.lift (mapErr .limit (requireWithin .key length limits.maxKeyBytes))
  let text ← Reader.bytes length
  if h : isUtf8 text = true ∧ PrintableKey text then return ⟨text, h.1, h.2⟩
  else Parser.lift (.error (.format (.nonCanonical "object key")))

/-! ## Heads -/

/-- Mutable record selecting one manifest (head.rs:12). -/
structure FileHead where
  fileId : FileId
  generation : UInt64
  manifestKey : ObjectKey
  manifestDigest : Digest
  mutationId : MutationId
deriving DecidableEq

/-- head.rs:114. -/
def validateHead (head : FileHead) (limits : StorageLimits) : Except PersistentFormatError Unit := do
  ensure (head.generation ≠ 0) (.format (.nonCanonical "zero generation"))
  checkedKeyLength head.manifestKey limits

/-- The payload that `encode_head` writes. -/
def headPayload (head : FileHead) : Bytes :=
  head.fileId.asBytes ++ (leBytes 8 head.generation.toNat ++ (keyBytes head.manifestKey ++
    (digestBytes head.manifestDigest ++ head.mutationId.asBytes)))

/-- head.rs:74. -/
def encodeHead (crypto : Crypto) (head : FileHead) (limits : StorageLimits) :
    Except PersistentFormatError Bytes := do
  validateHead head limits
  mapErr .limit (encodeEnvelope crypto .head (headPayload head) limits.maxObjectBytes)

/-- The reads of `decode_head`. -/
def readHead (limits : StorageLimits) : Reader FileHead := do
  let fileId ← Reader.id .file
  let generation ← Reader.u64
  let manifestKey ← readKey limits
  let manifestDigest ← Reader.digest
  let mutationId ← Reader.id .mutation
  Reader.finish
  return ⟨fileId, UInt64.ofNat generation, manifestKey, manifestDigest, mutationId⟩

/-- head.rs:94. -/
def decodeHead (crypto : Crypto) (bytes : Bytes) (limits : StorageLimits) :
    Except PersistentFormatError FileHead := do
  let payload ← decodeEnvelope crypto .head bytes limits.maxObjectBytes
  let (head, _) ← readHead limits payload
  validateHead head limits
  return head

/-! ## Payload references -/

/-- Reference to one immutable payload (manifest.rs:28). -/
structure BlobRef where
  key : ObjectKey
  plaintextLen : Nat
  storedLen : Nat
  digest : Digest
deriving DecidableEq

/-- The three bytes of `write_representation` (manifest.rs:515). -/
def representationBytes : Bytes := [1, 0, 0]

/-- manifest.rs:527. -/
def readRepresentation : Reader Unit := do
  let hash ← Reader.u8
  Reader.check (hash = 1) (.unknownTag "hash algorithm" (UInt64.ofNat hash))
  let codec ← Reader.u8
  Reader.check (codec = 0) (.unknownTag "payload codec" (UInt64.ofNat codec))
  let cipher ← Reader.u8
  Reader.check (cipher = 0) (.unknownTag "payload cipher" (UInt64.ofNat cipher))

/-- manifest.rs:460. -/
def validateBlob (blob : BlobRef) (limits : StorageLimits) : Except PersistentFormatError Unit := do
  checkedKeyLength blob.key limits
  ensure (blob.plaintextLen ≠ 0 ∧ payloadMinStoredBytes ≤ blob.storedLen)
    (.format (.inconsistentLength "stored payload"))
  mapErr .limit (requireWithin .object blob.storedLen limits.maxObjectBytes)

/-- What `write_blob` appends (manifest.rs:489). -/
def blobBytes (blob : BlobRef) : Bytes :=
  keyBytes blob.key ++ (leBytes 8 blob.plaintextLen ++ (leBytes 8 blob.storedLen ++
    (representationBytes ++ digestBytes blob.digest)))

/-- manifest.rs:502. -/
def readBlob (limits : StorageLimits) : Reader BlobRef := do
  let key ← readKey limits
  let plaintextLen ← Reader.u64
  let storedLen ← Reader.u64
  readRepresentation
  let digest ← Reader.digest
  return ⟨key, plaintextLen, storedLen, digest⟩

/-! ## Map geometry -/

/-- block_map.rs:287. -/
def pageCoverage (level : Nat) : Except FormatError Nat :=
  if level ≤ blockMapMaxLevel then .ok (2 ^ (7 * (level + 1))) else .error (.nonCanonical "page level")

/-- `minimum_root_level` (block_map.rs:301): the first level that covers the block from zero. -/
def minimumRootLevel (highestBlock : Nat) : Except FormatError Nat :=
  match (List.range (blockMapMaxLevel + 1)).find? fun level => highestBlock < 2 ^ (7 * (level + 1)) with
  | some level => .ok level
  | none => .error (.nonCanonical "block index outside radix domain")

/-- block_map.rs:334. -/
def PageContains (level firstBlock blockIndex : Nat) : Prop :=
  level ≤ blockMapMaxLevel ∧ firstBlock + 2 ^ (7 * (level + 1)) < 2 ^ 64 ∧
    firstBlock ≤ blockIndex ∧ blockIndex < firstBlock + 2 ^ (7 * (level + 1))

instance (level firstBlock blockIndex : Nat) : Decidable (PageContains level firstBlock blockIndex) :=
  inferInstanceAs (Decidable (_ ∧ _))

/-- How many blocks one slot of a page covers (block_map.rs:319). -/
def slotCoverage (level : Nat) : Nat := 2 ^ (7 * level)

/-- block_map.rs:313. -/
def pageSlot (level firstBlock blockIndex : Nat) : Except FormatError Nat := do
  ensure (PageContains level firstBlock blockIndex) (.nonCanonical "block outside page range")
  return (blockIndex - firstBlock) / slotCoverage level

/-- The block indices of the map, `1 << 49` of them (block_map.rs:374). -/
def mapDomain : Nat := 2 ^ 49

/-! ## Page references -/

/-- Authenticated reference to one map page (block_map.rs:25). -/
structure PageRef where
  key : ObjectKey
  encodedLen : Nat
  digest : Digest
  level : Nat
  firstBlock : Nat
  materializedBlockCount : Nat
  highestMaterializedBlock : Nat
deriving DecidableEq

/-- block_map.rs:93. -/
def PageRef.Covers (reference : PageRef) (blockIndex : Nat) : Prop :=
  PageContains reference.level reference.firstBlock blockIndex

instance (reference : PageRef) (blockIndex : Nat) : Decidable (reference.Covers blockIndex) :=
  inferInstanceAs (Decidable (PageContains _ _ _))

/-- block_map.rs:15. -/
def pageHeaderBytes : Nat := 16 + 1 + 8 + 4 + 2 + 1 + 1 + 2

/-- block_map.rs:16. -/
def minimumBlobRefBytes : Nat := 4 + 1 + 8 + 8 + 3 + 32

/-- block_map.rs:17. -/
def minimumPageRefBytes : Nat := 4 + 1 + 8 + 32 + 1 + 8 + 8 + 8

/-- `MINIMUM_LEAF_PAGE_BYTES` and `MINIMUM_BRANCH_PAGE_BYTES` (block_map.rs:18-21). -/
def minimumPageBytes (level : Nat) : Nat :=
  envelopeHeaderLen + pageHeaderBytes + 1 +
    (if level = 0 then minimumBlobRefBytes else minimumPageRefBytes)

/-- The checks on where a page lies (`validate_page_ref` and `validate_page`). -/
def validateLocation (level firstBlock : Nat) (alignment range : String) :
    Except PersistentFormatError Nat := do
  let coverage ← mapErr .format (pageCoverage level)
  ensure (firstBlock % coverage = 0) (.format (.nonCanonical alignment))
  ensure (firstBlock < mapDomain ∧ firstBlock + coverage ≤ mapDomain)
    (.format (.nonCanonical range))
  return coverage

/-- block_map.rs:341. -/
def validatePageRef (reference : PageRef) (limits : StorageLimits) :
    Except PersistentFormatError Unit := do
  checkedKeyLength reference.key limits
  mapErr .limit (requireWithin .mapPage reference.encodedLen limits.maxMapPageBytes)
  ensure (minimumPageBytes reference.level + mapPageMinOverhead ≤ reference.encodedLen)
    (.format (.inconsistentLength "mapping page"))
  let coverage ← validateLocation reference.level reference.firstBlock "page alignment" "page range"
  ensure (reference.materializedBlockCount ≠ 0 ∧ reference.materializedBlockCount ≤ coverage ∧
      reference.materializedBlockCount ≤ limits.maxMaterializedBlocks)
    (.format (.nonCanonical "page materialized count"))
  ensure (reference.Covers reference.highestMaterializedBlock ∧
      reference.materializedBlockCount ≤
        reference.highestMaterializedBlock - reference.firstBlock + 1)
    (.format (.nonCanonical "page highest block"))

/-- What `write_page_ref` appends (block_map.rs:430). -/
def pageRefBytes (reference : PageRef) : Bytes :=
  keyBytes reference.key ++ (leBytes 8 reference.encodedLen ++ (digestBytes reference.digest ++
    (leBytes 1 reference.level ++ (leBytes 8 reference.firstBlock ++
      (leBytes 8 reference.materializedBlockCount ++ leBytes 8 reference.highestMaterializedBlock)))))

/-- block_map.rs:446. -/
def readPageRef (limits : StorageLimits) : Reader PageRef := do
  let key ← readKey limits
  let encodedLen ← Reader.u64
  let digest ← Reader.digest
  let level ← Reader.u8
  let firstBlock ← Reader.u64
  let count ← Reader.u64
  let highest ← Reader.u64
  let reference : PageRef := ⟨key, encodedLen, digest, level, firstBlock, count, highest⟩
  Parser.lift (validatePageRef reference limits)
  return reference

/-! ## Manifests -/

/-- Method-specific part of a manifest (manifest.rs:72). -/
inductive ManifestLayout where
  | raw (blob : Option BlobRef)
  | blockSplit (root : Option PageRef)

/-- Immutable description of one file version (manifest.rs:89). -/
structure FileManifest where
  fileId : FileId
  generation : UInt64
  logicalSize : UInt64
  layout : ManifestLayout

/-- manifest.rs:150. -/
def FileManifest.method (manifest : FileManifest) : StorageMethod :=
  match manifest.layout with
  | .raw _ => .raw
  | .blockSplit _ => .blockSplit

/-- The layout checks of `validate_manifest`. -/
def validateLayout (logicalSize : UInt64) (limits : StorageLimits) :
    ManifestLayout → Except PersistentFormatError Unit
  | .raw blob => do
    mapErr .limit (requireWithin .rawFile logicalSize.toNat limits.maxRawFileBytes)
    match blob with
    | none => ensure (logicalSize = 0) (.format (.nonCanonical "raw empty payload"))
    | some blob => do
      ensure (logicalSize ≠ 0) (.format (.nonCanonical "raw empty payload"))
      validateBlob blob limits
      ensure (blob.plaintextLen = logicalSize.toNat) (.format (.inconsistentLength "raw plaintext"))
  | .blockSplit none => .ok ()
  | .blockSplit (some root) => do
    validatePageRef root limits
    ensure (root.firstBlock = 0) (.format (.nonCanonical "map root start"))
    let level ← mapErr .format (minimumRootLevel root.highestMaterializedBlock)
    ensure (root.level = level) (.format (.nonCanonical "map root normalization"))
    mapErr .limit
      (requireWithin .materializedBlocks root.materializedBlockCount limits.maxMaterializedBlocks)
    ensure (root.highestMaterializedBlock * blockSize < 2 ^ 64)
      (.format (.arithmeticOverflow "highest block offset"))
    ensure (root.highestMaterializedBlock * blockSize < logicalSize.toNat)
      (.format (.nonCanonical "map root beyond logical EOF"))

/-- manifest.rs:348. -/
def validateManifest (manifest : FileManifest) (limits : StorageLimits) :
    Except PersistentFormatError Unit := do
  ensure (manifest.generation ≠ 0) (.format (.nonCanonical "zero generation"))
  validateLayout manifest.logicalSize limits manifest.layout

/-- The eight bytes of `write_profile` (block_map.rs:773). -/
def profileBytes : Bytes :=
  leBytes 4 blockSize ++ (leBytes 2 blockMapFanout ++ (leBytes 1 7 ++ leBytes 1 blockMapMaxLevel))

/-- block_map.rs:780. -/
def readProfile : Reader Unit := do
  let size ← Reader.u32
  let fanout ← Reader.u16
  let indexBits ← Reader.u8
  let maxLevel ← Reader.u8
  Reader.check (size = blockSize ∧ fanout = blockMapFanout ∧ indexBits = 7 ∧ maxLevel = blockMapMaxLevel)
    (.unknownTag "block map profile" (UInt64.ofNat size))

/-- An optional part after its presence byte. -/
def optionBytes {α : Type} (encode : α → Bytes) : Option α → Bytes
  | none => leBytes 1 0
  | some a => leBytes 1 1 ++ encode a

/-- A presence byte and the part it announces. -/
def readOption {α : Type} (field : String) (read : Reader α) : Reader (Option α) := do
  let tag ← Reader.u8
  if tag = 0 then return none
  else if tag = 1 then return some (← read)
  else Parser.lift (.error (.format (.unknownTag field (UInt64.ofNat tag))))

/-- The method byte and what follows the representation (`encode_manifest`). -/
def layoutBytes : ManifestLayout → Bytes
  | .raw blob => leBytes 1 1 ++ (representationBytes ++ optionBytes blobBytes blob)
  | .blockSplit root =>
    leBytes 1 2 ++ (representationBytes ++ (profileBytes ++ optionBytes pageRefBytes root))

/-- The reads of the layout (`decode_manifest`). -/
def readLayout (limits : StorageLimits) : Reader ManifestLayout := do
  let method ← Reader.u8
  readRepresentation
  if method = 1 then
    return .raw (← readOption "raw blob presence" (readBlob limits))
  else if method = 2 then do
    readProfile
    return .blockSplit (← readOption "map root presence" (readPageRef limits))
  else Parser.lift (.error (.format (.unknownTag "storage method" (UInt64.ofNat method))))

/-- The payload that `encode_manifest` writes. -/
def manifestPayload (manifest : FileManifest) : Bytes :=
  manifest.fileId.asBytes ++ (leBytes 8 manifest.generation.toNat ++
    (leBytes 8 manifest.logicalSize.toNat ++ layoutBytes manifest.layout))

/-- `encode_manifest` (manifest.rs:190). The length it computes before writing is that of the payload
(the `debug_assert_eq` of manifest.rs:226). -/
def encodeManifest (crypto : Crypto) (manifest : FileManifest) (limits : StorageLimits) :
    Except PersistentFormatError Bytes := do
  validateManifest manifest limits
  mapErr .limit (requireWithin .manifest
    (envelopeHeaderLen + (manifestPayload manifest).length) limits.maxManifestBytes)
  mapErr (fun error => .limit (.new .manifest error.actual.toNat limits.maxManifestBytes))
    (encodeEnvelope crypto .manifest (manifestPayload manifest) limits.maxManifestBytes)

/-- The reads of `decode_manifest`. -/
def readManifest (limits : StorageLimits) : Reader FileManifest := do
  let fileId ← Reader.id .file
  let generation ← Reader.u64
  let logicalSize ← Reader.u64
  let layout ← readLayout limits
  Reader.finish
  return ⟨fileId, UInt64.ofNat generation, UInt64.ofNat logicalSize, layout⟩

/-- manifest.rs:241. -/
def decodeManifest (crypto : Crypto) (bytes : Bytes) (limits : StorageLimits) :
    Except PersistentFormatError FileManifest := do
  mapErr .limit (requireWithin .manifest bytes.length limits.maxManifestBytes)
  let payload ← decodeEnvelope crypto .manifest bytes limits.maxManifestBytes
  let (manifest, _) ← readManifest limits payload
  validateManifest manifest limits
  return manifest

/-! ## Map pages -/

/-- Decoded map page; the entries are the occupied slots with their blobs or children
(block_map.rs:148). -/
inductive BlockMapPage where
  | leaf (fileId : FileId) (firstBlock : Nat) (entries : List (Nat × BlobRef))
  | branch (fileId : FileId) (level firstBlock : Nat) (entries : List (Nat × PageRef))
deriving DecidableEq

namespace BlockMapPage

/-- block_map.rs:198. -/
def fileId : BlockMapPage → FileId
  | leaf fileId _ _ => fileId
  | branch fileId _ _ _ => fileId

/-- block_map.rs:205. -/
def level : BlockMapPage → Nat
  | leaf .. => 0
  | branch _ level _ _ => level

/-- block_map.rs:213. -/
def firstBlock : BlockMapPage → Nat
  | leaf _ firstBlock _ => firstBlock
  | branch _ _ firstBlock _ => firstBlock

/-- `summary` (block_map.rs:243): how many blocks the page maps and the highest of them. -/
def summary : BlockMapPage → Except PersistentFormatError (Nat × Nat)
  | leaf _ firstBlock entries =>
    match entries.getLast? with
    | none => .error (.format (.nonCanonical "empty mapping page"))
    | some (slot, _) =>
      if firstBlock + slot < 2 ^ 64 then .ok (entries.length, firstBlock + slot)
      else .error (.format (.arithmeticOverflow "leaf highest block"))
  | branch _ _ _ entries =>
    let count := (entries.map fun entry => entry.2.materializedBlockCount).sum
    if count < 2 ^ 64 then
      match (entries.map fun entry => entry.2.highestMaterializedBlock).max? with
      | none => .error (.format (.nonCanonical "empty mapping page"))
      | some highest => .ok (count, highest)
    else .error (.format (.arithmeticOverflow "branch materialized count"))

end BlockMapPage

/-- One iteration of `validate_slots`, with the slot before (block_map.rs:751). -/
def validateSlot (previous : Option Nat) (slot : Nat) : Except PersistentFormatError (Option Nat) := do
  ensure (slot < blockMapFanout ∧ ∀ prior ∈ previous, prior < slot)
    (.format (.nonCanonical "mapping page slot ordering"))
  return some slot

/-- block_map.rs:751. -/
def validateSlots (slots : List Nat) : Except PersistentFormatError Unit := do
  let last ← slots.foldlM validateSlot none
  ensure (last ≠ none) (.format (.nonCanonical "empty mapping page"))

/-- The check of one leaf entry (`validate_page`). -/
def validateLeafEntry (crypto : Crypto) (limits : StorageLimits) (firstBlock : Nat)
    (entry : Nat × BlobRef) : Except PersistentFormatError Unit := do
  validateBlob entry.2 limits
  ensure (entry.2.plaintextLen = blockSize) (.format (.inconsistentLength "block plaintext"))
  ensure (entry.2.digest ≠ crypto.blake3 (List.replicate blockSize 0))
    (.format (.nonCanonical "materialized zero block"))
  ensure (firstBlock + entry.1 < 2 ^ 64) (.format (.arithmeticOverflow "leaf block index"))

/-- The check of one branch entry (`validate_page`). -/
def validateBranchEntry (limits : StorageLimits) (level firstBlock : Nat) (entry : Nat × PageRef) :
    Except PersistentFormatError Unit := do
  validatePageRef entry.2 limits
  ensure (firstBlock + entry.1 * slotCoverage level < 2 ^ 64)
    (.format (.arithmeticOverflow "child page range"))
  ensure (entry.2.level = level - 1 ∧ entry.2.firstBlock = firstBlock + entry.1 * slotCoverage level)
    (.format (.nonCanonical "child page location"))

/-- block_map.rs:662. -/
def validatePage (crypto : Crypto) (page : BlockMapPage) (limits : StorageLimits) :
    Except PersistentFormatError Unit := do
  let _ ← validateLocation page.level page.firstBlock "mapping page alignment" "mapping page range"
  match page with
  | .leaf _ firstBlock entries => do
    validateSlots (entries.map Prod.fst)
    entries.forM (validateLeafEntry crypto limits firstBlock)
  | .branch _ level firstBlock entries => do
    ensure (level ≠ 0) (.format (.nonCanonical "branch level"))
    validateSlots (entries.map Prod.fst)
    entries.forM (validateBranchEntry limits level firstBlock)

/-- The entries of a page as they are written (`encode_block_map_page`). -/
def entriesBytes : BlockMapPage → Bytes
  | .leaf _ _ entries =>
    leBytes 2 entries.length ++ entries.flatMap fun e => leBytes 1 e.1 ++ blobBytes e.2
  | .branch _ _ _ entries =>
    leBytes 2 entries.length ++ entries.flatMap fun e => leBytes 1 e.1 ++ pageRefBytes e.2

/-- The payload that `encode_block_map_page` writes. -/
def pagePayload (page : BlockMapPage) : Bytes :=
  page.fileId.asBytes ++ (leBytes 1 page.level ++ (leBytes 8 page.firstBlock ++
    (profileBytes ++ entriesBytes page)))

/-- `encode_block_map_page` (block_map.rs:464). -/
def encodePage (crypto : Crypto) (page : BlockMapPage) (limits : StorageLimits) :
    Except PersistentFormatError Bytes := do
  validatePage crypto page limits
  mapErr .limit (requireWithin .mapPage
    (envelopeHeaderLen + (pagePayload page).length) limits.maxMapPageBytes)
  mapErr (fun error => .limit (.new .mapPage error.actual.toNat limits.maxMapPageBytes))
    (encodeEnvelope crypto (.ifMapLevel page.level) (pagePayload page) limits.maxMapPageBytes)

/-- A slot and what it holds. -/
def readEntry {α : Type} (read : Reader α) : Reader (Nat × α) := do
  let slot ← Reader.u8
  let value ← read
  return (slot, value)

/-- The reads of `decode_block_map_page`. -/
def readPage (expectedLevel : Nat) (limits : StorageLimits) : Reader BlockMapPage := do
  let fileId ← Reader.id .file
  let level ← Reader.u8
  let firstBlock ← Reader.u64
  readProfile
  let count ← Reader.u16
  Reader.check (count ≠ 0 ∧ count ≤ blockMapFanout) (.nonCanonical "mapping page entry count")
  let remaining ← Parser.remaining
  Reader.check
    (count ≤ remaining / (1 + if expectedLevel = 0 then minimumBlobRefBytes else minimumPageRefBytes))
    (.inconsistentLength "mapping page entries")
  if expectedLevel = 0 then do
    let entries ← Parser.many (readEntry (readBlob limits)) count
    Reader.finish
    return .leaf fileId firstBlock entries
  else do
    let entries ← Parser.many (readEntry (readPageRef limits)) count
    Reader.finish
    return .branch fileId level firstBlock entries

/-- `decode_block_map_page` (block_map.rs:516). -/
def decodePage (crypto : Crypto) (bytes : Bytes) (expectedLevel : Nat) (limits : StorageLimits) :
    Except PersistentFormatError BlockMapPage := do
  mapErr .limit (requireWithin .mapPage bytes.length limits.maxMapPageBytes)
  let payload ← decodeEnvelope crypto (.ifMapLevel expectedLevel) bytes limits.maxMapPageBytes
  let (page, _) ← readPage expectedLevel limits payload
  validatePage crypto page limits
  ensure (page.level = expectedLevel) (.format (.nonCanonical "mapping page level"))
  return page

/-- block_map.rs:601. -/
def validatePageContext (page : BlockMapPage) (reference : PageRef) (expectedFile : FileId)
    (limits : StorageLimits) : Except PersistentFormatError Unit := do
  validatePageRef reference limits
  ensure (page.fileId = expectedFile) (.corruption (.identityMismatch "mapping page file"))
  ensure (page.level = reference.level ∧ page.firstBlock = reference.firstBlock)
    (.corruption (.identityMismatch "mapping page location"))
  let (count, highest) ← page.summary
  ensure (count = reference.materializedBlockCount ∧ highest = reference.highestMaterializedBlock)
    (.corruption (.identityMismatch "mapping page summary"))

end Storage

end W9pt

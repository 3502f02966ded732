import W9pt.Storage.Layout

/-!
# Publication of heads (`publisher.rs`)

The current version of a file is named by its head, one mutable object replaced by compare-and-swap. The
functions without a context assume the implicit plain one; those with a context take it as `some`.
-/

namespace W9pt.Storage

open Lib

variable {E : Type}

/-- One published version and the revision that guards it (publisher.rs:16). -/
structure PublishedContent where
  content : ContentRef
  mutationId : MutationId
  fingerprint : Digest
  attempt : UInt32
  version : ObjectVersion
deriving DecidableEq

/-- publisher.rs:53. -/
inductive Publication where
  | published (content : PublishedContent)
  | conflict
deriving DecidableEq

def swapObject (key : ObjectKey) (expected : Option ObjectVersion) (bytes : Bytes) :
    TargetProg E (Except E CompareExchange) :=
  Prog.query (TargetQuery.compareExchange key expected bytes)

/-- A publisher of one file; the context is that of the `_with_context` functions. -/
structure Publisher where
  repository : Repository
  fileId : FileId
  context : Option FileCryptoContext

namespace Publisher

variable (publisher : Publisher)

def headKey : ObjectKey := publisher.repository.keys.head publisher.fileId

/-! ## Loading -/

/-- The end of `load_content`. -/
def contentOf (head : FileHead) (context : FileCryptoContext) (preparation : PreparationKey)
    (canonical : Bytes) : Except (StorageError E) (ContentRef × PreparationKey) := do
  let manifest ← fromPersistent
    (decodeManifest publisher.repository.crypto canonical publisher.repository.limits)
  ensure (manifest.method = context.policy.method) (.representation .contextMismatch)
  ensure (manifest.fileId = head.fileId) (.corruption (.identityMismatch "file"))
  ensure (manifest.generation = head.generation) (.corruption (.identityMismatch "generation"))
  fromCorruption (publisher.repository.validateManifestPayloads manifest context)
  if h : manifest.generation ≠ 0 then
    return (⟨manifest.fileId, manifest.generation, manifest.logicalSize, head.manifestKey,
      head.manifestDigest, manifest.method, h⟩, preparation)
  else .error (.format (.nonCanonical "zero generation"))

/-- The implicit plain context that decodes a manifest (`load_content`). -/
def selectContext (head : FileHead) (bytes : Bytes) :
    Except (StorageError E) (FileCryptoContext × DecodedObject) :=
  let attempt method :=
    let context := FileCryptoContext.plainForFile head.fileId method
    match decodeObject publisher.repository.crypto .manifest head.manifestKey bytes context
      publisher.repository.limits.maxManifestBytes with
    | .ok decoded => some (context, decoded)
    | .error _ => none
  okOr (([StorageMethod.raw, .blockSplit].findSome? attempt)) (.representation .authenticationFailed)

/-- What `load_content` makes of the manifest's bytes. -/
def openContent (head : FileHead) (bytes : Bytes) :
    Except (StorageError E) (ContentRef × PreparationKey) := do
  ensure (publisher.repository.crypto.blake3 bytes = head.manifestDigest) (.corruption .digestMismatch)
  match publisher.context with
  | none => do
    let parsed ← fromCorruption
      (publisher.repository.keys.parseManifest head.fileId head.manifestKey)
    let (context, decoded) ← publisher.selectContext head bytes
    match decoded.provenance with
    | .manifest identity attempt generation => do
      fromCorruption
        (PreparationKey.validateResultGeneration ⟨identity, attempt⟩ head.generation)
      ensure (generation = head.generation ∧ (⟨identity, attempt⟩ : PreparationKey) = parsed ∧
        identity.mutationId = head.mutationId) (.corruption (.identityMismatch "mutation"))
      publisher.contentOf head context ⟨identity, attempt⟩ decoded.canonical
    | _ => .error (.representation .provenanceMismatch)
  | some context => do
    let decoded ← fromRepresentation (decodeObject publisher.repository.crypto .manifest
      head.manifestKey bytes context publisher.repository.limits.maxManifestBytes)
    match decoded.provenance with
    | .manifest identity attempt generation => do
      publisher.repository.validateObjectKey context head.fileId decoded.provenance head.manifestKey
      fromCorruption
        (PreparationKey.validateResultGeneration ⟨identity, attempt⟩ head.generation)
      ensure (generation = head.generation ∧ identity.mutationId = head.mutationId)
        (.corruption (.identityMismatch "mutation"))
      publisher.contentOf head context ⟨identity, attempt⟩ decoded.canonical
    | _ => .error (.representation .provenanceMismatch)

/-- The checks of `load_content` before the manifest is read. -/
def checkContent (head : FileHead) : Except (StorageError E) Unit := do
  match publisher.context with
  | none => do
    let _ ← fromCorruption (publisher.repository.keys.parseManifest head.fileId head.manifestKey)
    publisher.repository.checkDecodeRepresentationWork publisher.repository.limits.maxManifestBytes
      publisher.repository.limits.maxManifestBytes head.manifestKey
      (FileCryptoContext.plainForFile head.fileId .raw)
  | some context => do
    Repository.validateContext head.fileId context.policy.method context
    fromCorruption (publisher.repository.keys.ensureOwned head.manifestKey)
    publisher.repository.checkDecodeRepresentationWork publisher.repository.limits.maxManifestBytes
      publisher.repository.limits.maxManifestBytes head.manifestKey context

/-- `load_content` and `load_content_with_context` (publisher.rs:572, 655). -/
def loadContent (head : FileHead) : TargetProg E (ContentRef × PreparationKey) := do
  Prog.lift (publisher.checkContent head)
  match ← getObject head.manifestKey publisher.repository.limits.maxManifestBytes with
  | .error source => .fail (.target ⟨.get, head.manifestKey, source⟩)
  | .ok none => .fail (.missing .manifest head.manifestKey)
  | .ok (some object) => Prog.lift (publisher.openContent head object.bytes)

/-- publisher.rs:533, 552. -/
def decodePublished (object : TargetObject) : TargetProg E PublishedContent := do
  let head ← Prog.lift (fromPersistent
    (decodeHead publisher.repository.crypto object.bytes publisher.repository.limits))
  Prog.lift (ensure (head.fileId = publisher.fileId) (.corruption (.identityMismatch "file")))
  let (content, preparation) ← publisher.loadContent head
  return ⟨content, head.mutationId, preparation.identity.fingerprint, preparation.attempt,
    object.version⟩

/-- `load` and `load_with_context` (publisher.rs:72, 90). -/
def load : TargetProg E (Option PublishedContent) := do
  Prog.lift (ensure (∀ context ∈ publisher.context, context.binding.fileId = publisher.fileId)
    (.representation .contextMismatch))
  match ← getObject publisher.headKey publisher.repository.limits.maxObjectBytes with
  | .error source => .fail (.target ⟨.get, publisher.headKey, source⟩)
  | .ok none => return none
  | .ok (some object) => do return some (← publisher.decodePublished object)

/-! ## Publishing -/

/-- publisher.rs:426. -/
def validatePreparation (mutation : MutationId) (prepared : PreparedContent) (base : Option ContentRef) :
    Except (StorageError E) Unit := do
  ensure (prepared.identity.mutationId = mutation) (.preparation .mutationMismatch)
  ensure (prepared.identity.base = base.elim .newFile .fromContent) (.preparation .baseMismatch)
  if prepared.contentChanged then
    ensure (prepared.content.manifestKey = match publisher.context with
      | some context => publisher.repository.objectKey context prepared.content.fileId
          (.manifest prepared.identity prepared.attempt prepared.content.generation)
      | none => publisher.repository.keys.manifest prepared.content.fileId prepared.identity
          prepared.attempt) (.preparation .keyMismatch)
  else return ()

/-- `validate_context_preparation` (publisher.rs:467), and the check of the file where there is no
context (publisher.rs:122, 164). -/
def validateContextPreparation (prepared : PreparedContent) : Except (StorageError E) Unit :=
  match publisher.context with
  | none =>
    ensure (prepared.content.fileId = publisher.fileId) (.corruption (.identityMismatch "file"))
  | some context => do
    Repository.validateContext publisher.fileId prepared.content.method context
    ensure (prepared.content.fileId = publisher.fileId ∧ prepared.contextBinding = context.binding)
      (.representation .contextMismatch)

/-- publisher.rs:483. -/
def resolveAmbiguous (desired : FileHead) : TargetProg E Publication := do
  let unknown : StorageError E := .ambiguous .headPublication publisher.headKey
  match ← getObject publisher.headKey publisher.repository.limits.maxObjectBytes with
  | .error _ | .ok none => .fail unknown
  | .ok (some object) =>
    match decodeHead publisher.repository.crypto object.bytes publisher.repository.limits with
    | .error _ => .fail unknown
    | .ok head =>
      if head = desired then do
        let (content, preparation) ← (publisher.loadContent head).mapErr fun _ => unknown
        return .published ⟨content, desired.mutationId, preparation.identity.fingerprint,
          preparation.attempt, object.version⟩
      else .fail unknown

/-- The context that `publish_head` validates the content with. -/
def contextFor (content : ContentRef) : FileCryptoContext :=
  publisher.context.getD (.plainForFile content.fileId content.method)

/-- publisher.rs:379. -/
def publishHead (mutation : MutationId) (prepared : PreparedContent) (expected : Option ObjectVersion) :
    TargetProg E Publication := do
  let content := prepared.content
  let _ ← (publisher.repository.loadManifest content (publisher.contextFor content)).handle
    publisher.repository.serve
  let desired : FileHead :=
    ⟨publisher.fileId, content.generation, content.manifestKey, content.manifestDigest, mutation⟩
  let bytes ← Prog.lift (fromPersistent
    (encodeHead publisher.repository.crypto desired publisher.repository.limits))
  match ← swapObject publisher.headKey expected bytes with
  | .error source => .fail (.target ⟨.compareExchange, publisher.headKey, source⟩)
  | .ok (.replaced version) =>
    return .published
      ⟨content, mutation, prepared.identity.fingerprint, prepared.attempt, version⟩
  | .ok (.conflict _) => return .conflict
  | .ok .ambiguous => publisher.resolveAmbiguous desired

/-- `create` and `create_with_context` (publisher.rs:115, 137). -/
def create (mutation : MutationId) (prepared : PreparedContent) : TargetProg E Publication := do
  Prog.lift (publisher.validateContextPreparation prepared)
  Prog.lift (ensure (prepared.content.generation = 1) (.format (.nonCanonical "initial generation")))
  Prog.lift (publisher.validatePreparation mutation prepared none)
  publisher.publishHead mutation prepared none

/-- `replace` and `replace_with_context` (publisher.rs:157, 199); the publisher is that of the file of
`expected`. -/
def replace (expected : PublishedContent) (mutation : MutationId) (prepared : PreparedContent) :
    TargetProg E Publication := do
  Prog.lift (publisher.validateContextPreparation prepared)
  Prog.lift (publisher.validatePreparation mutation prepared (some expected.content))
  if expected.mutationId = mutation then
    if expected.fingerprint = prepared.identity.fingerprint then return .published expected
    else .fail (.preparation .fingerprintMismatch)
  else do
    let next ← Prog.lift (okOr (checkedAdd expected.content.generation 1)
      (.format (.arithmeticOverflow "content generation")))
    Prog.lift (ensure (prepared.content.generation = next)
      (.format (.nonCanonical "replacement generation")))
    Prog.lift (ensure (prepared.contentChanged = true) (.preparation .unchangedPublication))
    publisher.publishHead mutation prepared (some expected.version)

/-- The head that `mutate_rebased` starts from. -/
def loadRequired : TargetProg E PublishedContent := do
  match ← publisher.load with
  | some current => return current
  | none => .fail (.missing .head publisher.headKey)

/-- The checks of one round of `mutate_rebased` before the swap. -/
def validateRound (mutation : MutationId) (current : PublishedContent) (prepared : PreparedContent) :
    Except (StorageError E) Unit := do
  if publisher.context.isSome then publisher.validateContextPreparation prepared
  publisher.validatePreparation mutation prepared (some current.content)

/-- Every round has to prepare the same operation (`mutate_rebased`). -/
def checkRepeated (fingerprint : Option Digest) (prepared : PreparedContent) :
    Except (StorageError E) Unit :=
  match fingerprint with
  | some expected =>
    ensure (expected = prepared.identity.fingerprint) (.preparation .fingerprintMismatch)
  | none => .ok ()

/-- One round of the loop of `mutate_rebased`: the version to return, or after a
conflict the fingerprint that the next round has to repeat. -/
def rebaseRound (mutation : MutationId) (prepare : ContentRef → UInt32 → TargetProg E PreparedContent)
    (conflicts : UInt32) (fingerprint : Option Digest) (current : PublishedContent) :
    TargetProg E (PublishedContent ⊕ Digest) := do
  let prepared ← prepare current.content conflicts
  Prog.lift (publisher.validateRound mutation current prepared)
  if current.mutationId = mutation then
    if current.fingerprint = prepared.identity.fingerprint then return .inl current
    else .fail (.preparation .fingerprintMismatch)
  else do
    Prog.lift (checkRepeated fingerprint prepared)
    if prepared.contentChanged = false then return .inl current
    else do
      match ← publisher.replace current mutation prepared with
      | .published published => return .inl published
      | .conflict => return .inr prepared.identity.fingerprint

/-- The loop of `mutate_rebased`; `rounds` is how often it may still retry. -/
def rebase (mutation : MutationId) (prepare : ContentRef → UInt32 → TargetProg E PreparedContent) :
    Nat → UInt32 → Option Digest → PublishedContent → TargetProg E PublishedContent
  | 0, conflicts, fingerprint, current => do
    match ← publisher.rebaseRound mutation prepare conflicts fingerprint current with
    | .inl published => return published
    | .inr _ => .fail (.conflict (conflicts + 1))
  | rounds + 1, conflicts, fingerprint, current => do
    match ← publisher.rebaseRound mutation prepare conflicts fingerprint current with
    | .inl published => return published
    | .inr repeated => do
      let current ← publisher.loadRequired
      rebase mutation prepare rounds (conflicts + 1) (some repeated) current

/-- `mutate_rebased` and `mutate_rebased_with_context` (publisher.rs:248, 309): a conflict beyond
`max_publish_retries` is an error. -/
def mutateRebased (mutation : MutationId)
    (prepare : ContentRef → UInt32 → TargetProg E PreparedContent) : TargetProg E PublishedContent := do
  let current ← publisher.loadRequired
  publisher.rebase mutation prepare publisher.repository.limits.maxPublishRetries.toNat 0 none current

end Publisher

end W9pt.Storage

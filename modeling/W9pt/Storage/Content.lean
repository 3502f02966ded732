import W9pt.Ids
import W9pt.Lib.Parser

/-!
# Content references and prepared content (`w9pt-fs-storage/src/ids.rs`, `repository.rs`)

A file's bytes are immutable: an operation prepares a new version and the version is named by a
`ContentRef`. `BaseContentIdentity` is what a preparation remembers of the version it started
from, `PreparedContent` what it hands to the metadata commit.
-/

namespace W9pt.Storage

open Lib

/-- Persisted layout of one file version (config.rs:16). -/
inductive StorageMethod where
  | raw | blockSplit
deriving DecidableEq

/-- What `ObjectKey::new` asks of a string: non-empty and without ASCII control characters
(ids.rs:67). -/
def PrintableKey (text : Bytes) : Prop := text ≠ [] ∧ ∀ b ∈ text, ¬ (b < 0x20 ∨ b = 0x7f)

-- by numbers: deciding the bounded quantifier over bytes is slow to evaluate
theorem printableKey_iff (text : Bytes) :
    (text ≠ [] ∧ text.all (fun b => 0x20 ≤ b.toNat && b.toNat != 0x7f) = true) ↔ PrintableKey text := by
  simp [PrintableKey, List.all_eq_true, UInt8.lt_iff_toNat_lt, ← UInt8.toNat_inj]

instance (text : Bytes) : Decidable (PrintableKey text) := decidable_of_iff _ (printableKey_iff text)

/-- Target-facing key text, as its UTF-8 bytes (ids.rs:63). -/
@[ext] structure ObjectKey where
  text : Bytes
  utf8 : isUtf8 text = true
  printable : PrintableKey text
deriving DecidableEq

/-- Portable reference to one immutable version (ids.rs:176). Generations start at one. -/
@[ext] structure ContentRef where
  fileId : FileId
  generation : UInt64
  logicalSize : UInt64
  manifestKey : ObjectKey
  manifestDigest : Digest
  method : StorageMethod
  generation_ne : generation ≠ 0

instance : DecidableEq ContentRef := fun _ _ => decidable_of_iff _ ContentRef.ext_iff.symm

/-- Identity of the version an operation was prepared against (ids.rs:281). -/
@[ext] structure BaseContentIdentity where
  generation : UInt64
  manifestDigest : Digest
deriving DecidableEq

namespace BaseContentIdentity

/-- ids.rs:288. -/
def newFile : BaseContentIdentity := ⟨0, 0⟩

/-- ids.rs:294. -/
def fromContent (content : ContentRef) : BaseContentIdentity :=
  ⟨content.generation, content.manifestDigest⟩

/-- ids.rs:320. -/
def isNewFile (base : BaseContentIdentity) : Bool :=
  base.generation == 0 && base.manifestDigest == 0

end BaseContentIdentity

/-- Identity bound into every immutable preparation key (ids.rs:349). -/
structure PreparationIdentity where
  mutationId : MutationId
  base : BaseContentIdentity
  fingerprint : Digest
deriving DecidableEq

/-- Nonsecret binding of a preparation to its committed file context (representation/mod.rs:221). -/
structure ContentContextBinding where
  fileId : FileId
  contextId : ContentContextId
  policyFormat : UInt16
  policyBytes : Bytes
  keyCommitment : Option Digest
  contextRevision : UInt64
deriving DecidableEq

/-- Result of preparing immutable content before publication (ids.rs:491). The constructor is
private to the crate: a preparation that changed nothing hands on the version it was given
(`base.clone()`, layout/raw.rs:80, 104, 195, layout/block_split.rs:92, 117, 515), which the source does
not keep as a field. -/
structure PreparedContent where
  content : ContentRef
  contentChanged : Bool
  identity : PreparationIdentity
  attempt : UInt32
  contextBinding : ContentContextBinding
  /-- The version that was handed on. -/
  base : Option ContentRef
  unchanged : contentChanged = false → base = some content
  base_identity : ∀ version ∈ base, .fromContent version = identity.base
deriving DecidableEq

theorem PreparedContent.fromContent_unchanged {prepared : PreparedContent}
    (h : prepared.contentChanged = false) : .fromContent prepared.content = prepared.identity.base :=
  prepared.base_identity _ (prepared.unchanged h)

end W9pt.Storage

import W9pt.Lib.Machine

/-!
# Sixteen-byte identities and digests

The `fixed_id!` newtypes over `[u8; 16]` (`w9pt-fs-state/src/ids.rs`) and the `FileId`, `MutationId`
and `ContentContextId` of `w9pt-fs-storage/src/ids.rs` are one type indexed by what it identifies.
-/

namespace W9pt

/-- Which of the sixteen-byte identities a `FixedId` is. -/
inductive IdKind where
  | filesystem | inode | openInstance | lock | lease | leaseOperation | writerScope
  | writerIncarnation | clientIncarnation | xattrStaging | file | mutation | contentContext

/-- A sixteen-byte identity; the bits are its canonical big-endian bytes, so the derived `Ord` of
the Rust array is the order of `bits.toNat`. -/
structure FixedId (kind : IdKind) where
  bits : BitVec 128
deriving DecidableEq

instance {kind : IdKind} : LawfulBEq (FixedId kind) := inferInstance

abbrev FilesystemId := FixedId .filesystem
abbrev InodeId := FixedId .inode
abbrev OpenId := FixedId .openInstance
abbrev LockId := FixedId .lock
abbrev LeaseId := FixedId .lease
abbrev LeaseOperationId := FixedId .leaseOperation
abbrev WriterScopeId := FixedId .writerScope
abbrev WriterIncarnationId := FixedId .writerIncarnation
abbrev ClientIncarnationId := FixedId .clientIncarnation
abbrev XattrStagingId := FixedId .xattrStaging
abbrev FileId := FixedId .file
abbrev MutationId := FixedId .mutation
abbrev ContentContextId := FixedId .contentContext

/-- ids.rs:52. -/
def WriterScopeId.filesystem : WriterScopeId := ⟨0⟩

def FixedId.rank {kind : IdKind} (id : FixedId kind) : Nat := id.bits.toNat

theorem FixedId.rank_inj {kind : IdKind} {a b : FixedId kind} : a.rank = b.rank ↔ a = b := by
  cases a; cases b
  simp [rank, BitVec.toNat_inj]

/-- A 256-bit digest (`w9pt-fs-storage/src/ids.rs:149`). -/
abbrev Digest := BitVec 256

end W9pt

import W9pt.Storage.Context

/-!
# Storage limits and geometry (`limits.rs`, `config.rs:6-12`, `representation/mod.rs:18-31`)

`usize` is the word of a 64-bit target, so every configured bound is a `UInt64`; the accessors give its
value. Amounts that are compared with a bound are natural numbers, and where the code adds or multiplies
them with `checked_` or `saturating_` operations so does the model.
-/

namespace W9pt.Storage

open Lib

/-! ## Geometry and overheads -/

/-- config.rs:6. -/
def blockSize : Nat := 32 * 1024

/-- config.rs:8. -/
def blockMapFanout : Nat := 128

/-- config.rs:12. -/
def blockMapMaxLevel : Nat := 6

/-- representation/mod.rs:29. -/
def rawPayloadMaxOverhead : Nat := 246

/-- representation/mod.rs:30. -/
def blockPayloadMaxOverhead : Nat := 254

/-- representation/mod.rs:31. -/
def payloadMinStoredBytes : Nat := 231

/-- representation/mod.rs:32. -/
def mapPageMinOverhead : Nat := 239

/-! ## Words -/

/-- `u64::MAX` and `usize::MAX`. -/
def wordMax : Nat := 2 ^ 64 - 1

/-- `u64::try_from(n).unwrap_or(u64::MAX)`. -/
def toWord (n : Nat) : UInt64 := UInt64.ofNat (min n wordMax)

def saturatingAdd (a b : Nat) : Nat := min (a + b) wordMax

def saturatingMul (a b : Nat) : Nat := min (a * b) wordMax

/-! ## Limits -/

/-- Configurable values (limits.rs:7). -/
structure StorageLimitValues where
  maxRawFileBytes : UInt64 := 16 * 1024 * 1024
  maxManifestBytes : UInt64 := 4 * 1024
  maxObjectBytes : UInt64 := 64 * 1024 * 1024
  maxMapPageBytes : UInt64 := 256 * 1024
  maxMaterializedBlocks : UInt64 := 2 ^ 49
  maxMapWorkingBytes : UInt64 := 8 * 1024 * 1024
  maxRepresentationWorkingBytes : UInt64 := 64 * 1024 * 1024
  maxMapPageReads : UInt32 := 4096
  maxMapPageWrites : UInt32 := 2048
  maxReadBytes : UInt64 := 8 * 1024 * 1024
  maxWriteBytes : UInt64 := 8 * 1024 * 1024
  maxPublishRetries : UInt32 := 8
  maxKeyBytes : UInt64 := 1024

/-- The checks of `StorageLimits::new` in their order. -/
def StorageLimitValues.validate (v : StorageLimitValues) : Except ConfigurationError Unit := do
  ensure (v.maxRawFileBytes ≠ 0) (.zero "max_raw_file_bytes")
  ensure (v.maxManifestBytes ≠ 0) (.zero "max_manifest_bytes")
  ensure (v.maxObjectBytes ≠ 0) (.zero "max_object_bytes")
  ensure (v.maxMapPageBytes ≠ 0) (.zero "max_map_page_bytes")
  ensure (v.maxMaterializedBlocks ≠ 0) (.zero "max_materialized_blocks")
  ensure (v.maxMapWorkingBytes ≠ 0) (.zero "max_map_working_bytes")
  ensure (v.maxRepresentationWorkingBytes ≠ 0) (.zero "max_representation_working_bytes")
  ensure (v.maxMapPageReads ≠ 0) (.zero "max_map_page_reads")
  ensure (v.maxMapPageWrites ≠ 0) (.zero "max_map_page_writes")
  ensure (v.maxReadBytes ≠ 0) (.zero "max_read_bytes")
  ensure (v.maxWriteBytes ≠ 0) (.zero "max_write_bytes")
  ensure (v.maxKeyBytes ≠ 0) (.zero "max_key_bytes")
  ensure (v.maxManifestBytes ≤ v.maxObjectBytes)
    (.inconsistent "max_manifest_bytes" "max_object_bytes")
  ensure (v.maxMapPageBytes ≤ v.maxObjectBytes)
    (.inconsistent "max_map_page_bytes" "max_object_bytes")
  ensure (v.maxMaterializedBlocks.toNat ≤ 2 ^ 49) (.tooLarge "max_materialized_blocks" (2 ^ 49))
  ensure (v.maxMapPageBytes.toNat * 2 ≤ wordMax) (.tooLarge "max_map_page_bytes" (toWord wordMax))
  ensure (v.maxMapPageBytes.toNat * 2 ≤ v.maxMapWorkingBytes.toNat)
    (.inconsistent "two mapping-page buffers" "max_map_working_bytes")
  ensure (v.maxRawFileBytes.toNat + rawPayloadMaxOverhead ≤ v.maxObjectBytes.toNat)
    (.inconsistent "max_raw_file_bytes" "max_object_bytes minus envelope")
  ensure (blockSize + blockPayloadMaxOverhead ≤ v.maxObjectBytes.toNat)
    (.inconsistent "current block object" "max_object_bytes")
  ensure (v.maxPublishRetries ≤ 1024) (.tooLarge "max_publish_retries" 1024)

/-- Accepted limits (limits.rs:58). -/
structure StorageLimits where
  values : StorageLimitValues
  accepted : values.validate = .ok ()

/-- `StorageLimits::default` (limits.rs:37). -/
def StorageLimits.standard : StorageLimits := ⟨{}, by decide⟩

namespace StorageLimits

variable (limits : StorageLimits)

def maxRawFileBytes : Nat := limits.values.maxRawFileBytes.toNat
def maxManifestBytes : Nat := limits.values.maxManifestBytes.toNat
def maxObjectBytes : Nat := limits.values.maxObjectBytes.toNat
def maxMapPageBytes : Nat := limits.values.maxMapPageBytes.toNat
def maxMaterializedBlocks : Nat := limits.values.maxMaterializedBlocks.toNat
def maxMapWorkingBytes : Nat := limits.values.maxMapWorkingBytes.toNat
def maxRepresentationWorkingBytes : Nat := limits.values.maxRepresentationWorkingBytes.toNat
def maxMapPageReads : Nat := limits.values.maxMapPageReads.toNat
def maxMapPageWrites : Nat := limits.values.maxMapPageWrites.toNat
def maxPublishRetries : UInt32 := limits.values.maxPublishRetries
def maxKeyBytes : Nat := limits.values.maxKeyBytes.toNat

/-- What acceptance says of the bounds that contain one another. -/
theorem consistent :
    limits.maxManifestBytes ≤ limits.maxObjectBytes ∧
    limits.maxMapPageBytes ≤ limits.maxObjectBytes ∧
    limits.maxMaterializedBlocks ≤ 2 ^ 49 ∧
    limits.maxRawFileBytes + rawPayloadMaxOverhead ≤ limits.maxObjectBytes ∧
    blockSize + blockPayloadMaxOverhead ≤ limits.maxObjectBytes := by
  have h := limits.accepted
  simp only [StorageLimitValues.validate, bind_eq_ok, ensure_eq_ok] at h
  obtain ⟨_, -, _, -, _, -, _, -, _, -, _, -, _, -, _, -, _, -, _, -, _, -, _, -, _, hmanifest, _,
    hpage, _, hblocks, _, -, _, -, _, hraw, _, hblock, -⟩ := h
  exact ⟨UInt64.le_iff_toNat_le.1 hmanifest, UInt64.le_iff_toNat_le.1 hpage, hblocks, hraw, hblock⟩

theorem maxObjectBytes_lt : limits.maxObjectBytes < 2 ^ 64 := limits.values.maxObjectBytes.toNat_lt

end StorageLimits

/-! ## Limit errors -/

/-- `LimitError::new` with amounts converted to `u64` (limits.rs:338). -/
def LimitError.new (kind : LimitKind) (actual limit : Nat) : LimitError :=
  ⟨kind, toWord actual, toWord limit⟩

/-- `if actual > limit { return Err(LimitError::new(..)) }`. -/
def requireWithin (kind : LimitKind) (actual limit : Nat) : Except LimitError Unit :=
  ensure (actual ≤ limit) (.new kind actual limit)

@[simp] theorem requireWithin_eq_ok {kind : LimitKind} {actual limit : Nat} {u : Unit} :
    requireWithin kind actual limit = .ok u ↔ actual ≤ limit := ensure_eq_ok

end W9pt.Storage

import W9pt.Protocol.Types
import W9pt.State.Lease

/-!
# Contexts, grants and limits of the engine (`w9pt-fs`)
-/

namespace W9pt.Engine

open Lib State Protocol

/-! ## Limits -/

/-- The one bound that is read here (limits.rs:10), with its check in `EngineLimits::new`. -/
structure EngineLimits where
  maxFingerprintBytes : Nat
  fingerprintBytes_pos : 0 < maxFingerprintBytes

def EngineLimits.default : EngineLimits := ⟨1048576, by decide⟩

/-- limits.rs:338. -/
inductive EngineLimitKind where
  | fingerprintBytes
deriving DecidableEq

/-- limits.rs:363. -/
structure EngineLimitError where
  kind : EngineLimitKind
  actual : Nat
  maximum : Nat
deriving DecidableEq

/-- `require_bytes` and `require_count` (limits.rs:384-409). -/
def requireWithin (kind : EngineLimitKind) (actual maximum : Nat) : Except EngineLimitError Unit :=
  ensure (actual ≤ maximum) ⟨kind, actual, maximum⟩

/-! ## Who asks, and under which grant -/

/-- error.rs:38. -/
inductive ExecutionContextError where
  | missingMutationId | missingWriterFence | missingTimestamp | readOnlyPublication
deriving DecidableEq

/-- Identity, time, retention and writer authority that the caller supplies (execution.rs:11). -/
@[ext] structure ExecutionContext where
  clientIncarnation : ClientIncarnationId
  mutationId : Option MutationId
  retention : MutationRetention
  fence : Option WriterFence
  timestamp : Option UnixTimestamp

/-- The authorization of one resolved export and principal (export.rs:81). -/
@[ext] structure ExportGrant where
  filesystemId : FilesystemId
  rootInodeId : InodeId
  principal : PrincipalId
  primaryGroup : GroupId
  supplementaryGroups : List GroupId
  numericUid : UInt32
  numericGid : UInt32
  privileged : Bool
  readOnly : Bool
  policyGeneration : UInt64
  capabilityCeiling : CapabilitySet
  /-- `ExportGrant::new` refuses generation zero. -/
  generation_ne : policyGeneration ≠ 0
  /-- It sorts the groups, and drops duplicates and the primary group. -/
  ordered : supplementaryGroups.Pairwise fun a b => a.bytes < b.bytes
  others : primaryGroup ∉ supplementaryGroups

end W9pt.Engine

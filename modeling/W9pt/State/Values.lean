import W9pt.Ids
import W9pt.Lib.Fallible

/-!
# Checked counters, bounded values and limits (`w9pt-fs-state`)

| here | there |
|---|---|
| `Counter` | the `nonzero_counter!` newtypes over `u64` (`values.rs:5-70`) |
| `DirectoryCookie`, `LeaseDeadline` | the counters that admit zero (`values.rs:95-165`) |
| `BoundedBytes`, `EntryName` | `bounded_bytes!` and `EntryName` (`bounded.rs:7-95`) |
| `StateLimits` | `StateLimits::new` (`limits.rs`) |

The Rust types keep their fields private, so a value exists only if a checked constructor accepted
it. Here the check is a field of the structure.
-/

namespace W9pt.State

open Lib

/-! ## Nonzero counters -/

/-- Which of the nonzero persistent counters a `Counter` is. -/
inductive CounterKind where
  | stateRevision | recordRevision | fencingToken | inodeGeneration | dataGeneration
  | directoryGeneration | lockGeneration | qidPath

/-- `stringify!($name)` of the counter type, the `field` of its errors. -/
def CounterKind.field : CounterKind → String
  | .stateRevision => "StateRevision"
  | .recordRevision => "RecordRevision"
  | .fencingToken => "FencingToken"
  | .inodeGeneration => "InodeGeneration"
  | .dataGeneration => "DataGeneration"
  | .directoryGeneration => "DirectoryGeneration"
  | .lockGeneration => "LockGeneration"
  | .qidPath => "QidPath"

/-- A monotonic value cannot be incremented without wrapping (values.rs:279). -/
structure CounterOverflow where
  field : String

/-- A nonzero persistent `u64`. -/
@[ext] structure Counter (kind : CounterKind) where
  get : UInt64
  nonzero : get ≠ 0
deriving DecidableEq

abbrev StateRevision := Counter .stateRevision
abbrev RecordRevision := Counter .recordRevision
abbrev FencingToken := Counter .fencingToken
abbrev InodeGeneration := Counter .inodeGeneration
abbrev DataGeneration := Counter .dataGeneration
abbrev DirectoryGeneration := Counter .directoryGeneration
abbrev LockGeneration := Counter .lockGeneration
abbrev QidPath := Counter .qidPath

namespace Counter

variable {kind : CounterKind}

/-- `new` (values.rs:13): zero is rejected. -/
def new? (kind : CounterKind) (value : UInt64) : Option (Counter kind) :=
  if h : value ≠ 0 then some ⟨value, h⟩ else none

theorem one_ne : (1 : UInt64) ≠ 0 := by decide

/-- The placeholder `new(1)` that callers unwrap. -/
def one (kind : CounterKind) : Counter kind := ⟨1, one_ne⟩

theorem toNat_pos (c : Counter kind) : 0 < c.get.toNat := by
  rcases Nat.eq_zero_or_pos c.get.toNat with h | h
  · exact absurd (UInt64.toNat_inj.1 (by simpa using h)) c.nonzero
  · exact h

/-- `checked_advance` (values.rs:73), and `checked_next` at `count = 1` (values.rs:31). -/
def checkedAdvance (c : Counter kind) (count : UInt64) : Except CounterOverflow (Counter kind) :=
  if h : c.get.toNat + count.toNat < 2 ^ 64 then
    .ok ⟨c.get + count, fun hz => by
      have hpos := c.toNat_pos
      have := congrArg UInt64.toNat hz
      rw [UInt64.toNat_add, Nat.mod_eq_of_lt h] at this
      simp at this
      omega⟩
  else .error ⟨kind.field⟩

def checkedNext (c : Counter kind) : Except CounterOverflow (Counter kind) := c.checkedAdvance 1

theorem checkedAdvance_eq_ok {c d : Counter kind} {n : UInt64} :
    c.checkedAdvance n = .ok d ↔ d.get.toNat = c.get.toNat + n.toNat := by
  have hd := d.get.toNat_lt
  unfold checkedAdvance
  split
  · rename_i h
    have hsum : (c.get + n).toNat = c.get.toNat + n.toNat := by
      rw [UInt64.toNat_add, Nat.mod_eq_of_lt h]
    rw [Except.ok.injEq, Counter.ext_iff, ← UInt64.toNat_inj, hsum]
    exact eq_comm
  · simp only [reduceCtorEq, false_iff]
    omega

theorem checkedNext_eq_ok {c d : Counter kind} :
    c.checkedNext = .ok d ↔ d.get.toNat = c.get.toNat + 1 := checkedAdvance_eq_ok

end Counter

/-! ## Counters and times that admit zero -/

/-- Stable enumeration cursor; zero is `START` (values.rs:99). -/
structure DirectoryCookie where
  get : UInt64
deriving DecidableEq

def DirectoryCookie.start : DirectoryCookie := ⟨0⟩

/-- values.rs:126. -/
def DirectoryCookie.checkedAdvance (c : DirectoryCookie) (count : UInt64) :
    Except CounterOverflow DirectoryCookie :=
  match checkedAdd c.get count with
  | some value => .ok ⟨value⟩
  | none => .error ⟨"DirectoryCookie"⟩

/-- Adapter-authoritative lease time in ticks (values.rs:138). -/
structure LeaseDeadline where
  ticks : UInt64
deriving DecidableEq

/-- Positive lease duration (values.rs:164). -/
structure LeaseDuration where
  ticks : UInt64
  nonzero : ticks ≠ 0

/-- values.rs:152. -/
def LeaseDeadline.checkedAdd (deadline : LeaseDeadline) (duration : LeaseDuration) :
    Except CounterOverflow LeaseDeadline :=
  match Lib.checkedAdd deadline.ticks duration.ticks with
  | some value => .ok ⟨value⟩
  | none => .error ⟨"LeaseDeadline"⟩

/-- Caller-defined retention horizon (values.rs:83). -/
structure MutationRetention where
  horizon : UInt64
deriving DecidableEq

/-- Exact caller-supplied timestamp (values.rs:186). -/
structure UnixTimestamp where
  seconds : Int64
  nanoseconds : UInt32
  canonical : nanoseconds < 1000000000
deriving DecidableEq

def UnixTimestamp.epoch : UnixTimestamp := ⟨0, 0, by decide⟩

/-- Digest of the complete semantic request (values.rs:217). -/
structure RequestFingerprint where
  bytes : Digest
deriving DecidableEq

/-! ## Limits -/

/-- Bounded resource categories (limits.rs:368). -/
inductive StateLimitKind where
  | entryName | xattrName | xattrValue | principal | group | symlink | contentPolicy
  | wrappedContentKey | contentMetadata | mutationResult | readQueries | scanItems | scanBytes
  | preconditions | changes | changeKeys | transactionBytes | locks | openPins | xattrs
  | leaseDuration | leaseOperations | changeHistory
deriving DecidableEq

/-- `StateLimitError` (limits.rs). -/
structure StateLimitError where
  kind : StateLimitKind
  actual : Nat
  maximum : Nat
deriving DecidableEq

/-- `StateLimitValues` with its defaults (limits.rs:8-92). -/
structure StateLimitValues where
  maxEntryNameBytes : Nat := 255
  maxXattrNameBytes : Nat := 255
  maxXattrValueBytes : Nat := 64 * 1024
  maxPrincipalBytes : Nat := 1024
  maxGroupBytes : Nat := 1024
  maxSymlinkBytes : Nat := 16 * 1024
  maxContentPolicyBytes : Nat := 512
  maxWrappedContentKeyBytes : Nat := 512
  maxContentMetadataBytes : Nat := 2 * 1024
  maxMutationResultBytes : Nat := 1024 * 1024
  maxReadQueries : Nat := 256
  maxDirectoryAncestorDepth : Nat := 1024
  maxScanItems : Nat := 4096
  maxScanBytes : Nat := 8 * 1024 * 1024
  maxPreconditions : Nat := 1024
  maxChanges : Nat := 1024
  maxChangeKeys : Nat := 1025
  maxTransactionBytes : Nat := 8 * 1024 * 1024
  maxLocksPerRequest : Nat := 1024
  maxOpenPinsPerRequest : Nat := 1024
  maxXattrsPerRequest : Nat := 1024
  maxLeaseDurationTicks : Nat := 86400000000000
  maxLeaseOperationHistory : Nat := 100000
  maxChangeHistoryCommits : Nat := 100000

/-- What `StateLimits::new` checks: every bound is positive, and the bounds
that must be contained in another are. -/
def StateLimitValues.Valid (v : StateLimitValues) : Prop :=
  (∀ n ∈ [v.maxEntryNameBytes, v.maxXattrNameBytes, v.maxXattrValueBytes, v.maxPrincipalBytes,
      v.maxGroupBytes, v.maxSymlinkBytes, v.maxContentPolicyBytes, v.maxWrappedContentKeyBytes,
      v.maxContentMetadataBytes, v.maxMutationResultBytes, v.maxReadQueries,
      v.maxDirectoryAncestorDepth, v.maxScanItems, v.maxScanBytes, v.maxPreconditions,
      v.maxChanges, v.maxChangeKeys, v.maxTransactionBytes, v.maxLocksPerRequest,
      v.maxOpenPinsPerRequest, v.maxXattrsPerRequest, v.maxLeaseDurationTicks,
      v.maxLeaseOperationHistory, v.maxChangeHistoryCommits], 0 < n) ∧
  v.maxMutationResultBytes ≤ v.maxTransactionBytes ∧
  v.maxContentPolicyBytes ≤ v.maxContentMetadataBytes ∧
  v.maxWrappedContentKeyBytes ≤ v.maxContentMetadataBytes

instance (v : StateLimitValues) : Decidable v.Valid := by unfold StateLimitValues.Valid; infer_instance

structure StateLimits extends StateLimitValues where
  valid : toStateLimitValues.Valid

def StateLimits.default : StateLimits := ⟨{}, by decide⟩

/-- `require_bytes` and `require_count` (limits.rs:305). -/
def requireAtMost (kind : StateLimitKind) (actual maximum : Nat) : Except StateLimitError Unit :=
  ensure (actual ≤ maximum) ⟨kind, actual, maximum⟩

/-! ## Bounded byte strings -/

/-- Which `bounded_bytes!` type a `BoundedBytes` is. -/
inductive BoundedKind where
  | xattrName | principal | group | symlink

/-- bounded.rs:217. -/
inductive BoundedValueError where
  | empty (field : String)
  | forbiddenByte (field : String) (byte : UInt8)
  | reservedComponent
  | zeroTag (field : String)
  | limit (error : StateLimitError)

/-- A nonempty byte string without NUL. -/
@[ext] structure BoundedBytes (kind : BoundedKind) where
  bytes : Bytes
  nonempty : bytes ≠ []
  noNul : (0 : UInt8) ∉ bytes
deriving DecidableEq

abbrev XattrName := BoundedBytes .xattrName
abbrev PrincipalId := BoundedBytes .principal
abbrev GroupId := BoundedBytes .group
abbrev SymlinkTarget := BoundedBytes .symlink

def BoundedKind.field : BoundedKind → String
  | .xattrName => "XattrName"
  | .principal => "PrincipalId"
  | .group => "GroupId"
  | .symlink => "SymlinkTarget"

def BoundedKind.limitKind : BoundedKind → StateLimitKind
  | .xattrName => .xattrName
  | .principal => .principal
  | .group => .group
  | .symlink => .symlink

def BoundedKind.maximum (limits : StateLimits) : BoundedKind → Nat
  | .xattrName => limits.maxXattrNameBytes
  | .principal => limits.maxPrincipalBytes
  | .group => limits.maxGroupBytes
  | .symlink => limits.maxSymlinkBytes

/-- The `new` of `bounded_bytes!` (bounded.rs:15). -/
def BoundedBytes.new (kind : BoundedKind) (value : Bytes) (limits : StateLimits) :
    Except BoundedValueError (BoundedBytes kind) :=
  if h₁ : value = [] then .error (.empty kind.field)
  else if h₂ : (0 : UInt8) ∈ value then .error (.forbiddenByte kind.field 0)
  else do
    mapErr .limit (requireAtMost kind.limitKind value.length (kind.maximum limits))
    .ok ⟨value, h₁, h₂⟩

/-- A canonical directory component: nonempty, without NUL or `/`, and neither `.` nor `..`. -/
@[ext] structure EntryName where
  bytes : Bytes
  nonempty : bytes ≠ []
  noNul : (0 : UInt8) ∉ bytes
  noSlash : (0x2f : UInt8) ∉ bytes
  notReserved : bytes ≠ [0x2e] ∧ bytes ≠ [0x2e, 0x2e]
deriving DecidableEq

/-- bounded.rs:67. -/
def EntryName.new (value : Bytes) (limits : StateLimits) : Except BoundedValueError EntryName :=
  if h₁ : value = [] then .error (.empty "EntryName")
  else if h₂ : (0 : UInt8) ∈ value then .error (.forbiddenByte "EntryName" 0)
  else if h₃ : (0x2f : UInt8) ∈ value then .error (.forbiddenByte "EntryName" 0x2f)
  else if h₄ : value = [0x2e] ∨ value = [0x2e, 0x2e] then .error .reservedComponent
  else do
    mapErr .limit (requireAtMost .entryName value.length limits.maxEntryNameBytes)
    .ok ⟨value, h₁, h₂, h₃, not_or.1 h₄⟩

/-- Byte-exact inline extended attribute; empty is valid (bounded.rs:98). -/
structure XattrValue where
  bytes : Bytes
deriving DecidableEq

/-- Exact bounded terminal result retained for replay (bounded.rs:166): nonzero kind and format
tags and opaque bytes. -/
structure MutationResult where
  kind : UInt16
  format : UInt16
  bytes : Bytes
  kind_ne : kind ≠ 0
  format_ne : format ≠ 0
deriving DecidableEq

end W9pt.State

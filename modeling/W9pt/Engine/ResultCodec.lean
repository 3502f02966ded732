import W9pt.Engine.Values

/-!
# Mutation fingerprints and retained results (`w9pt-fs/src/result_codec.rs`)

A mutation is identified by the digest of a byte string that spells out who asks, under which grant
and for what, without anything the engine allocates on the way. The string is written field by field
under a bound; every field has a fixed width or says its length.

| here | there |
|---|---|
| `write` | `FingerprintWriter` (result_codec.rs:217-299) |
| `operationFields` | `encode_operation` (result_codec.rs:110) |
| `mutationFingerprint` | `mutation_fingerprint` (result_codec.rs:58) |
| `mutationFingerprint_identifies` | — |
-/

namespace W9pt.Engine

open Lib State Protocol

/-! ## Writing fields -/

/-- result_codec.rs:34. -/
inductive FingerprintError where
  | context (error : ExecutionContextError)
  | notFirstSliceMutation
  | limit (error : EngineLimitError)
  | arithmetic
deriving DecidableEq

/-- `FingerprintWriter::bytes` (result_codec.rs:234). -/
def put (limits : EngineLimits) (buffer value : Bytes) : Except FingerprintError Bytes := do
  ensure (buffer.length + value.length < 2 ^ 64) .arithmetic
  mapErr .limit (requireWithin .fingerprintBytes (buffer.length + value.length)
    limits.maxFingerprintBytes)
  return buffer ++ value

/-- The other methods of `FingerprintWriter`, over `put`. -/
def write (limits : EngineLimits) (buffer : Bytes) : Field → Except FingerprintError Bytes
  | .fixed value => put limits buffer value
  | .count number => do
    ensure (number < 2 ^ 64) .arithmetic
    put limits buffer (leBytes 8 number)
  | .sized value => do
    ensure (value.length < 2 ^ 64) .arithmetic
    let buffer ← put limits buffer (leBytes 8 value.length)
    put limits buffer value

def u32Field (value : UInt32) : Field := .fixed (leBytes 4 value.toNat)

def u64Field (value : UInt64) : Field := .fixed (leBytes 8 value.toNat)

def idField {kind : IdKind} (id : FixedId kind) : Field := .fixed (idBytes id)

def handleField {kind : HandleKind} (handle : Handle kind) : Field :=
  .fixed (beBytes 16 handle.get.toNat)

def flagField (value : Bool) : Field := .fixed [if value then 1 else 0]

/-- `optional_open` and `optional_xattr` (result_codec.rs:280-298). -/
def optionalField {kind : HandleKind} : Option (Handle kind) → List Field
  | some handle => [.fixed [1], handleField handle]
  | none => [.fixed [0]]

/-! ## What is hashed -/

/-- The context of the request. -/
def contextFields (context : RequestContext) (client : ClientIncarnationId) (mutation : MutationId)
    (retention : MutationRetention) (fence : WriterFence) (time : UnixTimestamp) : List Field :=
  [.fixed ("w9pt-fs-mutation-v1\x00".toUTF8.data.toList), u64Field context.sessionId.get,
    .sized context.principal, .sized context.exportId, idField client, idField mutation,
    u64Field retention.horizon, idField fence.scope, idField fence.holder, idField fence.leaseId,
    u64Field fence.fencingToken.get, .fixed (leBytes 8 time.seconds.toBitVec.toNat),
    u32Field time.nanoseconds]

/-- The grant up to the number of its groups. -/
def grantFields (grant : ExportGrant) : List Field :=
  [idField grant.filesystemId, idField grant.rootInodeId, .sized grant.principal.bytes,
    .sized grant.primaryGroup.bytes, .count grant.supplementaryGroups.length]

/-- The groups. -/
def groupFields (grant : ExportGrant) : List Field :=
  grant.supplementaryGroups.map fun group => .sized group.bytes

/-- The rest of the grant. -/
def policyFields (grant : ExportGrant) : List Field :=
  [u32Field grant.numericUid, u32Field grant.numericGid, flagField grant.privileged,
    flagField grant.readOnly, u64Field grant.policyGeneration,
    .fixed (leBytes 16 grant.capabilityCeiling.bits.toNat)]

/-- `encode_operation` (result_codec.rs:108): the tag and the operands of a mutation of the first
slice. -/
def operationFields : FilesystemOperation → Option (UInt8 × List Field)
  | .release object openInstance xattr =>
    some (1, handleField object :: (optionalField openInstance ++ optionalField xattr))
  | .open object flags => some (2, [handleField object, u32Field flags.bits])
  | .create directory name flags mode gid =>
    some (3, [handleField directory, .sized name, u32Field flags.bits, u32Field mode, u32Field gid])
  | .mkdir directory name mode gid =>
    some (4, [handleField directory, .sized name, u32Field mode, u32Field gid])
  | .symlink directory name target gid =>
    some (5, [handleField directory, .sized name, .sized target, u32Field gid])
  | .write openInstance offset data =>
    some (6, [handleField openInstance, u64Field offset, .sized data])
  | .setattr object a =>
    some (7, [handleField object, u32Field a.valid.bits, u32Field a.mode, u32Field a.uid,
      u32Field a.gid, u64Field a.size, u64Field a.accessed.seconds, u64Field a.accessed.nanoseconds,
      u64Field a.modified.seconds, u64Field a.modified.nanoseconds])
  | .renameAt oldDirectory oldName newDirectory newName =>
    some (8, [handleField oldDirectory, .sized oldName, handleField newDirectory, .sized newName])
  | .unlinkAt directory name flags =>
    some (9, [handleField directory, .sized name, u32Field flags.bits])
  | .link directory target name =>
    some (10, [handleField directory, handleField target, .sized name])
  | _ => none

/-- The byte string that `mutation_fingerprint` hashes. -/
def mutationString (limits : EngineLimits) (request : FilesystemRequest) (execution : ExecutionContext)
    (grant : ExportGrant) : Except FingerprintError Bytes := do
  let mutation ← okOr execution.mutationId (.context .missingMutationId)
  let fence ← okOr execution.fence (.context .missingWriterFence)
  let time ← okOr execution.timestamp (.context .missingTimestamp)
  let buffer ← (contextFields request.context execution.clientIncarnation mutation execution.retention
    fence time ++ (grantFields grant ++ (groupFields grant ++ policyFields grant))).foldlM
      (write limits) []
  let (tag, operands) ← okOr (operationFields request.operation) .notFirstSliceMutation
  (.fixed [tag] :: operands).foldlM (write limits) buffer

/-- result_codec.rs:58. -/
def mutationFingerprint (blake3 : Bytes → Digest) (limits : EngineLimits) (request : FilesystemRequest)
    (execution : ExecutionContext) (grant : ExportGrant) :
    Except FingerprintError RequestFingerprint :=
  (mutationString limits request execution grant).map fun bytes => ⟨blake3 bytes⟩

/-! ## The string determines its fields -/

section Writing

variable {limits : EngineLimits} {buffer result : Bytes}

theorem put_eq_ok {value : Bytes} (h : put limits buffer value = .ok result) :
    result = buffer ++ value := by
  simp only [put, bind_eq_ok, pure_eq_ok] at h
  obtain ⟨_, -, _, -, rfl⟩ := h
  rfl

theorem write_eq_ok {field : Field} (h : write limits buffer field = .ok result) :
    result = buffer ++ field.encode ∧ field.Fits := by
  cases field with
  | fixed value => exact ⟨put_eq_ok h, trivial⟩
  | count number =>
    obtain ⟨_, hfits, hput⟩ := bind_eq_ok.1 h
    rw [ensure_eq_ok] at hfits
    exact ⟨put_eq_ok hput, hfits⟩
  | sized value =>
    obtain ⟨_, hfits, h⟩ := bind_eq_ok.1 h
    obtain ⟨_, hlength, hvalue⟩ := bind_eq_ok.1 h
    rw [ensure_eq_ok] at hfits
    rw [put_eq_ok hvalue, put_eq_ok hlength, List.append_assoc]
    exact ⟨rfl, hfits⟩

theorem foldlM_write {fields : List Field} (h : fields.foldlM (write limits) buffer = .ok result) :
    result = buffer ++ fields.flatMap Field.encode ∧ ∀ field ∈ fields, field.Fits := by
  induction fields generalizing buffer with
  | nil =>
    cases h
    exact ⟨(List.append_nil _).symm, nofun⟩
  | cons field fields ih =>
    obtain ⟨written, hwrite, hrest⟩ := foldlM_cons_eq_ok.1 h
    obtain ⟨rfl, hfits⟩ := write_eq_ok hwrite
    obtain ⟨rfl, hall⟩ := ih hrest
    exact ⟨by rw [List.flatMap_cons, List.append_assoc], List.forall_mem_cons.2 ⟨hfits, hall⟩⟩

end Writing

@[simp] theorem u32Field_inj {a b : UInt32} : u32Field a = u32Field b ↔ a = b := by
  rw [u32Field, u32Field, Field.fixed.injEq, u32_leBytes_inj]

@[simp] theorem u64Field_inj {a b : UInt64} : u64Field a = u64Field b ↔ a = b := by
  rw [u64Field, u64Field, Field.fixed.injEq, u64_leBytes_inj]

@[simp] theorem idField_inj {kind : IdKind} {a b : FixedId kind} : idField a = idField b ↔ a = b := by
  cases a
  cases b
  simp [idField, idBytes, bits_beBytes_inj]

@[simp] theorem handleField_inj {kind : HandleKind} {a b : Handle kind} :
    handleField a = handleField b ↔ a = b := by
  cases a
  cases b
  simp [handleField, bits_beBytes_inj]

@[simp] theorem flagField_inj {a b : Bool} : flagField a = flagField b ↔ a = b := by
  cases a <;> cases b <;> simp [flagField]

theorem optionalField_append_inj {kind : HandleKind} {a b : Option (Handle kind)} {s t : Bytes}
    (h : (optionalField a).flatMap Field.encode ++ s = (optionalField b).flatMap Field.encode ++ t) :
    a = b ∧ s = t := by
  cases a with
  | none =>
    cases b with
    | none => exact ⟨rfl, by simpa [optionalField, Field.encode] using h⟩
    | some b => simp [optionalField, Field.encode] at h
  | some a =>
    cases b with
    | none => simp [optionalField, Field.encode] at h
    | some b =>
      obtain ⟨hfields, rfl⟩ := Field.flatMap_append_inj (by simp [optionalField, handleField, Field.shape])
        (by simp [optionalField, handleField, Field.Fits]) (by simp [optionalField, handleField, Field.Fits]) h
      simp only [optionalField, List.cons.injEq, handleField_inj] at hfields
      rw [hfields.2.1]
      exact ⟨rfl, rfl⟩

theorem OpenFlags.bits_inj {a b : OpenFlags} : a.bits = b.bits ↔ a = b := by
  cases a
  cases b
  simp

theorem UnlinkFlags.bits_inj {a b : UnlinkFlags} : a.bits = b.bits ↔ a = b := by
  cases a
  cases b
  simp

theorem SetAttributes.fields_inj {a b : SetAttributes} : a.valid.bits = b.valid.bits ∧ a.mode = b.mode ∧
    a.uid = b.uid ∧ a.gid = b.gid ∧ a.size = b.size ∧ a.accessed.seconds = b.accessed.seconds ∧
    a.accessed.nanoseconds = b.accessed.nanoseconds ∧ a.modified.seconds = b.modified.seconds ∧
    a.modified.nanoseconds = b.modified.nanoseconds ↔ a = b := by
  obtain ⟨⟨_⟩, _, _, _, _, ⟨_, _⟩, ⟨_, _⟩⟩ := a
  obtain ⟨⟨_⟩, _, _, _, _, ⟨_, _⟩, ⟨_, _⟩⟩ := b
  simp [and_assoc]

/-- **An operation is determined by its tag and operands.** -/
theorem operationFields_inj {op op' : FilesystemOperation} {tag tag' : UInt8} {fs gs : List Field}
    (h : operationFields op = some (tag, fs)) (h' : operationFields op' = some (tag', gs))
    (hfs : ∀ f ∈ fs, f.Fits) (hgs : ∀ g ∈ gs, g.Fits)
    (heq : (Field.fixed [tag] :: fs).flatMap Field.encode =
      (Field.fixed [tag'] :: gs).flatMap Field.encode) : op = op' := by
  simp only [List.flatMap_cons, Field.encode, List.cons_append, List.nil_append, List.cons.injEq] at heq
  obtain ⟨rfl, heq⟩ := heq
  have heq' : fs.flatMap Field.encode ++ [] = gs.flatMap Field.encode ++ [] := by rw [heq]
  cases op <;> cases h <;> cases op' <;>
    simp only [operationFields, Option.some.injEq, Prod.mk.injEq, reduceCtorEq] at h'
  all_goals try (exact absurd h'.1 (by decide))
  all_goals obtain ⟨-, rfl⟩ := h'
  case release.refl.release object openInstance xattr object' openInstance' xattr' =>
    simp only [List.flatMap_cons, List.flatMap_append, List.append_assoc] at heq'
    obtain ⟨hobject, hopen⟩ := Field.encode_append_inj (f := handleField object)
      (g := handleField object') (by simp [handleField, Field.shape]) (hfs _ List.mem_cons_self)
      (hgs _ List.mem_cons_self) heq'
    obtain ⟨hopen, hxattr⟩ := optionalField_append_inj hopen
    obtain ⟨hxattr, -⟩ := optionalField_append_inj hxattr
    rw [handleField_inj.1 hobject, hopen, hxattr]
  all_goals
    obtain ⟨hfields, -⟩ := Field.flatMap_append_inj
      (by simp [handleField, u32Field, u64Field, Field.shape]) hfs hgs heq'
    simp only [List.cons.injEq, handleField_inj, u32Field_inj, u64Field_inj, Field.sized.injEq,
      and_true, OpenFlags.bits_inj, UnlinkFlags.bits_inj, SetAttributes.fields_inj] at hfields
    simp only [hfields]

/-- What was written, when everything was. -/
structure Written (request : FilesystemRequest) (execution : ExecutionContext) (grant : ExportGrant)
    (mutation : MutationId) (fence : WriterFence) (time : UnixTimestamp) (tag : UInt8)
    (operands : List Field) (bytes : Bytes) : Prop where
  identified : execution.mutationId = some mutation
  fenced : execution.fence = some fence
  timed : execution.timestamp = some time
  operation : operationFields request.operation = some (tag, operands)
  bytes : bytes = (contextFields request.context execution.clientIncarnation mutation
    execution.retention fence time).flatMap Field.encode ++ ((grantFields grant).flatMap Field.encode ++
      ((groupFields grant).flatMap Field.encode ++ ((policyFields grant).flatMap Field.encode ++
        (Field.fixed [tag] :: operands).flatMap Field.encode)))
  fits : ∀ field ∈ contextFields request.context execution.clientIncarnation mutation
    execution.retention fence time ++ (grantFields grant ++ (groupFields grant ++ (policyFields grant ++
      operands))), field.Fits

theorem mutationString_eq_ok {limits : EngineLimits} {request : FilesystemRequest}
    {execution : ExecutionContext} {grant : ExportGrant} {bytes : Bytes}
    (h : mutationString limits request execution grant = .ok bytes) :
    ∃ mutation fence time tag operands,
      Written request execution grant mutation fence time tag operands bytes := by
  simp only [mutationString, bind_eq_ok, okOr_eq_ok] at h
  obtain ⟨mutation, hmutation, fence, hfence, time, htime, buffer, hbuffer, ⟨tag, operands⟩, hoperation,
    hbytes⟩ := h
  obtain ⟨rfl, hfits⟩ := foldlM_write hbuffer
  obtain ⟨rfl, hoperands⟩ := foldlM_write hbytes
  refine ⟨mutation, fence, time, tag, operands, hmutation, hfence, htime, hoperation, ?_, ?_⟩
  · simp only [List.nil_append, List.flatMap_append, List.append_assoc]
  · intro field hfield
    simp only [List.mem_append] at hfield hfits
    rcases hfield with hcontext | hgrant | hgroups | hpolicy | hoperand
    · exact hfits field (.inl hcontext)
    · exact hfits field (.inr (.inl hgrant))
    · exact hfits field (.inr (.inr (.inl hgroups)))
    · exact hfits field (.inr (.inr (.inr hpolicy)))
    · exact hoperands field (List.mem_cons_of_mem _ hoperand)

section Injective

variable {request request' : FilesystemRequest} {execution execution' : ExecutionContext}
  {grant grant' : ExportGrant} {mutation mutation' : MutationId} {fence fence' : WriterFence}
  {time time' : UnixTimestamp} {tag tag' : UInt8} {operands operands' : List Field} {bytes : Bytes}

theorem contextFields_inj {context context' : RequestContext} {client client' : ClientIncarnationId}
    {retention retention' : MutationRetention}
    (h : contextFields context client mutation retention fence time =
      contextFields context' client' mutation' retention' fence' time') :
    context = context' ∧ client = client' ∧ mutation = mutation' ∧ retention = retention' ∧
      fence = fence' ∧ time = time' := by
  obtain ⟨⟨session⟩, principal, exportId⟩ := context
  obtain ⟨⟨session'⟩, principal', exportId'⟩ := context'
  obtain ⟨scope, holder, lease, ⟨token, _⟩⟩ := fence
  obtain ⟨scope', holder', lease', ⟨token', _⟩⟩ := fence'
  obtain ⟨seconds, nanoseconds, _⟩ := time
  obtain ⟨seconds', nanoseconds', _⟩ := time'
  obtain ⟨horizon⟩ := retention
  obtain ⟨horizon'⟩ := retention'
  simp only [contextFields, List.cons.injEq, u64Field_inj, Field.sized.injEq, idField_inj, Field.fixed.injEq,
    bits_leBytes_inj, u32Field_inj, true_and, and_true, Int64.toBitVec_inj] at h
  simp only [h, and_self]

theorem grant_inj (hgrant : grantFields grant = grantFields grant')
    (hgroups : groupFields grant = groupFields grant')
    (hpolicy : policyFields grant = policyFields grant') : grant = grant' := by
  simp only [grantFields, List.cons.injEq, idField_inj, Field.sized.injEq, and_true] at hgrant
  simp only [policyFields, List.cons.injEq, u32Field_inj, flagField_inj, u64Field_inj, Field.fixed.injEq,
    bits_leBytes_inj, and_true] at hpolicy
  have hgroups : grant.supplementaryGroups = grant'.supplementaryGroups := by
    refine List.map_injective_iff.2 ?_ hgroups
    intro a b hab
    exact BoundedBytes.ext (Field.sized.inj hab)
  obtain ⟨huid, hgid, hprivileged, hreadOnly, hgeneration, hceiling⟩ := hpolicy
  refine ExportGrant.ext hgrant.1 hgrant.2.1 (BoundedBytes.ext hgrant.2.2.1)
    (BoundedBytes.ext hgrant.2.2.2.1) hgroups huid hgid hprivileged hreadOnly hgeneration ?_
  cases hc : grant.capabilityCeiling
  cases hc' : grant'.capabilityCeiling
  rw [hc, hc'] at hceiling
  exact congrArg CapabilitySet.mk hceiling

section

variable (h : Written request execution grant mutation fence time tag operands bytes)

include h

/-- **The string determines the intent.** -/
theorem Written.inj
    (h' : Written request' execution' grant' mutation' fence' time' tag' operands' bytes) :
    request = request' ∧ execution = execution' ∧ grant = grant' := by
  have hfits := h.fits
  have hfits' := h'.fits
  simp only [List.mem_append, or_imp, forall_and] at hfits hfits'
  obtain ⟨hcontext, heq⟩ := Field.flatMap_append_inj (by
    simp [contextFields, u64Field, u32Field, idField, idBytes, Field.shape]) hfits.1 hfits'.1
    (h.bytes.symm.trans h'.bytes)
  obtain ⟨hgrant, heq⟩ := Field.flatMap_append_inj (by
    simp [grantFields, idField, idBytes, Field.shape]) hfits.2.1 hfits'.2.1 heq
  -- the number of groups is known by now
  have hcount : grant.supplementaryGroups.length = grant'.supplementaryGroups.length := by
    have hfields := hgrant
    simp only [grantFields, List.cons.injEq, Field.count.injEq, and_true] at hfields
    exact hfields.2.2.2.2
  obtain ⟨hgroups, heq⟩ := Field.flatMap_append_inj (by
    simp [groupFields, Function.comp_def, Field.shape, hcount]) hfits.2.2.1 hfits'.2.2.1 heq
  obtain ⟨hpolicy, heq⟩ := Field.flatMap_append_inj (by
    simp [policyFields, u64Field, u32Field, flagField, Field.shape]) hfits.2.2.2.1 hfits'.2.2.2.1 heq
  have hoperation := operationFields_inj h.operation h'.operation hfits.2.2.2.2 hfits'.2.2.2.2 heq
  obtain ⟨hrequest, hclient, hmutation, hretention, hfence, htime⟩ := contextFields_inj hcontext
  refine ⟨?_, ?_, grant_inj hgrant hgroups hpolicy⟩
  · cases request
    cases request'
    cases hrequest
    cases hoperation
    rfl
  · exact ExecutionContext.ext hclient (h.identified.trans (hmutation ▸ h'.identified.symm)) hretention
      (h.fenced.trans (hfence ▸ h'.fenced.symm)) (h.timed.trans (htime ▸ h'.timed.symm))

/-- Nothing but the intent determines the string. -/
theorem Written.bytes_eq {bytes' : Bytes}
    (h' : Written request execution grant mutation' fence' time' tag' operands' bytes') :
    bytes = bytes' := by
  obtain rfl : mutation = mutation' := Option.some.inj (h.identified.symm.trans h'.identified)
  obtain rfl : fence = fence' := Option.some.inj (h.fenced.symm.trans h'.fenced)
  obtain rfl : time = time' := Option.some.inj (h.timed.symm.trans h'.timed)
  obtain ⟨rfl, rfl⟩ : tag = tag' ∧ operands = operands' :=
    Prod.mk.inj (Option.some.inj (h.operation.symm.trans h'.operation))
  rw [h.bytes, h'.bytes]

end

end Injective

/-- **A fingerprint identifies the intent**: two inputs give one byte string exactly if request,
execution context and grant agree, and one fingerprint exactly then, unless their strings collide. -/
theorem mutationFingerprint_identifies (blake3 : Bytes → Digest) (limits limits' : EngineLimits)
    (request request' : FilesystemRequest) (execution execution' : ExecutionContext)
    (grant grant' : ExportGrant) {bytes bytes' : Bytes}
    (h : mutationString limits request execution grant = .ok bytes)
    (h' : mutationString limits' request' execution' grant' = .ok bytes') :
    (bytes = bytes' ↔ request = request' ∧ execution = execution' ∧ grant = grant') ∧
    ((blake3 bytes = blake3 bytes' → bytes = bytes') →
      (mutationFingerprint blake3 limits request execution grant =
          mutationFingerprint blake3 limits' request' execution' grant' ↔
        request = request' ∧ execution = execution' ∧ grant = grant')) := by
  obtain ⟨_, _, _, _, _, hwritten⟩ := mutationString_eq_ok h
  obtain ⟨_, _, _, _, _, hwritten'⟩ := mutationString_eq_ok h'
  have hiff : bytes = bytes' ↔ request = request' ∧ execution = execution' ∧ grant = grant' := by
    constructor
    · rintro rfl
      exact hwritten.inj hwritten'
    · rintro ⟨rfl, rfl, rfl⟩
      exact hwritten.bytes_eq hwritten'
  refine ⟨hiff, fun hfree => ?_⟩
  rw [← hiff]
  simp only [mutationFingerprint, h, h', Except.map, Except.ok.injEq, RequestFingerprint.mk.injEq]
  exact ⟨hfree, congrArg blake3⟩

def sampleExecution : ExecutionContext :=
  ⟨⟨1⟩, some ⟨2⟩, ⟨0⟩, some ⟨.filesystem, ⟨1⟩, ⟨1⟩, .one _⟩, some .epoch⟩

def sampleGrant : ExportGrant where
  filesystemId := ⟨1⟩
  rootInodeId := ⟨1⟩
  principal := ⟨[0x6f], by decide, by decide⟩
  primaryGroup := ⟨[0x67], by decide, by decide⟩
  supplementaryGroups := [⟨[0x68], by decide, by decide⟩]
  numericUid := 1
  numericGid := 1
  privileged := false
  readOnly := false
  policyGeneration := 1
  capabilityCeiling := .all
  generation_ne := Counter.one_ne
  ordered := List.pairwise_singleton _ _
  others := by decide

def sampleRequest (name : Bytes) : FilesystemRequest :=
  ⟨⟨⟨1⟩, [0x75], [0x65]⟩, .mkdir ⟨1⟩ name 0o755 1⟩

/-- The strings and the fingerprints of two directories of different names, with a digest that sums up
the bytes. -/
theorem mutationFingerprint_two_names :
    let blake3 : Bytes → Digest := fun bytes => .ofNat 256 (bytes.map UInt8.toNat).sum
    ∃ bytes bytes', mutationString .default (sampleRequest [0x61]) sampleExecution sampleGrant = .ok bytes ∧
      mutationString .default (sampleRequest [0x62]) sampleExecution sampleGrant = .ok bytes' ∧
      bytes ≠ bytes' ∧
      mutationFingerprint blake3 .default (sampleRequest [0x61]) sampleExecution sampleGrant ≠
        mutationFingerprint blake3 .default (sampleRequest [0x62]) sampleExecution sampleGrant := by
  intro blake3
  have hwritten : ∀ written : Except FingerprintError Bytes, written.toOption.isSome = true →
      ∃ bytes, written = .ok bytes := by
    intro written hsome
    obtain ⟨bytes, hbytes⟩ := Option.isSome_iff_exists.1 hsome
    exact ⟨bytes, toOption_eq_some.1 hbytes⟩
  obtain ⟨bytes, h⟩ := hwritten (mutationString .default (sampleRequest [0x61]) sampleExecution
    sampleGrant) (by decide +kernel)
  obtain ⟨bytes', h'⟩ := hwritten (mutationString .default (sampleRequest [0x62]) sampleExecution
    sampleGrant) (by decide +kernel)
  have hdigests : ((mutationString .default (sampleRequest [0x61]) sampleExecution sampleGrant).map blake3 ≠
      (mutationString .default (sampleRequest [0x62]) sampleExecution sampleGrant).map blake3) := by
    decide +kernel
  rw [h, h'] at hdigests
  have hidentifies := mutationFingerprint_identifies blake3 _ _ _ _ _ _ _ _ h h'
  have hrequests : sampleRequest [0x61] ≠ sampleRequest [0x62] := by decide
  refine ⟨bytes, bytes', h, h', fun heq => hrequests (hidentifies.1.1 heq).1, fun heq => hrequests ?_⟩
  exact ((hidentifies.2 fun hsame => (hdigests (congrArg Except.ok hsame)).elim).1 heq).1

end W9pt.Engine

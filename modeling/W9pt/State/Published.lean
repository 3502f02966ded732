import W9pt.State.History

/-!
# Published content is consistent

A regular inode names the version of its content: nothing before the first publication, and then a
`ContentRef` whose file, size and generation the inode repeats. What is checked where:

| here | there |
|---|---|
| `InodeRecord.Published` | `validate_inode_data` (records.rs:1624) |
| `accepted_contentBinding` | the inode arm of `validate_record_set` |
| `InodeRewrite.content` | `apply_change`, `validate_publish_content` (commit.rs:343) |
| `Staged.unpublished_insert` | the pairing of `validate_preflight` |
-/

namespace W9pt.State

open Lib Storage

/-- What an inode of a regular file says of its content. -/
def InodeRecord.Published (r : InodeRecord) : Prop :=
  match r.content with
  | none => r.logicalSize = 0 ∧ r.dataGeneration = none
  | some content => r.contentFileId = some content.fileId ∧ r.logicalSize = content.logicalSize ∧
      r.dataGeneration.map (·.get) = some content.generation

theorem InodeRecord.published {r : InodeRecord} (h : r.kind = .regularFile) : r.Published := by
  have hvalid := r.data_valid
  unfold InodeRecord.Published InodeRecord.content InodeRecord.contentFileId InodeRecord.dataGeneration
  unfold InodeRecord.kind InodeData.kind at h
  cases hdata : r.data with
  | regularFile file content generation =>
    cases content with
    | none =>
      simp only [hdata, validateInodeData, ensure_eq_ok] at hvalid
      simp [hvalid.1, hvalid.2, Counter.new?]
    | some content =>
      simp only [hdata, validateInodeData, bind_eq_ok, ensure_eq_ok] at hvalid
      obtain ⟨_, hfile, _, hsize, hgeneration, hne⟩ := hvalid
      simp [hfile, hsize, hgeneration, hne, Counter.new?]
  | _ => simp [hdata] at h

/-- The metadata of the content names the inode and its context. -/
def InodeRecord.Bound (records : RecordMap) (fs : FilesystemId) (r : InodeRecord) : Prop :=
  ∃ file context metadata, r.contentFileId = some file ∧ r.contentContextId = some context ∧
    records[RecordKey.contentMetadata fs file]? = some (.contentMetadata metadata) ∧
    metadata.ownerInodeId = r.inodeId ∧ metadata.contextId = context

theorem accepted_contentBinding {records : RecordMap} {limits : StateLimits} {fs : FilesystemId}
    (h : validateRecordSetWithLimits records limits = .ok ()) {i : InodeId} {r : InodeRecord}
    (hr : inodeAt records fs i = some r) (hkind : r.kind = .regularFile) : r.Bound records fs := by
  obtain ⟨s, t, hc⟩ := accepted_checkRecord h (inodeAt_eq_some.1 hr)
  obtain ⟨-, hc⟩ := checkRecord_inode.1 hc
  simp only [checkInode, bind_eq_ok] at hc
  obtain ⟨_, -, _, -, _, -, _, -, _, hbinding, -⟩ := hc
  obtain ⟨file, hfile⟩ := Option.isSome_iff_exists.1 (InodeRecord.contentFileId_isSome.2 hkind)
  simp only [checkContentBinding, hfile, bind_eq_ok, okOr_eq_ok] at hbinding
  obtain ⟨context, hcontext, hmetadata⟩ := hbinding
  split at hmetadata
  · rename_i metadata hget
    obtain ⟨howner, hid⟩ := ensure_eq_ok.1 hmetadata
    exact ⟨file, context, metadata, hfile, hcontext, hget, howner, hid⟩
  · cases hmetadata

section Rewrites

variable {records : RecordMap} {request : CommitRequest} {i : InodeId} {r r' : InodeRecord}
  {change : StateChange}

/-- The publication replaces the content of an inode: it expects the version that is there, and the data
generation moves by one if the content changed. -/
structure PublishContent.Replaces (publication : PublishContent) (r r' : InodeRecord) : Prop where
  base : r.contentBase = some publication.expectedBase
  content : r'.content = some publication.prepared.content
  generation : r'.dataNumber = r.dataNumber + if publication.prepared.contentChanged then 1 else 0

/-- What a commit does to the content of an inode that stays. -/
structure ContentAdvance (request : CommitRequest) (i : InodeId) (r r' : InodeRecord) : Prop where
  file : r'.contentFileId = r.contentFileId
  context : r'.contentContextId = r.contentContextId
  content : r'.content = r.content ∧ r'.dataGeneration = r.dataGeneration ∨
    ∃ publication, StateChange.publishContent publication ∈ request.changes ∧ publication.inodeId = i ∧
      publication.Replaces r r'

theorem replaces_publishContent {publication : PublishContent} {mutation : MutationContext}
    (h : validatePublishContent publication mutation r = .ok ())
    (hdata : validateInodeData publication.logicalSize (InodeRecord.publishedData publication) = .ok ()) :
    publication.Replaces r (r.publishContent publication hdata) := by
  simp only [validatePublishContent, bind_eq_ok, ensure_eq_ok] at h
  obtain ⟨_, -, _, -, _, -, _, hbase, _, -, _, -, generation, hgeneration, _, ⟨hcontent, -⟩, -⟩ := h
  refine ⟨hbase, rfl, ?_⟩
  have hold := InodeRecord.contentBase_generation hbase
  have hnew := InodeRecord.contentBase_generation
    (show (r.publishContent publication hdata).contentBase =
      some (.fromContent publication.prepared.content) from rfl)
  have hnumber : publication.prepared.content.generation.toNat =
      (r.publishContent publication hdata).dataNumber := hnew
  rw [← hnumber, ← hold, hcontent]
  unfold PublishContent.expectedGeneration at hgeneration
  split at hgeneration
  · rename_i hchanged
    rw [if_pos hchanged]
    exact checkedAdd_eq_some.1 (okOr_eq_ok.1 hgeneration)
  · rename_i hunchanged
    cases hgeneration
    rw [if_neg hunchanged, Nat.add_zero]

/-- **One change moves the content only by a publication.** -/
theorem InodeRewrite.content (h : InodeRewrite records request i r change r')
    (hc : change ∈ request.changes) : ContentAdvance request i r r' := by
  have hfile := h.advance.contentFileId
  cases h with
  | replaced valid qid =>
    simp only [replacementValid, Bool.and_eq_true, beq_iff_eq] at valid
    obtain ⟨⟨⟨⟨⟨⟨-, -⟩, hcontent⟩, -⟩, hcontext⟩, -⟩, -⟩ := valid
    refine ⟨hfile, hcontext.symm, .inl ⟨hcontent.symm, ?_⟩⟩
    exact InodeRecord.dataGeneration_eq_of_contentBase
      (InodeRecord.contentBase_eq_of_content hfile hcontent.symm)
  | bumped h =>
    obtain ⟨next, -, hr⟩ := bind_eq_ok.1 h
    cases hr
    exact ⟨rfl, rfl, .inl ⟨rfl, rfl⟩⟩
  | bumpedDirectory h =>
    unfold InodeRecord.bumpDirectoryGeneration at h
    split at h
    · rename_i generation parent hdata
      obtain ⟨_, -, h⟩ := bind_eq_ok.1 h
      obtain ⟨_, -, hr⟩ := bind_eq_ok.1 h
      cases hr
      refine ⟨hfile, rfl, .inl ⟨?_, ?_⟩⟩
      · simp [InodeRecord.content, hdata]
      · simp [InodeRecord.dataGeneration, hdata]
    · cases h
  | adjusted h =>
    simp only [InodeRecord.adjustLinkCount, bind_eq_ok] at h
    obtain ⟨_, -, _, -, hr⟩ := h
    cases hr
    exact ⟨rfl, rfl, .inl ⟨rfl, rfl⟩⟩
  | published own valid hdata =>
    exact ⟨hfile, rfl, .inr ⟨_, hc, own, replaces_publishContent valid hdata⟩⟩

end Rewrites

section Commits

variable {contract : Contract} {s : AuthorityState} {request : CommitRequest} {staged : RecordMap}
  {event : ChangeEvent} {i : InodeId} {r r' : InodeRecord}

/-- Changes that write one record, other than the header, are one change. -/
theorem CommitRequest.change_unique {limits : StateLimits} (h : request.validatePreflight limits = .ok ())
    {a b : StateChange} (ha : a ∈ request.changes) (hb : b ∈ request.changes) (key : RecordKey)
    (hka : key ∈ a.affectedKeys request.filesystemId) (hkb : key ∈ b.affectedKeys request.filesystemId)
    (hkey : key.family ≠ .filesystem) : a = b := by
  by_contra hne
  have hshared : ∀ {x y : StateChange}, StateChange.Disjoint request.filesystemId x y →
      key ∈ x.affectedKeys request.filesystemId → ¬ key ∈ y.affectedKeys request.filesystemId :=
    fun hdisjoint hx hy => hkey (hdisjoint key hx hy).1
  obtain ⟨l₁, l₂, hsplit⟩ := List.append_of_mem ha
  have hpairs := CommitRequest.changes_disjoint h
  rw [hsplit] at hpairs hb
  obtain ⟨-, hrest, hfront⟩ := List.pairwise_append.1 hpairs
  rcases List.mem_append.1 hb with hb | hb
  · exact hshared (hfront b hb a List.mem_cons_self) hkb hka
  · rcases List.mem_cons.1 hb with rfl | hb
    · exact hne rfl
    · exact hshared ((List.pairwise_cons.1 hrest).1 b hb) hka hkb

/-- **A new regular inode is unpublished.** -/
theorem Staged.unpublished_insert (h : Staged contract s request staged event)
    (hbefore : s.records[RecordKey.inode request.filesystemId i]? = none)
    (hr' : inodeAt staged request.filesystemId i = some r') : r'.content = none := by
  obtain ⟨inserted, hc, rfl⟩ := h.inode_inserted hbefore hr'
  have hpreflight := h.preflight
  simp only [CommitRequest.validatePreflight, bind_eq_ok] at hpreflight
  obtain ⟨_, -, _, -, _, -, _, -, _, -, _, -, _, hmetadata, _, hinodes, -⟩ := hpreflight
  have hinode := forM_eq_ok.1 hinodes _ hc
  show inserted.content = none
  cases hfile : inserted.contentFileId with
  | none =>
    unfold InodeRecord.contentFileId at hfile
    unfold InodeRecord.content
    split at hfile <;> simp_all
  | some file =>
    simp only [checkInodeInserted, hfile, bind_eq_ok, okOr_eq_ok, ensure_eq_ok, List.any_eq_true] at hinode
    obtain ⟨context, -, pair, hpair, hpaired⟩ := hinode
    unfold StateChange.insertsMetadata at hpaired
    split at hpaired
    · rename_i fs file' metadata
      simp only [Bool.and_eq_true, beq_iff_eq] at hpaired
      obtain ⟨⟨⟨rfl, rfl⟩, howner⟩, -⟩ := hpaired
      -- the inode that the metadata was checked against is inserted under the same key
      have howned := forM_eq_ok.1 hmetadata _ hpair
      simp only [checkMetadataInserted, ensure_eq_ok, List.any_eq_true] at howned
      obtain ⟨other, hother, howns⟩ := howned
      unfold StateChange.insertsOwner at howns
      split at howns
      · simp only [Bool.and_eq_true, beq_iff_eq] at howns
        obtain ⟨⟨⟨⟨rfl, hid⟩, -⟩, -⟩, hnone⟩ := howns
        rw [howner] at hid
        subst hid
        cases CommitRequest.change_unique h.preflight hc hother _ List.mem_cons_self List.mem_cons_self
          (fun hfamily => by cases hfamily)
        exact hnone
      · cases howns
    · cases hpaired

/-- What a call does to the content of inodes. -/
structure ContentStep (contract : Contract) (step : AuthorityStep) : Prop where
  stays : ∀ fs i r r', inodeAt step.before.records fs i = some r →
    inodeAt step.after.records fs i = some r' →
    r' = r ∨ ∃ request, step.Commits request ∧ step.Published ∧ request.filesystemId = fs ∧
      ContentAdvance request i r r'
  born : ∀ fs i r', step.before.records[RecordKey.inode fs i]? = none →
    inodeAt step.after.records fs i = some r' → r'.content = none

theorem CallEffect.content {step : AuthorityStep} (h : CallEffect contract step)
    (hs : Sound contract.limits step.before.records) : ContentStep contract step := by
  have hsame : ∀ {fs i} {r r' : InodeRecord}, step.after.records[RecordKey.inode fs i]? =
      step.before.records[RecordKey.inode fs i]? → inodeAt step.before.records fs i = some r →
      inodeAt step.after.records fs i = some r' → r' = r := by
    intro fs i r r' hkept hr hr'
    rw [inodeAt_eq_some] at hr hr'
    rw [hr, hr'] at hkept
    simpa using hkept
  have hborn : ∀ {fs i} {r' : InodeRecord}, step.after.records[RecordKey.inode fs i]? =
      step.before.records[RecordKey.inode fs i]? → step.before.records[RecordKey.inode fs i]? = .none →
      ¬ inodeAt step.after.records fs i = some r' := by
    intro fs i r' hkept hnone hr'
    rw [inodeAt_eq_some, hkept, hnone] at hr'
    cases hr'
  cases h with
  | none unchanged =>
    have hkept : ∀ key : RecordKey, step.after.records[key]? = step.before.records[key]? := fun key => by
      rw [unchanged.records]
    exact ⟨fun _ _ _ _ hr hr' => .inl (hsame (hkept _) hr hr'),
      fun _ _ _ hnone hr' => absurd hr' (hborn (hkept _) hnone)⟩
  | lease event advances wellFormed leases =>
    have hkept : ∀ fs i, step.after.records[RecordKey.inode fs i]? =
        step.before.records[RecordKey.inode fs i]? := fun fs i =>
      getElem?_of_lease advances leases (by simp [RecordKey.family])
    exact ⟨fun _ _ _ _ hr hr' => .inl (hsame (hkept _ _) hr hr'),
      fun _ _ _ hnone hr' => absurd hr' (hborn (hkept _ _) hnone)⟩
  | commit request event commits published staged advances =>
    refine ⟨fun fs i r r' hr hr' => ?_, fun fs i r' hnone hr' => ?_⟩
    · by_cases hfs : fs = request.filesystemId
      · subst hfs
        obtain ⟨header, hheader, -⟩ := hs.header hr
        rcases staged.written (.inode request.filesystemId i) (by simp [RecordKey.family]) with
          hkept | ⟨change, hc, hk⟩
        · exact .inl (hsame hkept hr hr')
        · obtain ⟨r₁, hrewrite, rfl⟩ := staged.inode_rewrite hheader hc hk hr hr'
          have hadvance := hrewrite.content hc
          refine .inr ⟨request, commits, published, rfl, hadvance.file, hadvance.context, ?_⟩
          rcases hadvance.content with hkept | ⟨publication, hmem, hown, hreplaces⟩
          · exact .inl hkept
          · exact .inr ⟨publication, hmem, hown, hreplaces.base, hreplaces.content, hreplaces.generation⟩
      · exact .inl (hsame (staged.getElem?_foreign hfs) hr hr')
    · by_cases hfs : fs = request.filesystemId
      · subst hfs
        exact staged.unpublished_insert hnone hr'
      · exact absurd hr' (hborn (staged.getElem?_foreign hfs) hnone)

/-- The inode is there in every state of the run. -/
def StaysPresent (contract : Contract) (s : AuthorityState) (calls : List Call) (fs : FilesystemId)
    (i : InodeId) : Prop :=
  ∀ part, part <+: calls →
    (inodeAt (finalState (authority contract) s part).records fs i).isSome = true

/-- The content of inodes in a state and over the calls after it. -/
structure ContentHistory (contract : Contract) (s : AuthorityState) : Prop where
  /-- Every regular inode agrees with its content, and the metadata of the content with the inode. -/
  consistent : ∀ fs i r, inodeAt s.records fs i = some r → r.kind = .regularFile →
    r.inodeId = i ∧ r.Published ∧ r.Bound s.records fs
  /-- The content moves only by publications. -/
  moves : ∀ call, ContentStep contract (stepOf (authority contract) s call)
  /-- While an inode stays, so do its file and its context. -/
  identity : ∀ calls fs i r r', StaysPresent contract s calls fs i → inodeAt s.records fs i = some r →
    inodeAt (finalState (authority contract) s calls).records fs i = some r' →
    r'.contentFileId = r.contentFileId ∧ r'.contentContextId = r.contentContextId

theorem content_identity (hs : Sound contract.limits s.records) (calls : List Call)
    {fs : FilesystemId} (hstays : StaysPresent contract s calls fs i)
    (hr : inodeAt s.records fs i = some r)
    (hr' : inodeAt (finalState (authority contract) s calls).records fs i = some r') :
    r'.contentFileId = r.contentFileId ∧ r'.contentContextId = r.contentContextId := by
  induction calls generalizing s r with
  | nil =>
    obtain rfl : r = r' := Option.some.inj (hr.symm.trans hr')
    exact ⟨rfl, rfl⟩
  | cons call calls ih =>
    have heffect := callEffect_authority contract s call
    obtain ⟨mid, hmid⟩ := Option.isSome_iff_exists.1 (hstays [call] ⟨calls, rfl⟩)
    have hlater : StaysPresent contract (authority contract s call).2 calls fs i := fun part hpart =>
      hstays (call :: part) (List.prefix_cons_inj call |>.2 hpart)
    obtain ⟨hfile, hcontext⟩ := ih (heffect.sound hs) hlater hmid hr'
    rcases (heffect.content hs).stays fs i r mid hr hmid with rfl | ⟨request, -, -, -, hadvance⟩
    · exact ⟨hfile, hcontext⟩
    · exact ⟨hfile.trans hadvance.file, hcontext.trans hadvance.context⟩

/-- **Published content is consistent** in every reachable state of the authority. -/
theorem contentHistory_run (contract : Contract) (clock : LeaseDeadline) (calls : List Call) :
    ContentHistory contract (finalState (authority contract) (.new clock) calls) where
  consistent fs i r hr hkind := by
    obtain ⟨base, hvalid, hbase⟩ := sound_run contract clock calls
    have hr' := hr
    rw [inodeAt_eq_some, hbase _ rfl, ← inodeAt_eq_some] at hr'
    obtain ⟨file, context, metadata, hfile, hcontext, hget, howner, hid⟩ :=
      accepted_contentBinding hvalid hr' hkind
    exact ⟨(accepted_inode hvalid hr').1, InodeRecord.published hkind, file, context, metadata, hfile,
      hcontext, (hbase _ rfl).trans hget, howner, hid⟩
  moves call := (callEffect_authority contract _ call).content (sound_run contract clock calls)
  identity later fs i r r' hstays hr hr' :=
    content_identity (sound_run contract clock calls) later hstays hr hr'

end Commits

end W9pt.State

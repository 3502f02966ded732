import W9pt.State.Published

/-!
# Version numbers never come back

Optimistic preconditions compare a record revision or a generation observed earlier with the current
one and conclude that nothing changed in between. Over every run of the authority, between any two
moments of it:

| here | meaning |
|---|---|
| `Succeeds` | a record that is there later was there earlier, or is stamped with a later revision |
| `Versioned` | the three generations of an inode that stays, and what each of them stands for |
| `abaFree_run` | equal versions mean equal records, entries and content |

A record revision is the state revision of the commit that wrote the record, so it is never used
again for the key. A generation is only compared while the inode stays: a deleted inode may be
inserted anew with any generation.
-/

namespace W9pt.State

open Lib Storage

/-! ## Record revisions -/

/-- No record is stamped with a revision that is not published yet. -/
def Dated (s : AuthorityState) : Prop :=
  ∀ (key : RecordKey) r, s.records[key]? = some r → r.revision.get ≤ s.revision.get

/-- What the records of a later state are: kept, or written after the earlier one. -/
structure Succeeds (s s' : AuthorityState) : Prop where
  revision : s.revision.get ≤ s'.revision.get
  record : ∀ (key : RecordKey) r', s'.records[key]? = some r' →
    s.records[key]? = some r' ∨ s.revision.get < r'.revision.get

namespace Succeeds

variable {contract : Contract} {s t u : AuthorityState}

theorem refl (s : AuthorityState) : Succeeds s s := ⟨UInt64.le_refl _, fun _ _ h => .inl h⟩

theorem trans (hst : Succeeds s t) (htu : Succeeds t u) : Succeeds s u := by
  refine ⟨UInt64.le_trans hst.revision htu.revision, fun key r' hr' => ?_⟩
  rcases htu.record key r' hr' with hkept | hlater
  · exact hst.record key r' hkept
  · exact .inr (UInt64.lt_of_le_of_lt hst.revision hlater)

theorem of_unchanged (h : Unchanged s t) : Succeeds s t :=
  ⟨by rw [h.revision]; exact UInt64.le_refl _, fun _ _ hr' => .inl (h.records ▸ hr')⟩

theorem of_advances {event : ChangeEvent} {keys : List RecordKey}
    (h : Advances contract.limits s t event keys) : Succeeds s t := by
  have hnext := Counter.checkedNext_eq_ok.1 h.next
  have hlt : s.revision.get < event.revision.get := UInt64.lt_iff_toNat_lt.2 (by omega)
  refine ⟨by rw [h.revision]; exact UInt64.le_of_lt hlt, fun key r' hr' => ?_⟩
  rcases h.stamps key with hkept | ⟨-, hstamped⟩
  · exact .inl (hkept ▸ hr')
  · exact .inr (by rw [hstamped r' hr']; exact hlt)

end Succeeds

section

variable {contract : Contract} {step : AuthorityStep} (h : CallEffect contract step)

include h

theorem CallEffect.succeeds : Succeeds step.before step.after := by
  cases h with
  | none unchanged => exact .of_unchanged unchanged
  | lease event advances wellFormed leases => exact .of_advances advances
  | commit request event commits published staged advances => exact .of_advances advances

theorem CallEffect.dated (hs : Dated step.before) : Dated step.after := by
  have stamped : ∀ {event : ChangeEvent} {keys : List RecordKey},
      Advances contract.limits step.before step.after event keys → Dated step.after := by
    intro event keys hadvances key r hr
    rcases hadvances.stamps key with hkept | ⟨-, hstamped⟩
    · exact UInt64.le_trans (hs key r (hkept ▸ hr)) (Succeeds.of_advances hadvances).revision
    · rw [hstamped r hr, hadvances.revision]
      exact UInt64.le_refl _
  cases h with
  | none unchanged =>
    intro key r hr
    rw [unchanged.revision]
    exact hs key r (unchanged.records ▸ hr)
  | lease event advances wellFormed leases => exact stamped advances
  | commit request event commits published staged advances => exact stamped advances

end

/-! ## Generations -/

/-- The generation of a directory: zero for other inodes. -/
def InodeRecord.directoryNumber (r : InodeRecord) : Nat := Counter.number r.directoryGeneration

/-- The versions of an inode at two moments: none goes back, and while one stands still so does what
it stands for. A version of the content is named by its file, its generation and the digest of its
manifest. -/
structure Versioned (fs : FilesystemId) (i : InodeId) (records records' : RecordMap)
    (r r' : InodeRecord) : Prop where
  inodeGeneration : r.inodeGeneration.get ≤ r'.inodeGeneration.get
  identical : r'.inodeGeneration = r.inodeGeneration → r' = r
  directoryGeneration : r.directoryNumber ≤ r'.directoryNumber
  entries : r'.directoryGeneration = r.directoryGeneration → ∀ name : EntryName,
    records'[RecordKey.directoryEntry fs i name]? = records[RecordKey.directoryEntry fs i name]?
  dataGeneration : r.dataNumber ≤ r'.dataNumber
  content : r'.dataGeneration = r.dataGeneration →
    r'.contentFileId = r.contentFileId ∧ r'.contentBase = r.contentBase

namespace Versioned

variable {fs : FilesystemId} {i : InodeId} {a b c : RecordMap} {r r' r'' : InodeRecord}

theorem of_same (hentries : ∀ name : EntryName,
    b[RecordKey.directoryEntry fs i name]? = a[RecordKey.directoryEntry fs i name]?) :
    Versioned fs i a b r r :=
  ⟨UInt64.le_refl _, fun _ => rfl, le_refl _, fun _ => hentries, le_refl _, fun _ => ⟨rfl, rfl⟩⟩

theorem trans (hab : Versioned fs i a b r r') (hbc : Versioned fs i b c r' r'') :
    Versioned fs i a c r r'' where
  inodeGeneration := UInt64.le_trans hab.inodeGeneration hbc.inodeGeneration
  identical heq := by
    -- the generation in the middle is squeezed between two equal ones
    have hmid : r'.inodeGeneration = r.inodeGeneration := Counter.ext
      (UInt64.le_antisymm (heq ▸ hbc.inodeGeneration) hab.inodeGeneration)
    rw [hbc.identical (heq.trans hmid.symm), hab.identical hmid]
  directoryGeneration := hab.directoryGeneration.trans hbc.directoryGeneration
  entries heq name := by
    have hmid : r'.directoryGeneration = r.directoryGeneration := Counter.number_inj
      (le_antisymm (hbc.directoryGeneration.trans (by rw [InodeRecord.directoryNumber, heq]))
        hab.directoryGeneration)
    rw [hbc.entries (heq.trans hmid.symm), hab.entries hmid]
  dataGeneration := hab.dataGeneration.trans hbc.dataGeneration
  content heq := by
    have hmid : r'.dataGeneration = r.dataGeneration := Counter.number_inj
      (le_antisymm (hbc.dataGeneration.trans (by rw [InodeRecord.dataNumber, heq]))
        hab.dataGeneration)
    obtain ⟨hfile, hbase⟩ := hbc.content (heq.trans hmid.symm)
    obtain ⟨hfile', hbase'⟩ := hab.content hmid
    exact ⟨hfile.trans hfile', hbase.trans hbase'⟩

theorem directoryNumber_of_once (h : directoryGenerationAdvancesOnce r r' = true) :
    r.directoryNumber < r'.directoryNumber := by
  unfold directoryGenerationAdvancesOnce at h
  split at h
  · rename_i old new hold hnew
    have hnext := Counter.checkedNext_eq_ok.1 (toOption_eq_some.1 (beq_iff_eq.1 h))
    simp only [InodeRecord.directoryNumber, hold, hnew, Counter.number]
    omega
  · cases h

/-- A rewritten inode, in a commit that advances its directory generation if it touches its
entries. -/
theorem of_advance (h : InodeAdvance r r')
    (hentries : directoryGenerationAdvancesOnce r r' = true ∨ ∀ name : EntryName,
      b[RecordKey.directoryEntry fs i name]? = a[RecordKey.directoryEntry fs i name]?) :
    Versioned fs i a b r r' where
  inodeGeneration := by
    have hnext := Counter.checkedNext_eq_ok.1 h.generation
    exact UInt64.le_iff_toNat_le.2 (by omega)
  identical heq := by
    have hnext := Counter.checkedNext_eq_ok.1 h.generation
    rw [heq] at hnext
    omega
  directoryGeneration := by
    rcases h.directory with hsame | honce
    · rw [InodeRecord.directoryNumber, ← hsame]
      exact le_refl _
    · exact (directoryNumber_of_once honce).le
  entries heq := by
    refine hentries.resolve_left fun honce => (directoryNumber_of_once honce).ne ?_
    rw [InodeRecord.directoryNumber, ← heq, InodeRecord.directoryNumber]
  dataGeneration := by
    rcases h.content with ⟨hsame, -⟩ | hlt
    · rw [InodeRecord.dataNumber, ← hsame]
      exact le_refl _
    · exact hlt.le
  content heq := by
    refine ⟨h.contentFileId, (h.content.resolve_right fun hlt => hlt.ne ?_).2⟩
    rw [InodeRecord.dataNumber, ← heq, InodeRecord.dataNumber]

end Versioned

section Calls

variable {contract : Contract} {s s' : AuthorityState} {fs : FilesystemId} {i : InodeId}
  {r r' : InodeRecord}

theorem versioned_of_frame
    (hframe : ∀ key : RecordKey, key.filesystemId = fs → key.storeOwned = false →
      s'.records[key]? = s.records[key]?)
    (hr : inodeAt s.records fs i = some r) (hr' : inodeAt s'.records fs i = some r') :
    Versioned fs i s.records s'.records r r' := by
  rw [inodeAt_eq_some] at hr hr'
  rw [hframe _ rfl rfl, hr] at hr'
  cases hr'
  exact .of_same fun name => hframe _ rfl rfl

theorem versioned_of_staged {request : CommitRequest} {event : ChangeEvent}
    (h : Staged contract s request s'.records event) (hs : Sound contract.limits s.records)
    (hr : inodeAt s.records request.filesystemId i = some r)
    (hr' : inodeAt s'.records request.filesystemId i = some r') :
    Versioned request.filesystemId i s.records s'.records r r' := by
  obtain ⟨header, hheader, -⟩ := hs.header hr
  have hentries : directoryGenerationAdvancesOnce r r' = true ∨ ∀ name : EntryName,
      s'.records[RecordKey.directoryEntry request.filesystemId i name]? =
        s.records[RecordKey.directoryEntry request.filesystemId i name]? := by
    by_cases hparent : i ∈ request.namespaceParents s.records
    · exact .inl (h.directory_advance hheader hr hr' hparent)
    · refine .inr fun name => ?_
      rcases h.written (.directoryEntry request.filesystemId i name)
        (by simp [RecordKey.family]) with hsame | ⟨change, hc, hk⟩
      · exact hsame
      · exact absurd (h.touches_parent (fun record => hs.matchesKey rfl) hc hk) hparent
  rcases h.inode_advance hheader hr hr' with rfl | hadvance
  · refine .of_same (hentries.resolve_left fun honce => ?_)
    exact (Versioned.directoryNumber_of_once honce).ne rfl
  · exact .of_advance hadvance hentries

/-- **One call** keeps the versions of an inode that stays. -/
theorem CallEffect.versioned {step : AuthorityStep} (h : CallEffect contract step)
    (hs : Sound contract.limits step.before.records)
    (hr : inodeAt step.before.records fs i = some r)
    (hr' : inodeAt step.after.records fs i = some r') :
    Versioned fs i step.before.records step.after.records r r' := by
  cases h with
  | none unchanged => exact versioned_of_frame (fun _ _ _ => by rw [unchanged.records]) hr hr'
  | lease event advances wellFormed leases =>
    refine versioned_of_frame (fun key _ howned => getElem?_of_lease advances leases ?_) hr hr'
    rintro heq
    simp [RecordKey.storeOwned, heq] at howned
  | commit request event commits published staged advances =>
    by_cases hfs : fs = request.filesystemId
    · subst hfs
      exact versioned_of_staged staged hs hr hr'
    · exact versioned_of_frame (fun key hkey _ => staged.getElem?_foreign (hkey ▸ hfs)) hr hr'

end Calls

/-! ## Runs -/

/-- The contents that inodes have at some moment of the run. -/
def selectedContents (contract : Contract) (s : AuthorityState) (calls : List Call) : Set ContentRef :=
  {content | ∃ part fs i r, part <+: calls ∧
    inodeAt (finalState (authority contract) s part).records fs i = some r ∧ r.content = some content}

/-- Between the state and the end of the run, equal versions mean that nothing changed. A commit
compares contents by generation and manifest digest, so the content itself is the same where these
identify the contents of the history. -/
structure AbaFree (contract : Contract) (contents : Set ContentRef) (s : AuthorityState)
    (calls : List Call) : Prop where
  record : ∀ (key : RecordKey) r r', s.records[key]? = some r →
    (finalState (authority contract) s calls).records[key]? = some r' →
    r'.revision = r.revision → r' = r
  inode : ∀ fs i r r', StaysPresent contract s calls fs i → inodeAt s.records fs i = some r →
    inodeAt (finalState (authority contract) s calls).records fs i = some r' →
    Versioned fs i s.records (finalState (authority contract) s calls).records r r'
  content : Set.InjOn BaseContentIdentity.fromContent contents → ∀ fs i r r',
    StaysPresent contract s calls fs i → inodeAt s.records fs i = some r →
    inodeAt (finalState (authority contract) s calls).records fs i = some r' →
    r'.dataGeneration = r.dataGeneration → r'.content = r.content

/-- Where generation and digest identify a content, inodes with one base have one content. -/
theorem InodeRecord.content_eq_of_contentBase {r r' : InodeRecord} {contents : Set ContentRef}
    (hinj : Set.InjOn BaseContentIdentity.fromContent contents)
    (hr : ∀ content, r.content = some content → content ∈ contents)
    (hr' : ∀ content, r'.content = some content → content ∈ contents)
    (h : r'.contentBase = r.contentBase) : r'.content = r.content := by
  have hnew : ∀ content, BaseContentIdentity.fromContent content ≠ .newFile := fun content heq =>
    content.generation_ne (congrArg BaseContentIdentity.generation heq)
  unfold InodeRecord.content at hr hr' ⊢
  unfold InodeRecord.contentBase at h
  cases hdata : r.data with
  | regularFile file content generation =>
    cases hdata' : r'.data with
    | regularFile file' content' generation' =>
      simp only [hdata, hdata'] at h hr hr' ⊢
      cases content with
      | none =>
        cases content' with
        | none => rfl
        | some content' => exact absurd (Option.some.inj h) (hnew content')
      | some content =>
        cases content' with
        | none => exact absurd (Option.some.inj h).symm (hnew content)
        | some content' => rw [hinj (hr' _ rfl) (hr _ rfl) (Option.some.inj h)]
    | _ => cases content <;> simp [hdata, hdata'] at h
  | _ => cases hdata' : r'.data with
    | regularFile file' content' generation' => cases content' <;> simp [hdata, hdata'] at h
    | _ => rfl

section Runs

variable (contract : Contract)

theorem succeeds_run (s : AuthorityState) (calls : List Call) :
    Succeeds s (finalState (authority contract) s calls) :=
  finalState_invariant (P := Succeeds s)
    (fun t call h => h.trans (callEffect_authority contract t call).succeeds) (.refl s) calls

theorem dated_run (clock : LeaseDeadline) (calls : List Call) :
    Dated (finalState (authority contract) (.new clock) calls) :=
  finalState_invariant (fun s call => (callEffect_authority contract s call).dated)
    (fun key r hr => by cases hr) calls

theorem versioned_run {s : AuthorityState} (hs : Sound contract.limits s.records) (calls : List Call)
    {fs : FilesystemId} {i : InodeId} {r r' : InodeRecord}
    (hstays : StaysPresent contract s calls fs i) (hr : inodeAt s.records fs i = some r)
    (hr' : inodeAt (finalState (authority contract) s calls).records fs i = some r') :
    Versioned fs i s.records (finalState (authority contract) s calls).records r r' := by
  induction calls generalizing s r with
  | nil =>
    obtain rfl : r = r' := Option.some.inj (hr.symm.trans hr')
    exact .of_same fun _ => rfl
  | cons call calls ih =>
    have heffect := callEffect_authority contract s call
    obtain ⟨mid, hmid⟩ := Option.isSome_iff_exists.1 (hstays [call] ⟨calls, rfl⟩)
    refine (heffect.versioned hs hr hmid).trans (ih (heffect.sound hs) (fun part hpart => ?_) hmid hr')
    exact hstays (call :: part) (List.cons_prefix_cons.2 ⟨rfl, hpart⟩)

/-- **Versions are ABA-free**: between any two moments of any history of the authority, a record
revision seen twice is the same record, and a generation of an inode that stays seen twice is the same
inode, the same entries, the same content. -/
theorem abaFree_run (clock : LeaseDeadline) (before after : List Call) :
    AbaFree contract (selectedContents contract (.new clock) (before ++ after))
      (finalState (authority contract) (.new clock) before) after where
  record key r r' hr hr' hrevision := by
    have hdated := dated_run contract clock before key r hr
    rcases (succeeds_run contract _ after).record key r' hr' with hkept | hlater
    · exact Option.some.inj (hkept.symm.trans hr)
    · rw [hrevision] at hlater
      exact absurd hdated (UInt64.not_le.2 hlater)
  inode fs i r r' hstays hr hr' :=
    versioned_run contract (sound_run contract clock before) after hstays hr hr'
  content hinj fs i r r' hstays hr hr' hgeneration := by
    have hversioned := versioned_run contract (sound_run contract clock before) after hstays hr hr'
    rw [← finalState_append] at hr'
    refine InodeRecord.content_eq_of_contentBase hinj (fun content hcontent => ?_)
      (fun content hcontent => ?_) (hversioned.content hgeneration).2
    · exact ⟨before, fs, i, r, List.prefix_append before after, hr, hcontent⟩
    · exact ⟨before ++ after, fs, i, r', List.prefix_rfl, hr', hcontent⟩

end Runs

end W9pt.State

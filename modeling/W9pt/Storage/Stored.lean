import W9pt.Storage.Binding
import W9pt.Storage.Ledger

/-!
# Pages among the known objects

`scope.PageIn reference bytes page` says that the bytes pass every check of `load_map_page` under the
reference and give the page. A page that is known in that sense can be loaded (`meets_loadPage`), and the
bytes that `expected_map_page` computes are such bytes (`pageIn_expectedMapPage`).

| here | there |
|---|---|
| `Repository.NamesBlock`, `NamesPage` | `validate_page_children` |
| `MapScope.PageIn`, `openMapPage_eq_ok` | `load_map_page` |
| `StorageError.Refusal` | errors of limits, representations and of the target |
-/

namespace W9pt.Storage

open Lib

variable {E : Type}

/-! ## Failures -/

/-- What keeps an object from being written: its length, or a primitive that is not compiled in. -/
def RepresentationError.Unwritable : RepresentationError → Prop
  | .invalidLength | .unsupportedCompression | .unsupportedCipher => True
  | _ => False

/-- A limit, a representation that cannot be made, or a failure of the world: what can stop a call
whose inputs are sound. -/
def StorageError.Refusal : StorageError E → Prop
  | .representation e => e.Unwritable
  | .limit _ | .target _ | .ambiguous _ _ | .corruption .immutableCollision => True
  | _ => False

theorem StorageError.Worldly.refusal {e : StorageError E} (h : e.Worldly) : e.Refusal := by
  cases e with
  | corruption error => cases error <;> first | exact h.elim | trivial
  | target => trivial
  | ambiguous => trivial
  | configuration | range | format | conflict | limit | preparation | representation | missing =>
    exact h.elim

/-! ## Names of blocks and pages -/

theorem intercalate_append {a b : List Bytes} (ha : a ≠ []) (hb : b ≠ []) :
    [slash].intercalate (a ++ b) = [slash].intercalate a ++ slash :: [slash].intercalate b := by
  induction a with
  | nil => exact absurd rfl ha
  | cons part parts ih =>
    cases parts with
    | nil =>
      obtain ⟨next, rest, rfl⟩ := List.exists_cons_of_ne_nil hb
      rw [List.singleton_append, List.intercalate_cons_cons, List.intercalate_singleton,
        List.append_assoc, List.singleton_append]
    | cons next rest =>
      rw [List.cons_append, List.cons_append, List.intercalate_cons_cons, ← List.cons_append,
        ih (by simp), List.intercalate_cons_cons]
      simp

theorem suffix_key (keys : KeySpace) (front back : List KeyComponent) (hfront : front ≠ [])
    (hback : back ≠ []) :
    slash :: [slash].intercalate (back.map KeyComponent.text) <:+ (keys.key (front ++ back)).text := by
  refine ⟨keys.root ++ slash :: [slash].intercalate (front.map KeyComponent.text), ?_⟩
  simp only [KeySpace.key, KeySpace.keyText, List.map_append]
  rw [intercalate_append (by simpa using hfront) (by simpa using hback)]
  simp

section Names

variable (repository : Repository) (context : FileCryptoContext) (file : FileId)

/-- The key is one of the block with this index (`validate_page_children`). -/
def Repository.NamesBlock (index : Nat) (key : ObjectKey) : Prop :=
  if context.policy.encryption.isEncrypted then
    (ascii "/blocks/" ++ hexText 16 index) <:+ key.text
  else repository.keys.validateBlockPayload file index key = .ok ()

/-- The key is one of the page at this place (`validate_page_children`). -/
def Repository.NamesPage (level firstBlock : Nat) (key : ObjectKey) : Prop :=
  if context.policy.encryption.isEncrypted then
    (ascii "/maps/" ++ hexText 2 level ++ ascii "/" ++ hexText 16 firstBlock) <:+ key.text
  else repository.keys.validateMapPage file level firstBlock key = .ok ()

theorem namesPage_objectKey {identity : PreparationIdentity} {attempt : UInt32} {level firstBlock : Nat}
    (hlevel : level < 2 ^ 8) (hfirst : firstBlock < 2 ^ 64) :
    repository.NamesPage context file level firstBlock
      (repository.objectKey context file (.mapPage identity attempt level firstBlock)) := by
  unfold Repository.NamesPage Repository.objectKey
  split
  · have htext : ascii "/maps/" = slash :: (KeyComponent.maps.text ++ [slash]) := by decide +kernel
    have hslash : ascii "/" = [slash] := by decide +kernel
    have hname : ascii "/maps/" ++ hexText 2 level ++ ascii "/" ++ hexText 16 firstBlock =
        slash :: [slash].intercalate
          ([.maps, .hex 2 level, .hex 16 firstBlock].map KeyComponent.text) := by
      simp only [htext, hslash, List.map_cons, List.map_nil, List.intercalate_cons_cons,
        List.intercalate_singleton, List.cons_append, List.append_assoc]
      rfl
    rw [hname]
    exact suffix_key repository.keys (KeySpace.token file _) [.maps, .hex 2 level, .hex 16 firstBlock]
      (by simp [KeySpace.token]) (by simp)
  · exact KeySpace.validateMapPage_mapPage hlevel hfirst

theorem ensureOwned_objectKey (provenance : ObjectProvenance) :
    repository.keys.ensureOwned (repository.objectKey context file provenance) = .ok () := by
  unfold Repository.objectKey
  split <;> split <;>
    exact KeySpace.ensureOwned_key (by simp [KeySpace.token])
      (by simp [KeySpace.preparation, KeySpace.token, longestSuffixBytes])

end Names

/-! ## Pages -/

/-- The children of a page are named by their keys. -/
def Repository.NamesChildren (repository : Repository) (context : FileCryptoContext) :
    BlockMapPage → Prop
  | .leaf file firstBlock entries =>
    ∀ e ∈ entries, repository.NamesBlock context file (firstBlock + e.1) e.2.key
  | .branch file _ _ entries =>
    ∀ e ∈ entries, repository.NamesPage context file e.2.level e.2.firstBlock e.2.key

/-- The bytes are those of a page that opens under the reference. -/
structure MapScope.PageIn (scope : MapScope) (reference : PageRef) (bytes : Bytes)
    (page : BlockMapPage) : Prop where
  length : bytes.length = reference.encodedLen
  digest : scope.repository.crypto.blake3 bytes = reference.digest
  decoded : ∃ identity attempt canonical,
    decodeObject scope.repository.crypto (.ifMapLevel reference.level) reference.key bytes scope.context
      scope.repository.limits.maxMapPageBytes =
        .ok ⟨canonical, .mapPage identity attempt reference.level reference.firstBlock⟩ ∧
    scope.repository.objectKey scope.context scope.fileId
      (.mapPage identity attempt reference.level reference.firstBlock) = reference.key ∧
    decodePage scope.repository.crypto canonical reference.level scope.repository.limits = .ok page
  placed : validatePageContext page reference scope.fileId scope.repository.limits = .ok ()
  named : scope.repository.NamesChildren scope.context page

variable {limits : StorageLimits} {page : BlockMapPage} {reference : PageRef} {bytes : Bytes}

theorem validatePageContext_eq_ok {file : FileId} {u : Unit} :
    validatePageContext page reference file limits = .ok u ↔
      reference.Valid limits ∧ page.fileId = file ∧
      (page.level = reference.level ∧ page.firstBlock = reference.firstBlock) ∧
      page.summary = .ok (reference.materializedBlockCount, reference.highestMaterializedBlock) := by
  simp only [validatePageContext, bind_eq_ok, ensure_eq_ok, validatePageRef_eq_ok, Prod.exists]
  constructor
  · rintro ⟨_, hvalid, _, hfile, _, hplace, count, highest, hsummary, rfl, rfl⟩
    exact ⟨hvalid, hfile, hplace, hsummary⟩
  · rintro ⟨hvalid, hfile, hplace, hsummary⟩
    exact ⟨(), hvalid, (), hfile, (), hplace, _, _, hsummary, rfl, rfl⟩

variable {crypto : Crypto}

theorem decodePage_valid {level : Nat} (h : decodePage crypto bytes level limits = .ok page) :
    validatePage crypto page limits = .ok () := by
  simp only [decodePage, bind_eq_ok, ensure_eq_ok, pure_eq_ok, Prod.exists] at h
  obtain ⟨_, -, _, -, _, _, -, _, hvalid, _, -, rfl⟩ := h
  exact hvalid

/-- The blocks of a page that passes its checks are far from the end of the block numbers. -/
theorem leaf_index_lt {file : FileId} {firstBlock : Nat} {entries : List (Nat × BlobRef)}
    {e : Nat × BlobRef} (h : validatePage crypto (.leaf file firstBlock entries) limits = .ok ())
    (he : e ∈ entries) :
    firstBlock + e.1 < 2 ^ 64 := by
  obtain ⟨⟨-, hdomain⟩, ⟨-, hslots, -⟩, -⟩ := validatePage_leaf.1 h
  have hslot := hslots e he
  unfold mapDomain at hdomain
  unfold blockMapFanout at hslot
  omega

theorem addWord_eq_ok {a b c : Nat} {field : String} :
    addWord a b field = .ok c ↔ a + b < 2 ^ 64 ∧ c = a + b := by
  unfold addWord
  simp only [bind_eq_ok, ensure_eq_ok, pure_eq_ok, exists_const]
  rw [eq_comm]

variable {repository : Repository} {context : FileCryptoContext}

/-- `validate_page_children` accepts just the pages with named children. -/
theorem validatePageChildren_eq_ok {u : Unit} (hvalid : validatePage crypto page limits = .ok ()) :
    (repository.validatePageChildren page context : Except (StorageError E) Unit) = .ok u ↔
      repository.NamesChildren context page := by
  cases page with
  | leaf file firstBlock entries =>
    simp only [Repository.validatePageChildren, forM_eq_ok, Repository.validateLeafChild, bind_eq_ok,
      fromFormat, mapErr_eq_ok, addWord_eq_ok, Repository.NamesChildren, Repository.NamesBlock]
    refine forall₂_congr fun e he => ?_
    have hlt := leaf_index_lt hvalid he
    simp only [hlt, true_and, exists_eq_left]
    split
    · simp only [ensure_eq_ok]
    · simp only [fromCorruption, mapErr_eq_ok]
  | branch file level firstBlock entries =>
    simp only [Repository.validatePageChildren, forM_eq_ok, Repository.validateBranchChild,
      Repository.NamesChildren, Repository.NamesPage]
    refine forall₂_congr fun e he => ?_
    split
    · simp
    · simp [fromCorruption]

variable {scope : MapScope}

/-- `load_map_page` accepts just the bytes of a page. -/
theorem openMapPage_eq_ok :
    (scope.repository.openMapPage scope.context scope.fileId reference bytes :
      Except (StorageError E) BlockMapPage) = .ok page ↔ scope.PageIn reference bytes page := by
  simp only [Repository.openMapPage, bind_eq_ok, ensure_eq_ok, fromRepresentation, mapErr_eq_ok]
  constructor
  · rintro ⟨_, hlength, _, hdigest, ⟨canonical, provenance⟩, hdecoded, h⟩
    dsimp only at h
    split at h
    · simp only [bind_eq_ok, ensure_eq_ok, Repository.validateObjectKey, fromPersistent,
      mapErr_eq_ok, pure_eq_ok] at h
      obtain ⟨_, ⟨rfl, rfl⟩, _, hkey, page', hpage, _, hplaced, _, hchildren, rfl⟩ := h
      exact ⟨hlength, hdigest, ⟨_, _, _, hdecoded, hkey, hpage⟩, hplaced,
        (validatePageChildren_eq_ok (decodePage_valid hpage)).1 hchildren⟩
    · cases h
  · rintro ⟨hlength, hdigest, ⟨identity, attempt, canonical, hdecoded, hkey, hpage⟩, hplaced, hnamed⟩
    refine ⟨(), hlength, (), hdigest, _, hdecoded, ?_⟩
    simp only [bind_eq_ok, ensure_eq_ok, Repository.validateObjectKey, fromPersistent, mapErr_eq_ok,
      pure_eq_ok]
    exact ⟨(), ⟨trivial, trivial⟩, (), hkey, page, hpage, (), hplaced, (),
      (validatePageChildren_eq_ok (decodePage_valid hpage)).2 hnamed, rfl⟩

/-- The place of a page fits the fields of its key and of its provenance. -/
theorem PageRef.Valid.place_lt
    (h : reference.Valid limits) : reference.level < 2 ^ 8 ∧ reference.firstBlock < 2 ^ 64 := by
  have hfirst : reference.firstBlock ≤ mapDomain := (Nat.le_add_right _ _).trans h.domain
  exact ⟨h.level.trans_lt (by decide), hfirst.trans_lt (by decide)⟩

section

variable (h : scope.PageIn reference bytes page)

include h

/-- What a page that opens says of itself and of its reference. -/
theorem MapScope.PageIn.facts :
    reference.Valid scope.repository.limits ∧
      validatePage scope.repository.crypto page scope.repository.limits = .ok () ∧
      page.fileId = scope.fileId ∧ page.level = reference.level ∧
      page.firstBlock = reference.firstBlock ∧
      page.summary = .ok (reference.materializedBlockCount, reference.highestMaterializedBlock) := by
  obtain ⟨identity, attempt, canonical, -, -, hpage⟩ := h.decoded
  obtain ⟨hvalid, hfile, ⟨hlevel, hfirst⟩, hsummary⟩ := validatePageContext_eq_ok.1 h.placed
  exact ⟨hvalid, decodePage_valid hpage, hfile, hlevel, hfirst, hsummary⟩

/-- Bytes open to one page only. -/
theorem MapScope.PageIn.unique {page' : BlockMapPage} (h' : scope.PageIn reference bytes page') :
    page = page' := by
  obtain ⟨identity, attempt, canonical, hdecoded, -, hpage⟩ := h.decoded
  obtain ⟨identity', attempt', canonical', hdecoded', -, hpage'⟩ := h'.decoded
  rw [hdecoded] at hdecoded'
  cases hdecoded'
  exact Except.ok.inj (hpage.symm.trans hpage')

/-- The key of a page that opens is owned and names its place. -/
theorem MapScope.PageIn.key :
    scope.repository.keys.ensureOwned reference.key = .ok () ∧
      scope.repository.NamesPage scope.context scope.fileId reference.level reference.firstBlock
        reference.key := by
  obtain ⟨identity, attempt, canonical, -, hkey, -⟩ := h.decoded
  obtain ⟨hlevel, hfirst⟩ := h.facts.1.place_lt
  rw [← hkey]
  exact ⟨ensureOwned_objectKey _ _ _ _, namesPage_objectKey _ _ _ hlevel hfirst⟩

end

/-- The object of a page and the reference to it. -/
def Repository.PageObject (repository : Repository) (context : FileCryptoContext) (page : BlockMapPage)
    (identity : PreparationIdentity) (attempt : UInt32) (reference : PageRef) (stored : Bytes) : Prop :=
  ∃ canonical count highest,
    encodePage repository.crypto page repository.limits = .ok canonical ∧
    page.summary = .ok (count, highest) ∧
    encodeObject repository.crypto (.ifMapLevel page.level)
      (repository.objectKey context page.fileId (.mapPage identity attempt page.level page.firstBlock))
      canonical (.mapPage identity attempt page.level page.firstBlock) context false
      repository.limits.maxMapPageBytes = .ok stored ∧
    reference = ⟨repository.objectKey context page.fileId
        (.mapPage identity attempt page.level page.firstBlock), stored.length,
      repository.crypto.blake3 stored, page.level, page.firstBlock, count, highest⟩

variable {identity : PreparationIdentity} {attempt : UInt32}

/-- `expected_map_page` computes the object of a page. -/
theorem pageObject_of_expectedMapPage {stored : Bytes}
    (h : (repository.expectedMapPage context page identity attempt : Except (StorageError E) _) =
      .ok (reference, stored)) :
    repository.PageObject context page identity attempt reference stored := by
  simp only [Repository.expectedMapPage, bind_eq_ok, Prod.exists, pure_eq_ok, Prod.mk.injEq,
    fromPersistent, fromRepresentation, mapErr_eq_ok] at h
  obtain ⟨canonical, hcanonical, count, highest, hsummary, _, -, encoded, hencoded, rfl, rfl⟩ := h
  exact ⟨canonical, count, highest, hcanonical, hsummary, hencoded, rfl⟩

/-- **The bytes computed for a page open to it**, where the key is short enough to be written, the page
maps at most the permitted number of blocks and its children are named by their keys. -/
theorem pageIn_expectedMapPage (lawful : scope.repository.crypto.Lawful) {stored : Bytes}
    (h : (scope.repository.expectedMapPage scope.context page identity attempt :
      Except (StorageError E) _) = .ok (reference, stored)) (hfile : page.fileId = scope.fileId)
    (hkey : reference.key.text.length < 2 ^ 32)
    (hcount : reference.materializedBlockCount ≤ scope.repository.limits.maxMaterializedBlocks)
    (hnamed : scope.repository.NamesChildren scope.context page) :
    scope.PageIn reference stored page := by
  have hlength : checkedKeyLength reference.key scope.repository.limits = .ok () := by
    rw [key_expectedMapPage h] at hkey ⊢
    exact (checkedKeyLength_objectKey _ _).2 hkey
  have hreference := validatePageRef_eq_ok.1 ((validatePageRef_expectedMapPage lawful h).2 ⟨hlength, hcount⟩)
  obtain ⟨canonical, count, highest, hcanonical, hsummary, hstored, rfl⟩ :=
    pageObject_of_expectedMapPage h
  obtain ⟨-, hbound, hcanonicalEq⟩ := encodePage_eq_ok.1 hcanonical
  have hcanonicalLength : canonical.length ≤ scope.repository.limits.maxMapPageBytes := by
    rw [hcanonicalEq, List.length_append, length_envelopeHeader]
    exact hbound
  have hfits : (ObjectProvenance.mapPage identity attempt page.level page.firstBlock).Fits :=
    hreference.place_lt
  refine ⟨rfl, rfl, ⟨identity, attempt, canonical, ?_, ?_, decodePage_encodePage hcanonical⟩, ?_, hnamed⟩
  · exact decodeObject_encodeObject lawful hfits (maxMapPageBytes_lt _) hcanonicalLength hstored
  · rw [← hfile]
  · exact validatePageContext_eq_ok.2 ⟨hreference, hfile, ⟨rfl, rfl⟩, hsummary⟩

/-! ## Loading and computing pages -/

theorem unwritable_checkedSum (values : List Nat) :
    OnlyFails RepresentationError.Unwritable (checkedSum values) := by
  unfold checkedSum
  split
  · exact onlyFails_ok
  · exact onlyFails_error trivial

variable {key : ObjectKey}

theorem unwritable_decodeWorkingBytes {canonicalLen storedLen : Nat} :
    OnlyFails RepresentationError.Unwritable (decodeWorkingBytes canonicalLen storedLen key context) :=
  OnlyFails.bind (unwritable_checkedSum _) fun _ _ => unwritable_checkedSum _

variable {payloadCompression : Bool}

theorem unwritable_encodeWorkingBytes {canonicalLen : Nat} {provenance : ObjectProvenance} :
    OnlyFails RepresentationError.Unwritable
      (encodeWorkingBytes crypto canonicalLen key provenance context payloadCompression) := by
  refine OnlyFails.bind ?_ fun _ _ => OnlyFails.bind (unwritable_checkedSum _) fun _ _ =>
    OnlyFails.bind (unwritable_checkedSum _) fun _ _ => OnlyFails.bind (unwritable_checkedSum _)
      fun _ _ => OnlyFails.bind (unwritable_checkedSum _) fun _ _ => unwritable_checkedSum _
  unfold codecCapacity maximumEncodeCapacity
  split
  · split
    · exact onlyFails_ok
    · split
      · exact onlyFails_ok
      · exact onlyFails_error trivial
  · exact onlyFails_ok

/-- An object is encoded, or is too long, or its primitives are not compiled in. -/
theorem unwritable_encodeObject (lawful : crypto.Lawful) {kind : ObjectKind} {canonical : Bytes}
    {provenance : ObjectProvenance} {maxStored : Nat} :
    OnlyFails RepresentationError.Unwritable
      (encodeObject crypto kind key canonical provenance context payloadCompression maxStored) := by
  refine OnlyFails.bind ?_ fun _ _ => OnlyFails.bind (onlyFails_ensure trivial) fun _ _ =>
    OnlyFails.bind (onlyFails_ensure trivial) fun _ _ => OnlyFails.bind ?_ fun _ _ => onlyFails_ok
  · obtain ⟨compressed, hcompressed⟩ := Option.isSome_iff_exists.1 (lawful.compress canonical)
    unfold packed compress
    split
    · split
      · exact onlyFails_ok
      · refine OnlyFails.bind (onlyFails_ensure trivial) fun _ _ => ?_
        rw [hcompressed]
        simp only [okOr, ok_bind]
        split <;> exact onlyFails_ok
    · exact onlyFails_ok
  · unfold protectBody
    split
    · exact onlyFails_ok
    · rename_i hcipher
      obtain ⟨dek, hdek⟩ := Option.isSome_iff_exists.1
        (context.dek_present.trans (by rw [hcipher]; rfl))
      simp only [FileCryptoContext.fileKey, hdek, okOr, ok_bind]
      refine OnlyFails.bind (onlyFails_ensure trivial) fun _ _ => ?_
      obtain ⟨sealed, hsealed⟩ := Option.isSome_iff_exists.1 (lawful.encrypt
        (objectCipherKey crypto dek key.text) _ _)
      rw [hsealed]
      exact onlyFails_ok

theorem refusal_checkRepresentationWork {work : Except RepresentationError Nat}
    (h : OnlyFails RepresentationError.Unwritable work) :
    OnlyFails StorageError.Refusal (do
      let actual ← fromRepresentation work
      repository.checkRepresentationWork actual : Except (StorageError E) Unit) :=
  OnlyFails.bind (OnlyFails.mapErr h) fun _ _ => OnlyFails.mapErr fun _ _ => trivial

/-- A page that passes its checks is encoded, or that is refused. -/
theorem refusal_expectedMapPage (lawful : repository.crypto.Lawful) {count highest : Nat}
    (hvalid : validatePage repository.crypto page repository.limits = .ok ())
    (hsummary : page.summary = .ok (count, highest)) :
    OnlyFails StorageError.Refusal (repository.expectedMapPage context page identity attempt :
      Except (StorageError E) (PageRef × Bytes)) := by
  have hencode : OnlyFails (fun e => (StorageError.ofPersistent e : StorageError E).Refusal)
      (encodePage repository.crypto page repository.limits) := by
    unfold encodePage
    rw [hvalid, ok_bind]
    exact OnlyFails.bind (OnlyFails.mapErr fun _ _ => trivial) fun _ _ =>
      OnlyFails.mapErr fun _ _ => trivial
  unfold Repository.expectedMapPage
  refine OnlyFails.bind (OnlyFails.mapErr hencode) fun canonical _ => ?_
  simp only [hsummary, fromPersistent, mapErr, ok_bind]
  refine OnlyFails.bind (refusal_checkRepresentationWork unwritable_encodeWorkingBytes)
    fun _ _ => ?_
  exact OnlyFails.bind (OnlyFails.mapErr (unwritable_encodeObject lawful)) fun _ _ => onlyFails_ok

def MapScope.Opens (scope : MapScope) (view : View) (reference : PageRef) (page : BlockMapPage) : Prop :=
  ∃ bytes, view reference.key = some bytes ∧ scope.PageIn reference bytes page

theorem MapScope.Opens.mono {view view' : View}
    (h : scope.Opens view reference page) (hview : View.Extends view view') :
    scope.Opens view' reference page := by
  obtain ⟨bytes, hkey, hpage⟩ := h
  exact ⟨bytes, hview _ _ hkey, hpage⟩

theorem MapScope.Opens.unique {view : View} {page' : BlockMapPage} (h : scope.Opens view reference page)
    (h' : scope.Opens view reference page') : page = page' := by
  obtain ⟨bytes, hkey, hpage⟩ := h
  obtain ⟨bytes', hkey', hpage'⟩ := h'
  cases hkey.symm.trans hkey'
  exact hpage.unique hpage'

/-- The context is the one of the file. -/
def MapScope.Bound (scope : MapScope) : Prop := scope.context.binding.fileId = scope.fileId

/-- **A known page is loaded**, or the load is refused. -/
theorem meets_loadPage (hscope : scope.Bound) {may : Policy} {ledger : Ledger}
    (h : scope.Opens ledger.view reference page) {depth : Nat} :
    Meets (scope.repository.onMap may) (fun p l => p = page ∧ l = ledger)
      (fun e l => e.Refusal ∧ l = ledger)
      (scope.loadPage reference depth : MapProg E BlockMapPage) ledger := by
  obtain ⟨bytes, hkey, hpage⟩ := h
  refine Meets.bind (meets_observeDepth ?_ fun _ => ⟨trivial, rfl⟩)
  refine Meets.bind (meets_chargeRead ?_ fun _ => ⟨trivial, rfl⟩)
  refine meets_onObjects (Meets.lift_bind (fun _ _ => ?_) fun e he => ⟨?_, rfl⟩)
  · have hlength := hpage.length.le
    have hobject : bytes.length ≤ scope.repository.limits.maxObjectBytes :=
      hlength.trans (hpage.facts.1.encodedLen.trans scope.repository.limits.consistent.2.1)
    refine Meets.bind (meets_query ⟨bytes, hkey, hlength, hobject⟩ ?_
      fun e l he => ⟨he.1.worldly.refusal, he.2⟩)
    rintro bytes' l ⟨hbytes', rfl⟩
    cases hkey.symm.trans hbytes'
    rw [openMapPage_eq_ok.2 hpage]
    exact ⟨rfl, rfl⟩
  · have hcontext : (Repository.validateContext scope.fileId scope.context.policy.method scope.context :
        Except (StorageError E) Unit) = .ok () := ensure_of ⟨hscope, rfl⟩
    simp only [Repository.checkMapPage, hcontext, hpage.key.1, fromCorruption, mapErr, ok_bind] at he
    exact refusal_checkRepresentationWork unwritable_decodeWorkingBytes e he

/-! ## Payloads -/

section Payloads

variable {repository : Repository} {context : FileCryptoContext}

/-- The object of a payload is known under the key of its reference. -/
def Repository.Holds (repository : Repository) (context : FileCryptoContext) (view : View)
    (blob : BlobRef) (plaintext : Bytes) : Prop :=
  ∃ provenance stored, provenance.Fits ∧
    blob = ⟨repository.objectKey context context.binding.fileId provenance, plaintext.length,
      stored.length, repository.crypto.blake3 plaintext⟩ ∧
    (∃ work ≤ repository.limits.maxRepresentationWorkingBytes,
      encodeWorkingBytes repository.crypto plaintext.length blob.key provenance context true =
        .ok work) ∧
    encodeObject repository.crypto .payload blob.key plaintext provenance context true
      repository.limits.maxObjectBytes = .ok stored ∧
    view blob.key = some stored

theorem checkedSum_eq_ok {values : List Nat} {sum : Nat} :
    checkedSum values = .ok sum ↔ values.sum = sum ∧ sum ≤ wordMax := by
  unfold checkedSum
  split
  · constructor
    · rintro ⟨⟩
      exact ⟨rfl, ‹_›⟩
    · rintro ⟨rfl, -⟩
      rfl
  · constructor
    · intro h
      cases h
    · rintro ⟨rfl, hle⟩
      exact absurd hle ‹_›

/-- **What was encoded within the working memory is decoded within it.** -/
theorem checkDecode_of_checkEncode (lawful : repository.crypto.Lawful) {key : ObjectKey}
    {provenance : ObjectProvenance} {plaintext stored : Bytes} {kind : ObjectKind} {maxStored : Nat}
    {compression : Bool} {work : Nat} (hlimit : work ≤ repository.limits.maxRepresentationWorkingBytes)
    (hwork : encodeWorkingBytes repository.crypto plaintext.length key provenance context compression =
      .ok work)
    (hencode : encodeObject repository.crypto kind key plaintext provenance context compression
      maxStored = .ok stored) :
    (repository.checkDecodeRepresentationWork plaintext.length stored.length key context :
      Except (StorageError E) Unit) = .ok () := by
  obtain ⟨codec, encoded, hpacked, hlength, -⟩ := length_encodeObject lawful hencode
  obtain ⟨hshort, -⟩ := decompress_packed lawful hpacked
  simp only [Repository.checkDecodeRepresentationWork, Repository.checkRepresentationWork,
    encodeWorkingBytes, decodeWorkingBytes, fromRepresentation, fromLimit, bind_eq_ok, mapErr_eq_ok,
    checkedSum_eq_ok, requireWithin_eq_ok] at hwork ⊢
  obtain ⟨capacity, -, body, ⟨rfl, -⟩, protected', ⟨rfl, -⟩, total, ⟨rfl, -⟩, aad, ⟨rfl, haad⟩, rfl,
    hword⟩ := hwork
  simp only [List.sum_cons, List.sum_nil] at haad hword hlimit ⊢
  have hfixed : outerHeaderBytes ≤ bodyFixedBytes := by decide
  exact ⟨_, ⟨_, ⟨rfl, haad⟩, rfl, by omega⟩, by omega⟩

/-- A payload is stored under the key of its own provenance, or that is refused. -/
theorem meets_storePayload (lawful : repository.crypto.Lawful) {provenance : ObjectProvenance}
    (fits : provenance.Fits) (plaintext : Bytes) (ledger : Ledger) :
    Meets (repository.objects Policy.free)
      (fun blob l => repository.Holds context l.view blob plaintext) (fun e _ => e.Refusal)
      (repository.storePayload context
        (repository.objectKey context context.binding.fileId provenance) provenance plaintext :
        ObjectProg E BlobRef) ledger := by
  refine Meets.lift_bind (fun blob hblob => ?_) ?_
  · simp only [Repository.expectedPayload, Repository.checkEncodeRepresentationWork,
      Repository.checkRepresentationWork, fromRepresentation, fromLimit, bind_eq_ok, mapErr_eq_ok,
      requireWithin_eq_ok, pure_eq_ok] at hblob
    obtain ⟨_, -, _, ⟨work, hwork, hlimit⟩, stored, hstored, rfl⟩ := hblob
    have hencode := mapErr_eq_ok.1 hstored
    obtain ⟨-, -, -, -, hmax⟩ := length_encodeObject lawful hencode
    refine Meets.ok_bind hstored (Meets.bind (meets_query ⟨trivial, hmax⟩ ?_ fun e l he => he.1.refusal))
    rintro _ _ ⟨-, rfl⟩
    exact ⟨provenance, stored, fits, rfl, ⟨work, hlimit, hwork⟩, hencode, ledger.view_put_self _ _⟩
  · exact OnlyFails.bind (onlyFails_ensure trivial) fun _ _ => OnlyFails.bind
      (refusal_checkRepresentationWork unwritable_encodeWorkingBytes) fun _ _ => OnlyFails.bind
        (OnlyFails.mapErr (unwritable_encodeObject lawful)) fun _ _ => onlyFails_ok

/-- A payload that is known is loaded, unless the target fails. -/
theorem meets_loadPayload (lawful : repository.crypto.Lawful) {ledger : Ledger} {blob : BlobRef}
    {plaintext : Bytes} (h : repository.Holds context ledger.view blob plaintext) :
    Meets (repository.objects Policy.free) (fun bytes _ => bytes = plaintext)
      (fun e _ => e.FromTarget) (repository.loadPayload context blob : ObjectProg E Bytes) ledger := by
  obtain ⟨provenance, stored, fits, rfl, ⟨work, hlimit, hwork⟩, hencode, hview⟩ := h
  obtain ⟨-, -, -, -, hmax⟩ := length_encodeObject lawful hencode
  refine Meets.ok_bind (mapErr_eq_ok.2 (ensureOwned_objectKey _ _ _ _))
    (Meets.ok_bind (checkDecode_of_checkEncode lawful hlimit hwork hencode)
      (Meets.bind (meets_query ⟨stored, hview, le_rfl, hmax⟩ ?_ fun e l he => he.1)))
  rintro _ _ ⟨hbytes, rfl⟩
  cases hview.symm.trans hbytes
  simp only [Repository.openPayload, Repository.validateObjectKey, ensure_of, fromRepresentation,
    decodeObject_encodeObject lawful fits repository.limits.maxObjectBytes_lt le_rfl hencode,
    mapErr, ok_bind, and_self]
  rfl

/-- **A stored payload is read back.** After a store that succeeded, every load through the reference it
returned gives the payload, whatever others add to the target, or the target refuses the call. A store
fails only where a limit, the representation or the target refuses it. -/
theorem payload_readBack (lawful : repository.crypto.Lawful) (context : FileCryptoContext)
    {provenance : ObjectProvenance} (fits : provenance.Fits) (plaintext : Bytes)
    {x y : Target.Recorded} {result : Except (StorageError E) BlobRef}
    (hrun : repository.Runs x (repository.storePayload context
      (repository.objectKey context context.binding.fileId provenance) provenance plaintext) result y) :
    match result with
    | .error e => e.Refusal
    | .ok blob => ∀ z (found : Except (StorageError E) Bytes),
        repository.Runs y (repository.loadPayload context blob) found z →
        found = .ok plaintext ∨ ∃ error, found = .error (.target error) := by
  have hends := hrun.ends (meets_storePayload lawful fits plaintext _)
  cases result with
  | error e =>
    obtain ⟨l, he, -⟩ := hends
    exact he
  | ok blob =>
    obtain ⟨l, ⟨provenance, stored, fits, hblob, hwork, hencode, hview⟩, hagrees⟩ := hends
    intro z found hload
    have hholds : repository.Holds context (Ledger.of y).view blob plaintext :=
      ⟨provenance, stored, fits, hblob, hwork, hencode, hagrees.known _ _ hview⟩
    have hloads := hload.ends (meets_loadPayload lawful hholds)
    cases found with
    | error e =>
      obtain ⟨-, ⟨error, rfl⟩, -⟩ := hloads
      exact .inr ⟨error, rfl⟩
    | ok bytes =>
      obtain ⟨-, rfl, -⟩ := hloads
      exact .inl rfl

end Payloads

/-- The program that stores a hundred bytes, compressed and encrypted. -/
def storeSealed : ObjectProg MemoryTargetError BlobRef :=
  sampleRepository.storePayload sealedContext
    (sampleRepository.objectKey sealedContext ⟨1⟩ sampleProvenance) sampleProvenance (.replicate 100 7)

def sealedBlob : BlobRef :=
  match (sampleRepository.evalOn storeSealed .new).1 with
  | .ok blob => blob
  | .error _ => ⟨samplePlace, 0, 0, 0⟩

/-- A hundred bytes are stored in two, encrypted, and loaded again. -/
theorem payload_readBack_sealed : sealedBlob.storedLen = 232 ∧ ∃ x y z,
    sampleRepository.Runs x storeSealed (.ok sealedBlob) y ∧
    sampleRepository.Runs y (sampleRepository.loadPayload sealedContext sealedBlob)
      (.ok (.replicate 100 7) : Except (StorageError MemoryTargetError) Bytes) z ∧
    ∀ z' (found : Except (StorageError MemoryTargetError) Bytes),
      sampleRepository.Runs y (sampleRepository.loadPayload sealedContext sealedBlob) found z' →
      found = .ok (.replicate 100 7) ∨ ∃ error, found = .error (.target error) := by
  have fits : sampleProvenance.Fits := trivial
  obtain ⟨y, hstore, hmodels⟩ := sampleRepository.runs_evalOn (x := (Target.empty, [])) storeSealed
    MemoryTarget.models_new (by decide +kernel)
  have hstored : (sampleRepository.evalOn storeSealed .new).1 = .ok sealedBlob := by decide +kernel
  rw [hstored] at hstore
  obtain ⟨z, hload, -⟩ := sampleRepository.runs_evalOn
    (sampleRepository.loadPayload sealedContext sealedBlob) hmodels (by decide +kernel)
  have hloaded : (sampleRepository.evalOn (sampleRepository.loadPayload sealedContext sealedBlob)
      (sampleRepository.evalOn storeSealed .new).2).1 = .ok (.replicate 100 7) := by decide +kernel
  rw [hloaded] at hload
  exact ⟨by decide +kernel, _, y, z, hstore, hload,
    payload_readBack sampleCrypto_lawful sealedContext fits _ hstore⟩

end W9pt.Storage

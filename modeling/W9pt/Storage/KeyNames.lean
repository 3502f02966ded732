import W9pt.Storage.Keys

/-!
# Keys name one object each

`KeyName` lists what `keys.rs` builds keys for, with the arguments of the builders; `KeySpace.build` is
the builder. In one key space no two names share a key (`build_injective`: neither two kinds nor two
arguments of one kind), a key that one of the parsers accepts is the one that is built from what it
parsed (`parseManifest_eq_ok`, `validateMapPage_eq_ok`, …), and key spaces whose roots do not lie below
one another have no key in common (`roots_of_shared`).
-/

namespace W9pt.Storage

open Lib

/-! ## Names -/

/-- The arguments of the key builders (keys.rs:99-236). -/
inductive KeyName where
  | format
  | head (file : FileId)
  | manifest (file : FileId) (identity : PreparationIdentity) (attempt : UInt32)
  | rawPayload (file : FileId) (identity : PreparationIdentity) (attempt : UInt32)
  | blockPayload (file : FileId) (identity : PreparationIdentity) (attempt : UInt32)
      (blockIndex : UInt64)
  | mapPage (file : FileId) (identity : PreparationIdentity) (attempt : UInt32) (level : UInt8)
      (firstBlock : UInt64)
  | protectedManifest (file : FileId) (token : Digest)
  | protectedRawPayload (file : FileId) (token : Digest)
  | protectedBlockPayload (file : FileId) (token : Digest) (blockIndex : UInt64)
  | protectedMapPage (file : FileId) (token : Digest) (level : UInt8) (firstBlock : UInt64)

namespace KeySpace

variable (keys : KeySpace)

def build : KeyName → ObjectKey
  | .format => keys.format
  | .head file => keys.head file
  | .manifest file identity attempt => keys.manifest file identity attempt
  | .rawPayload file identity attempt => keys.rawPayload file identity attempt
  | .blockPayload file identity attempt blockIndex =>
    keys.blockPayload file identity attempt blockIndex.toNat
  | .mapPage file identity attempt level firstBlock =>
    keys.mapPage file identity attempt level.toNat firstBlock.toNat
  | .protectedManifest file token => keys.protectedManifest file token
  | .protectedRawPayload file token => keys.protectedRawPayload file token
  | .protectedBlockPayload file token blockIndex =>
    keys.protectedBlockPayload file token blockIndex.toNat
  | .protectedMapPage file token level firstBlock =>
    keys.protectedMapPage file token level.toNat firstBlock.toNat

end KeySpace

namespace KeyName

def components : KeyName → List KeyComponent
  | format => [.v3, .format]
  | head file => [.v3, .refs, .files, .hex 32 file.bits.toNat]
  | manifest file identity attempt => .v3 :: .manifests :: KeySpace.preparation file identity attempt
  | rawPayload file identity attempt =>
    .v3 :: .data :: KeySpace.preparation file identity attempt ++ [.raw]
  | blockPayload file identity attempt blockIndex =>
    .v3 :: .data :: KeySpace.preparation file identity attempt ++ [.blocks, .hex 16 blockIndex.toNat]
  | mapPage file identity attempt level firstBlock =>
    .v3 :: .maps :: KeySpace.preparation file identity attempt ++
      [.hex 2 level.toNat, .hex 16 firstBlock.toNat]
  | protectedManifest file token => KeySpace.token file token ++ [.manifest]
  | protectedRawPayload file token => KeySpace.token file token ++ [.raw]
  | protectedBlockPayload file token blockIndex =>
    KeySpace.token file token ++ [.blocks, .hex 16 blockIndex.toNat]
  | protectedMapPage file token level firstBlock =>
    KeySpace.token file token ++ [.maps, .hex 2 level.toNat, .hex 16 firstBlock.toNat]

theorem build_eq (keys : KeySpace) (name : KeyName) : keys.build name = keys.key name.components := by
  cases name <;> rfl

theorem components_ne_nil (name : KeyName) : name.components ≠ [] := by
  cases name <;> simp [components, KeySpace.token]

/-! ## Different names have different components -/

/-- What tells the kinds apart: the number of components, the second, and of five the last. -/
def mark (components : List KeyComponent) : Nat × Option KeyComponent × Option KeyComponent :=
  (components.length, components[1]?, if components.length = 5 then components[4]? else none)

def kindMark : KeyName → Nat × Option KeyComponent × Option KeyComponent
  | format => (2, some .format, none)
  | head _ => (4, some .refs, none)
  | manifest .. => (8, some .manifests, none)
  | rawPayload .. => (9, some .data, none)
  | blockPayload .. => (10, some .data, none)
  | mapPage .. => (10, some .maps, none)
  | protectedManifest .. => (5, some .guarded, some .manifest)
  | protectedRawPayload .. => (5, some .guarded, some .raw)
  | protectedBlockPayload .. => (6, some .guarded, none)
  | protectedMapPage .. => (7, some .guarded, none)

theorem mark_components (name : KeyName) : mark name.components = name.kindMark := by
  cases name <;> rfl

theorem file_inj {file file' : FileId}
    (h : KeyComponent.hex 32 file.bits.toNat = KeyComponent.hex 32 file'.bits.toNat) : file = file' :=
  FixedId.rank_inj.1 (KeySpace.hex_inj file.bits.isLt file'.bits.isLt h)

theorem word_inj {a b : UInt64} (h : KeyComponent.hex 16 a.toNat = KeyComponent.hex 16 b.toNat) :
    a = b :=
  UInt64.toNat_inj.1 (KeySpace.hex_inj a.toNat_lt b.toNat_lt h)

theorem level_inj {a b : UInt8} (h : KeyComponent.hex 2 a.toNat = KeyComponent.hex 2 b.toNat) :
    a = b :=
  UInt8.toNat_inj.1 (KeySpace.hex_inj a.toNat_lt b.toNat_lt h)

theorem token_inj {file file' : FileId} {token token' : Digest}
    (h : KeySpace.token file token = KeySpace.token file' token') : file = file' ∧ token = token' := by
  simp only [KeySpace.token, List.cons.injEq, true_and, and_true] at h
  exact ⟨file_inj h.1, BitVec.eq_of_toNat_eq (KeySpace.hex_inj token.isLt token'.isLt h.2)⟩

theorem length_preparation (file : FileId) (identity : PreparationIdentity) (attempt : UInt32) :
    (KeySpace.preparation file identity attempt).length = 6 := rfl

theorem length_token (file : FileId) (token : Digest) : (KeySpace.token file token).length = 4 := rfl

theorem data_ne_maps : KeyComponent.data ≠ .maps := by decide +kernel

theorem manifest_ne_raw : KeyComponent.manifest ≠ .raw := by decide +kernel

theorem components_injective : Function.Injective components := by
  intro a b h
  have hmark : a.kindMark = b.kindMark := by
    rw [← mark_components, ← mark_components, h]
  cases a with
  | format =>
    cases b with
    | format => rfl
    | _ => simp [kindMark] at hmark
  | head file =>
    cases b with
    | head file' =>
      simp only [components, List.cons.injEq, true_and, and_true] at h
      rw [file_inj h]
    | _ => simp [kindMark] at hmark
  | manifest file identity attempt =>
    cases b with
    | manifest file' identity' attempt' =>
      simp only [components, List.cons.injEq, true_and] at h
      obtain ⟨rfl, rfl, rfl⟩ := KeySpace.preparation_inj h
      rfl
    | _ => simp [kindMark] at hmark
  | rawPayload file identity attempt =>
    cases b with
    | rawPayload file' identity' attempt' =>
      simp only [components, List.cons_append, List.cons.injEq, true_and] at h
      obtain ⟨hpreparation, -⟩ := List.append_inj h (by simp only [length_preparation])
      obtain ⟨rfl, rfl, rfl⟩ := KeySpace.preparation_inj hpreparation
      rfl
    | _ => simp [kindMark] at hmark
  | blockPayload file identity attempt blockIndex =>
    cases b with
    | blockPayload file' identity' attempt' blockIndex' =>
      simp only [components, List.cons_append, List.cons.injEq, true_and] at h
      obtain ⟨hpreparation, hlast⟩ := List.append_inj h (by simp only [length_preparation])
      obtain ⟨rfl, rfl, rfl⟩ := KeySpace.preparation_inj hpreparation
      simp only [List.cons.injEq, true_and, and_true] at hlast
      rw [word_inj hlast]
    | mapPage => simp [kindMark, data_ne_maps] at hmark
    | _ => simp [kindMark] at hmark
  | mapPage file identity attempt level firstBlock =>
    cases b with
    | mapPage file' identity' attempt' level' firstBlock' =>
      simp only [components, List.cons_append, List.cons.injEq, true_and] at h
      obtain ⟨hpreparation, hlast⟩ := List.append_inj h (by simp only [length_preparation])
      obtain ⟨rfl, rfl, rfl⟩ := KeySpace.preparation_inj hpreparation
      simp only [List.cons.injEq, and_true] at hlast
      rw [level_inj hlast.1, word_inj hlast.2]
    | blockPayload => simp [kindMark, data_ne_maps.symm] at hmark
    | _ => simp [kindMark] at hmark
  | protectedManifest file token =>
    cases b with
    | protectedManifest file' token' =>
      obtain ⟨htoken, -⟩ := List.append_inj h (by simp only [length_token])
      obtain ⟨rfl, rfl⟩ := token_inj htoken
      rfl
    | protectedRawPayload => simp [kindMark, manifest_ne_raw] at hmark
    | _ => simp [kindMark] at hmark
  | protectedRawPayload file token =>
    cases b with
    | protectedRawPayload file' token' =>
      obtain ⟨htoken, -⟩ := List.append_inj h (by simp only [length_token])
      obtain ⟨rfl, rfl⟩ := token_inj htoken
      rfl
    | protectedManifest => simp [kindMark, manifest_ne_raw.symm] at hmark
    | _ => simp [kindMark] at hmark
  | protectedBlockPayload file token blockIndex =>
    cases b with
    | protectedBlockPayload file' token' blockIndex' =>
      obtain ⟨htoken, hlast⟩ := List.append_inj h (by simp only [length_token])
      obtain ⟨rfl, rfl⟩ := token_inj htoken
      simp only [List.cons.injEq, true_and, and_true] at hlast
      rw [word_inj hlast]
    | _ => simp [kindMark] at hmark
  | protectedMapPage file token level firstBlock =>
    cases b with
    | protectedMapPage file' token' level' firstBlock' =>
      obtain ⟨htoken, hlast⟩ := List.append_inj h (by simp only [length_token])
      obtain ⟨rfl, rfl⟩ := token_inj htoken
      simp only [List.cons.injEq, true_and, and_true] at hlast
      rw [level_inj hlast.1, word_inj hlast.2]
    | _ => simp [kindMark] at hmark

theorem length_components_le (name : KeyName) :
    (name.components.map fun c => c.text.length + 1).sum ≤ longestSuffixBytes := by
  cases name <;> simp [components, KeySpace.preparation, KeySpace.token, longestSuffixBytes]

end KeyName

namespace KeySpace

variable {keys : KeySpace}

/-- **No two names share a key.** -/
theorem build_injective (keys : KeySpace) : Function.Injective keys.build := by
  intro a b h
  rw [KeyName.build_eq, KeyName.build_eq] at h
  exact KeyName.components_injective (key_inj a.components_ne_nil b.components_ne_nil h)

theorem length_build_le (keys : KeySpace) (name : KeyName) :
    (keys.build name).text.length ≤ keys.maxKeyBytes := by
  rw [KeyName.build_eq]
  exact length_key_le name.components_ne_nil name.length_components_le

theorem mem_build {name : KeyName} {b : UInt8}
    (h : b ∈ (keys.build name).text.drop keys.root.length) : 0x20 ≤ b ∧ b < 0x7f := by
  rw [KeyName.build_eq] at h
  simp only [key, keyText, List.drop_left, List.mem_cons] at h
  rcases h with rfl | h
  · decide
  · rcases mem_suffix h with rfl | hplain
    · decide
    · exact hplain

/-! ## Parsed keys are built keys -/

end KeySpace

theorem hexNibble_eq_some {b : UInt8} {digit : Nat} (h : hexNibble b = some digit) :
    hexDigit digit = b ∧ digit < 16 := by
  unfold hexNibble at h
  have hb := b.toNat_lt
  split at h
  · rename_i hrange
    obtain ⟨hlow, hhigh⟩ := hrange
    have hlow' : 0x30 ≤ b.toNat := UInt8.le_iff_toNat_le.1 hlow
    have hhigh' : b.toNat ≤ 0x39 := UInt8.le_iff_toNat_le.1 hhigh
    obtain rfl := Option.some.inj h
    refine ⟨UInt8.toNat_inj.1 ?_, by omega⟩
    rw [hexDigit, if_pos (by omega), UInt8.toNat_ofNat']
    omega
  · split at h
    · rename_i hrange
      obtain ⟨hlow, hhigh⟩ := hrange
      have hlow' : 0x61 ≤ b.toNat := UInt8.le_iff_toNat_le.1 hlow
      have hhigh' : b.toNat ≤ 0x66 := UInt8.le_iff_toNat_le.1 hhigh
      obtain rfl := Option.some.inj h
      refine ⟨UInt8.toNat_inj.1 ?_, by omega⟩
      rw [hexDigit, if_neg (by omega), UInt8.toNat_ofNat']
      omega
    · cases h

theorem foldlM_hexStep_eq_some {text : Bytes} {value : Nat} (h : text.foldlM hexStep 0 = some value) :
    text = hexText text.length value ∧ value < 16 ^ text.length := by
  induction text using List.reverseRecOn generalizing value with
  | nil =>
    obtain rfl : 0 = value := by simpa using h
    exact ⟨rfl, by decide⟩
  | append_singleton text b ih =>
    simp only [List.foldlM_append, List.foldlM_cons, List.foldlM_nil, Option.bind_eq_bind,
      Option.bind_eq_some_iff, Option.pure_def, hexStep, Option.map_eq_some_iff] at h
    obtain ⟨before, hbefore, _, ⟨digit, hdigit, rfl⟩, hvalue⟩ := h
    obtain rfl := Option.some.inj hvalue
    obtain ⟨htext, hlt⟩ := ih hbefore
    obtain ⟨hb, hdigitLt⟩ := hexNibble_eq_some hdigit
    have hdiv : (before * 16 + digit) / 16 = before := by omega
    have hmod : (before * 16 + digit) % 16 = digit := by omega
    rw [List.length_append, List.length_singleton, hexText, hdiv, hmod, hb, ← htext, pow_succ]
    exact ⟨rfl, by omega⟩

theorem parseFixedHex_eq_ok {text : Bytes} {width value : Nat} :
    parseFixedHex text width = .ok value ↔ text = hexText width value ∧ value < 16 ^ width := by
  constructor
  · intro h
    unfold parseFixedHex at h
    split at h
    · rename_i hlength
      rw [okOr_eq_ok] at h
      rw [← hlength]
      exact foldlM_hexStep_eq_some h
    · cases h
  · rintro ⟨rfl, hlt⟩
    exact parseFixedHex_hexText hlt

namespace KeySpace

variable {keys : KeySpace} {file : FileId} {key : ObjectKey}

/-- The components are what is between the slashes after the root. -/
theorem text_of_components {parts : List Bytes} (h : keys.components key = .ok parts) :
    key.text = keys.root ++ slash :: [slash].intercalate parts := by
  simp only [components, bind_eq_ok, ensure_eq_ok] at h
  obtain ⟨_, -, h⟩ := h
  split at h
  · rename_i b rest hdrop
    simp only [bind_eq_ok, ensure_eq_ok] at h
    obtain ⟨_, ⟨hroot, rfl⟩, hparts⟩ := h
    cases hparts
    calc key.text = key.text.take keys.root.length ++ key.text.drop keys.root.length :=
          (List.take_append_drop _ _).symm
      _ = keys.root ++ slash :: rest := by rw [hroot, hdrop]
      _ = keys.root ++ slash :: [slash].intercalate (rest.splitOn slash) := by
          rw [List.intercalate_splitOn]
  · cases h

theorem eq_build_of_components (name : KeyName)
    (h : keys.components key = .ok (name.components.map KeyComponent.text)) : key = keys.build name := by
  rw [KeyName.build_eq]
  exact ObjectKey.ext (text_of_components h)

theorem parsePreparation_eq_ok {parts : List Bytes} {prepared : PreparationKey}
    (h : parsePreparation file parts = .ok prepared) :
    parts = (preparation file prepared.identity prepared.attempt).map KeyComponent.text := by
  unfold parsePreparation at h
  split at h
  · simp only [bind_eq_ok, ensure_eq_ok, parseFixedHex_eq_ok] at h
    obtain ⟨fileBits, ⟨hfile, -⟩, -, hbits, mutation, ⟨htext₁, hmutation⟩, generation,
      ⟨htext₂, hgeneration⟩, digest, ⟨htext₃, hdigest⟩, fingerprint, ⟨htext₄, hfingerprint⟩, attempt,
      ⟨htext₅, hattempt⟩, hprepared⟩ := h
    cases hprepared
    simp only [preparation, List.map_cons, List.map_nil, KeyComponent.hex, BitVec.toNat_ofNat,
      UInt64.toNat_ofNat', UInt32.toNat_ofNat']
    rw [Nat.mod_eq_of_lt (hmutation.trans_le (by decide)),
      Nat.mod_eq_of_lt (hgeneration.trans_le (by decide)),
      Nat.mod_eq_of_lt (hattempt.trans_le (by decide)),
      Nat.mod_eq_of_lt (hdigest.trans_le (by decide)),
      Nat.mod_eq_of_lt (hfingerprint.trans_le (by decide)), hfile, hbits, htext₁, htext₂, htext₃,
      htext₄, htext₅]
  · cases h

/-- **A manifest key is the one that is built from what it parses as.** -/
theorem parseManifest_eq_ok {prepared : PreparationKey} :
    keys.parseManifest file key = .ok prepared ↔
      key = keys.manifest file prepared.identity prepared.attempt := by
  constructor
  · intro h
    simp only [parseManifest, bind_eq_ok] at h
    obtain ⟨parts, hparts, h⟩ := h
    split at h
    · simp only [bind_eq_ok, ensure_eq_ok] at h
      obtain ⟨_, ⟨-, rfl, rfl⟩, hprepared⟩ := h
      rw [parsePreparation_eq_ok hprepared] at hparts
      exact eq_build_of_components (.manifest file prepared.identity prepared.attempt) hparts
    · cases h
  · rintro rfl
    exact parseManifest_manifest

theorem validateRawPayload_eq_ok :
    keys.validateRawPayload file key = .ok () ↔
      ∃ identity attempt, key = keys.rawPayload file identity attempt := by
  constructor
  · intro h
    simp only [validateRawPayload, bind_eq_ok] at h
    obtain ⟨parts, hparts, h⟩ := h
    split at h
    · rename_i a b c d e f _
      simp only [bind_eq_ok, ensure_eq_ok] at h
      obtain ⟨_, ⟨rfl, rfl, rfl⟩, prepared, hprepared, -⟩ := h
      replace hparts : keys.components key =
          .ok (ascii "v3" :: ascii "data" :: [a, b, c, d, e, f] ++ [ascii "raw"]) := hparts
      rw [parsePreparation_eq_ok hprepared] at hparts
      exact ⟨_, _, eq_build_of_components (.rawPayload file prepared.identity prepared.attempt) hparts⟩
    · cases h
  · rintro ⟨identity, attempt, rfl⟩
    exact validateRawPayload_rawPayload

theorem validateBlockPayload_eq_ok {blockIndex : UInt64} :
    keys.validateBlockPayload file blockIndex.toNat key = .ok () ↔
      ∃ identity attempt, key = keys.blockPayload file identity attempt blockIndex.toNat := by
  constructor
  · intro h
    simp only [validateBlockPayload, bind_eq_ok] at h
    obtain ⟨parts, hparts, h⟩ := h
    split at h
    · rename_i a b c d e f _ _
      simp only [bind_eq_ok, ensure_eq_ok, parseFixedHex_eq_ok] at h
      obtain ⟨_, ⟨rfl, rfl, rfl⟩, _, ⟨rfl, -⟩, _, rfl, prepared, hprepared, -⟩ := h
      replace hparts : keys.components key =
          .ok (ascii "v3" :: ascii "data" :: [a, b, c, d, e, f] ++
            [ascii "blocks", hexText 16 blockIndex.toNat]) := hparts
      rw [parsePreparation_eq_ok hprepared] at hparts
      exact ⟨_, _, eq_build_of_components
        (.blockPayload file prepared.identity prepared.attempt blockIndex) hparts⟩
    · cases h
  · rintro ⟨identity, attempt, rfl⟩
    exact validateBlockPayload_blockPayload blockIndex.toNat_lt

theorem validateMapPage_eq_ok {level : UInt8} {firstBlock : UInt64} :
    keys.validateMapPage file level.toNat firstBlock.toNat key = .ok () ↔
      ∃ identity attempt, key = keys.mapPage file identity attempt level.toNat firstBlock.toNat := by
  constructor
  · intro h
    simp only [validateMapPage, bind_eq_ok] at h
    obtain ⟨parts, hparts, h⟩ := h
    split at h
    · rename_i a b c d e f _ _
      simp only [bind_eq_ok, ensure_eq_ok, parseFixedHex_eq_ok] at h
      obtain ⟨_, ⟨rfl, rfl⟩, _, ⟨rfl, -⟩, _, rfl, _, ⟨rfl, -⟩, _, rfl, prepared, hprepared, -⟩ := h
      replace hparts : keys.components key =
          .ok (ascii "v3" :: ascii "maps" :: [a, b, c, d, e, f] ++
            [hexText 2 level.toNat, hexText 16 firstBlock.toNat]) := hparts
      rw [parsePreparation_eq_ok hprepared] at hparts
      exact ⟨_, _, eq_build_of_components
        (.mapPage file prepared.identity prepared.attempt level firstBlock) hparts⟩
    · cases h
  · rintro ⟨identity, attempt, rfl⟩
    exact validateMapPage_mapPage level.toNat_lt firstBlock.toNat_lt

/-! ## Two key spaces -/

/-- The root and a slash begin every key of the key space. -/
theorem root_prefix_of_owned (h : keys.ensureOwned key = .ok ()) :
    keys.root ++ [slash] <+: key.text := by
  simp only [ensureOwned, bind_eq_ok] at h
  obtain ⟨parts, hparts, -⟩ := h
  exact ⟨[slash].intercalate parts, by rw [text_of_components hparts]; simp⟩

theorem ensureOwned_build (keys : KeySpace) (name : KeyName) :
    keys.ensureOwned (keys.build name) = .ok () := by
  rw [KeyName.build_eq]
  exact ensureOwned_key name.components_ne_nil name.length_components_le

/-- Of two roots of one key, one lies below the other. -/
theorem root_below_of_shorter {a b : KeySpace} (ha : a.root ++ [slash] <+: key.text)
    (hb : b.root ++ [slash] <+: key.text) (hlength : a.root.length < b.root.length) :
    a.root ++ [slash] <+: b.root := by
  have hroot : b.root <+: key.text := (List.prefix_append b.root [slash]).trans hb
  exact List.prefix_of_prefix_length_le ha hroot (by simpa using hlength)

/-- **A key is owned by two key spaces only if their roots are equal or one lies below the other.** -/
theorem roots_of_shared {a b : KeySpace} (ha : a.ensureOwned key = .ok ())
    (hb : b.ensureOwned key = .ok ()) :
    a.root = b.root ∨ a.root ++ [slash] <+: b.root ∨ b.root ++ [slash] <+: a.root := by
  have hpa := root_prefix_of_owned ha
  have hpb := root_prefix_of_owned hb
  rcases Nat.lt_trichotomy a.root.length b.root.length with hlt | heq | hgt
  · exact .inr (.inl (root_below_of_shorter hpa hpb hlt))
  · have hra : a.root <+: key.text := (List.prefix_append a.root [slash]).trans hpa
    have hrb : b.root <+: key.text := (List.prefix_append b.root [slash]).trans hpb
    exact .inl ((List.prefix_of_prefix_length_le hra hrb heq.le).eq_of_length heq)
  · exact .inr (.inr (root_below_of_shorter hpb hpa hgt))

/-! ## Keys are collision free -/

/-- The keys of a key space, for the bound it was made with. -/
structure KeysSound (keys : KeySpace) (maxKeyBytes : Nat) : Prop where
  /-- Neither two kinds nor two arguments of one kind share a key. -/
  injective : Function.Injective keys.build
  /-- Built keys pass `ObjectKey::new` within the bound, and after the root they are printable ASCII. -/
  permitted : ∀ name, (keys.build name).text.length ≤ maxKeyBytes ∧ PrintableKey (keys.build name).text ∧
    isUtf8 (keys.build name).text = true ∧
    ∀ b ∈ (keys.build name).text.drop keys.root.length, 0x20 ≤ b ∧ b < 0x7f
  /-- A manifest key parses as what it was built from, and only a key that was built so parses. -/
  manifests : ∀ file key prepared, keys.parseManifest file key = .ok prepared ↔
    key = keys.build (.manifest file prepared.identity prepared.attempt)
  rawPayloads : ∀ file key, keys.validateRawPayload file key = .ok () ↔
    ∃ identity attempt, key = keys.build (.rawPayload file identity attempt)
  blockPayloads : ∀ file (blockIndex : UInt64) key,
    keys.validateBlockPayload file blockIndex.toNat key = .ok () ↔
      ∃ identity attempt, key = keys.build (.blockPayload file identity attempt blockIndex)
  mapPages : ∀ file (level : UInt8) (firstBlock : UInt64) key,
    keys.validateMapPage file level.toNat firstBlock.toNat key = .ok () ↔
      ∃ identity attempt, key = keys.build (.mapPage file identity attempt level firstBlock)

theorem keysSound (keys : KeySpace) : KeysSound keys keys.maxKeyBytes where
  injective := keys.build_injective
  permitted name := ⟨keys.length_build_le name, (keys.build name).printable, (keys.build name).utf8,
    fun _ hb => mem_build hb⟩
  manifests _ _ _ := parseManifest_eq_ok
  rawPayloads _ _ := validateRawPayload_eq_ok
  blockPayloads _ _ _ := validateBlockPayload_eq_ok
  mapPages _ _ _ _ := validateMapPage_eq_ok

/-- **Object keys are collision free.** Every key space that `KeySpace::new` accepts has sound keys, and
two of them with different roots, neither of which lies below the other, share no key. -/
theorem keys_collision_free {root root' : Bytes} {utf8 : isUtf8 root = true}
    {utf8' : isUtf8 root' = true} {limits limits' : StorageLimits} {keys' : KeySpace}
    (h : KeySpace.new root utf8 limits = .ok keys) (h' : KeySpace.new root' utf8' limits' = .ok keys') :
    KeysSound keys limits.maxKeyBytes ∧
      (root ≠ root' → ¬ root ++ [slash] <+: root' → ¬ root' ++ [slash] <+: root →
        (∀ name name', keys.build name ≠ keys'.build name') ∧
          ∀ key, ¬ (keys.ensureOwned key = .ok () ∧ keys'.ensureOwned key = .ok ())) := by
  obtain ⟨rfl, hbound⟩ := new_fields h
  obtain ⟨rfl, -⟩ := new_fields h'
  refine ⟨hbound ▸ keys.keysSound, fun hne hbelow habove => ?_⟩
  have hnone : ∀ key, ¬ (keys.ensureOwned key = .ok () ∧ keys'.ensureOwned key = .ok ()) := by
    rintro key ⟨howned, howned'⟩
    rcases roots_of_shared howned howned' with hroots | hroots | hroots
    · exact hne hroots
    · exact hbelow hroots
    · exact habove hroots
  refine ⟨fun name name' hshared => hnone (keys.build name) ⟨keys.ensureOwned_build name, ?_⟩, hnone⟩
  rw [hshared]
  exact keys'.ensureOwned_build name'

/-- The key space below `a/b` with the standard limits. -/
def sampleKeys : KeySpace :=
  ⟨ascii "a/b", 1024, by decide +kernel, by decide +kernel, by decide +kernel⟩

def siblingKeys : KeySpace :=
  ⟨ascii "a/c", 1024, by decide +kernel, by decide +kernel, by decide +kernel⟩

theorem keys_collision_free_siblings :
    KeySpace.new sampleKeys.root sampleKeys.utf8 .standard = .ok sampleKeys ∧
      KeySpace.new siblingKeys.root siblingKeys.utf8 .standard = .ok siblingKeys ∧
      ∀ name name', sampleKeys.build name ≠ siblingKeys.build name' := by
  have hsample : KeySpace.new sampleKeys.root sampleKeys.utf8 .standard = .ok sampleKeys := by
    decide +kernel
  have hsibling : KeySpace.new siblingKeys.root siblingKeys.utf8 .standard = .ok siblingKeys := by
    decide +kernel
  have hapart := (keys_collision_free hsample hsibling).2 (by decide +kernel) (by decide +kernel)
    (by decide +kernel)
  exact ⟨hsample, hsibling, hapart.1⟩

end KeySpace

end W9pt.Storage

import W9pt.Storage.Roundtrip

/-!
# Target keys (`keys.rs`)

A key is the private root of the repository followed by components between slashes. The components are
literals and fixed-width hexadecimal numbers, so a key can be taken apart again and two keys are equal
exactly when their components are (`KeySpace.key_inj`).
-/

namespace W9pt.Storage

open Lib

/-! ## Components -/

def slash : UInt8 := 0x2f

def ascii (literal : String) : Bytes := literal.toList.map fun c => UInt8.ofNat c.toNat

/-- Text that can stand between two slashes: printable ASCII without a slash. -/
@[ext] structure KeyComponent where
  text : Bytes
  plain : ∀ b ∈ text, 0x20 ≤ b ∧ b < 0x7f ∧ b ≠ slash
deriving DecidableEq

def hexDigit (value : Nat) : UInt8 := UInt8.ofNat (if value < 10 then 0x30 + value else 0x57 + value)

/-- `{value:0width$x}`; the bytes of an identity are the digits of its value (`IdHex`, keys.rs:383). -/
def hexText : Nat → Nat → Bytes
  | 0, _ => []
  | width + 1, value => hexText width (value / 16) ++ [hexDigit (value % 16)]

/-- `hex_nibble` and `is_lower_hex` (keys.rs:371). -/
def hexNibble (b : UInt8) : Option Nat :=
  if 0x30 ≤ b ∧ b ≤ 0x39 then some (b.toNat - 0x30)
  else if 0x61 ≤ b ∧ b ≤ 0x66 then some (b.toNat - 0x57)
  else none

def hexStep (value : Nat) (b : UInt8) : Option Nat := (hexNibble b).map fun digit => value * 16 + digit

/-- `parse_hex_array`, `parse_fixed_hex_u64` and `parse_fixed_hex_u32`. -/
def parseFixedHex (text : Bytes) (width : Nat) : Except CorruptionError Nat :=
  if text.length = width then okOr (text.foldlM hexStep 0) .invalidKeySchema
  else .error .invalidKeySchema

theorem hexNibble_hexDigit {value : Nat} (h : value < 16) : hexNibble (hexDigit value) = some value := by
  interval_cases value <;> rfl

theorem hexDigit_plain {value : Nat} (h : value < 16) :
    0x20 ≤ hexDigit value ∧ hexDigit value < 0x7f ∧ hexDigit value ≠ slash := by
  interval_cases value <;> decide

@[simp] theorem length_hexText (width value : Nat) : (hexText width value).length = width := by
  induction width generalizing value with
  | zero => rfl
  | succ width ih => simp [hexText, ih]

theorem foldlM_hexText {width value : Nat} (h : value < 16 ^ width) :
    (hexText width value).foldlM hexStep 0 = some value := by
  induction width generalizing value with
  | zero =>
    have hzero : value = 0 := by simpa using h
    simp [hexText, hzero]
  | succ width ih =>
    have hdiv : value / 16 < 16 ^ width := by
      rw [Nat.div_lt_iff_lt_mul (by decide)]
      simpa [pow_succ] using h
    rw [hexText, List.foldlM_append, ih hdiv]
    have hmod : value % 16 < 16 := Nat.mod_lt _ (by decide)
    simp only [Option.bind_eq_bind, Option.bind_some, List.foldlM_cons, List.foldlM_nil, hexStep,
      hexNibble_hexDigit hmod, Option.map_some, Option.pure_def, Option.some.injEq]
    omega

/-- A number is read back from its digits. -/
theorem parseFixedHex_hexText {width value : Nat} (h : value < 16 ^ width) :
    parseFixedHex (hexText width value) width = .ok value := by
  simp [parseFixedHex, foldlM_hexText h]

theorem hexText_inj {width a b : Nat} (ha : a < 16 ^ width) (hb : b < 16 ^ width)
    (h : hexText width a = hexText width b) : a = b := by
  have hparse := parseFixedHex_hexText ha
  rw [h, parseFixedHex_hexText hb] at hparse
  exact (Except.ok.inj hparse).symm

namespace KeyComponent

def hex (width value : Nat) : KeyComponent where
  text := hexText width value
  plain := by
    induction width generalizing value with
    | zero => simp [hexText]
    | succ width ih =>
      intro b hb
      rcases List.mem_append.1 hb with hb | hb
      · exact ih _ b hb
      · rw [List.mem_singleton.1 hb]
        exact hexDigit_plain (Nat.mod_lt _ (by decide))

def v3 : KeyComponent := ⟨ascii "v3", by simp [ascii, slash]⟩
def format : KeyComponent := ⟨ascii "format", by simp [ascii, slash]⟩
def refs : KeyComponent := ⟨ascii "refs", by simp [ascii, slash]⟩
def files : KeyComponent := ⟨ascii "files", by simp [ascii, slash]⟩
def manifests : KeyComponent := ⟨ascii "manifests", by simp [ascii, slash]⟩
def data : KeyComponent := ⟨ascii "data", by simp [ascii, slash]⟩
def maps : KeyComponent := ⟨ascii "maps", by simp [ascii, slash]⟩
def raw : KeyComponent := ⟨ascii "raw", by simp [ascii, slash]⟩
def blocks : KeyComponent := ⟨ascii "blocks", by simp [ascii, slash]⟩
def guarded : KeyComponent := ⟨ascii "protected", by simp [ascii, slash]⟩
def manifest : KeyComponent := ⟨ascii "manifest", by simp [ascii, slash]⟩

@[simp] theorem length_word : v3.text.length = 2 ∧ format.text.length = 6 ∧ refs.text.length = 4 ∧
    files.text.length = 5 ∧ manifests.text.length = 9 ∧ data.text.length = 4 ∧ maps.text.length = 4 ∧
    raw.text.length = 3 ∧ blocks.text.length = 6 ∧ guarded.text.length = 9 ∧ manifest.text.length = 8 := by
  simp [v3, format, refs, files, manifests, data, maps, raw, blocks, guarded, manifest, ascii]

end KeyComponent

/-! ## Key spaces -/

/-- What a key says about the preparation it belongs to (keys.rs:26). -/
structure PreparationKey where
  identity : PreparationIdentity
  attempt : UInt32
deriving DecidableEq

/-- keys.rs:32. -/
def PreparationKey.validateResultGeneration (prepared : PreparationKey) (generation : UInt64) :
    Except CorruptionError Unit :=
  ensure (if generation = 1 then prepared.identity.base.isNewFile = true
      else prepared.identity.base.isNewFile = false ∧
        checkedAdd prepared.identity.base.generation 1 = some generation)
    (.identityMismatch "base generation")

/-- keys.rs:8-16. -/
def longestSuffixBytes : Nat :=
  max (9 + 32 + 1 + 32 + 1 + 16 + 1 + 64 + 1 + 64 + 1 + 8 + 8 + 16)
    (9 + 32 + 1 + 32 + 1 + 16 + 1 + 64 + 1 + 64 + 1 + 8 + 1 + 2 + 1 + 16)

/-- Validated private key space (keys.rs:20): the private root is a string without control characters
that leaves room for the longest key. -/
@[ext] structure KeySpace where
  root : Bytes
  maxKeyBytes : Nat
  utf8 : isUtf8 root = true
  printable : PrintableKey root
  longest : root.length + longestSuffixBytes ≤ maxKeyBytes

instance : DecidableEq KeySpace := fun _ _ => decidable_of_iff _ KeySpace.ext_iff.symm

/-- `KeySpace::new` (keys.rs:54), for a root that is a Rust string. -/
def KeySpace.new (root : Bytes) (utf8 : isUtf8 root = true) (limits : StorageLimits) :
    Except ConfigurationError KeySpace := do
  ensure (root ≠ []) (.invalidPrefix "prefix is empty")
  ensure (root.head? ≠ some slash ∧ root.getLast? ≠ some slash)
    (.invalidPrefix "leading or trailing slash")
  if hcontrol : ∀ b ∈ root, ¬ (b < 0x20 ∨ b = 0x7f) then
    ensure (∀ component ∈ root.splitOn slash, component ≠ [] ∧ component ≠ ascii "." ∧
      component ≠ ascii "..") (.invalidPrefix "empty or relative component")
    if h : root ≠ [] ∧ root.length + longestSuffixBytes ≤ limits.maxKeyBytes then
      return ⟨root, limits.maxKeyBytes, utf8, ⟨h.1, hcontrol⟩, h.2⟩
    else .error (.invalidPrefix "current-format key exceeds max_key_bytes")
  else .error (.invalidPrefix "control character")

theorem KeySpace.new_fields {root : Bytes} {utf8 : isUtf8 root = true} {limits : StorageLimits}
    {keys : KeySpace} (h : KeySpace.new root utf8 limits = .ok keys) :
    keys.root = root ∧ keys.maxKeyBytes = limits.maxKeyBytes := by
  unfold KeySpace.new at h
  simp only [bind_eq_ok, ensure_eq_ok] at h
  obtain ⟨_, -, _, -, h⟩ := h
  split at h
  · simp only [bind_eq_ok, ensure_eq_ok] at h
    obtain ⟨_, -, h⟩ := h
    split at h
    · cases h
      exact ⟨rfl, rfl⟩
    · cases h
  · cases h

namespace KeySpace

variable (keys : KeySpace)

/-- The text of a key: the root and the components, separated by slashes. -/
def keyText (root : Bytes) (components : List KeyComponent) : Bytes :=
  root ++ slash :: [slash].intercalate (components.map KeyComponent.text)

theorem mem_suffix {components : List KeyComponent} {b : UInt8}
    (h : b ∈ [slash].intercalate (components.map KeyComponent.text)) :
    b = slash ∨ 0x20 ≤ b ∧ b < 0x7f := by
  have hplain : ∀ (c : KeyComponent), b ∈ c.text → b = slash ∨ 0x20 ≤ b ∧ b < 0x7f :=
    fun c hc => .inr ⟨(c.plain b hc).1, (c.plain b hc).2.1⟩
  induction components with
  | nil => simp [List.intercalate] at h
  | cons c components ih =>
    cases components with
    | nil =>
      rw [List.map_singleton, List.intercalate_singleton] at h
      exact hplain c h
    | cons d components =>
      rw [List.map_cons, List.map_cons, List.intercalate_cons_cons, List.mem_append,
        List.mem_append] at h
      rcases h with (h | h) | h
      · exact hplain c h
      · exact .inl (List.mem_singleton.1 h)
      · exact ih h

/-- `ObjectKey::from_validated(format!(..))` (keys.rs:315). -/
def key (components : List KeyComponent) : ObjectKey where
  text := keyText keys.root components
  utf8 := by
    refine isUtf8_append_ascii keys.utf8 fun b hb => ?_
    rcases List.mem_cons.1 hb with rfl | hb
    · decide
    · rcases mem_suffix hb with rfl | ⟨-, hlt⟩
      · decide
      · exact UInt8.lt_trans hlt (by decide)
  printable := by
    refine ⟨by simp [keyText], fun b hb => ?_⟩
    rcases List.mem_append.1 hb with hb | hb
    · exact keys.printable.2 b hb
    · have hplain : b = slash ∨ 0x20 ≤ b ∧ b < 0x7f := by
        rcases List.mem_cons.1 hb with rfl | hb
        · exact .inl rfl
        · exact mem_suffix hb
      rcases hplain with rfl | ⟨hlow, hhigh⟩
      · decide
      · rintro (hcontrol | rfl)
        · exact absurd hlow (UInt8.not_le.2 hcontrol)
        · exact absurd hhigh (by decide)

/-- The components of a preparation (`manifest`): file, mutation, base and fingerprint. -/
def preparation (file : FileId) (identity : PreparationIdentity) (attempt : UInt32) :
    List KeyComponent :=
  [.hex 32 file.bits.toNat, .hex 32 identity.mutationId.bits.toNat,
    .hex 16 identity.base.generation.toNat, .hex 64 identity.base.manifestDigest.toNat,
    .hex 64 identity.fingerprint.toNat, .hex 8 attempt.toNat]

/-- keys.rs:99. -/
def format : ObjectKey := keys.key [.v3, .format]

section

variable (file : FileId)

/-- keys.rs:104. -/
def head : ObjectKey :=
  keys.key [.v3, .refs, .files, .hex 32 file.bits.toNat]

/-- keys.rs:113. -/
def manifest (identity : PreparationIdentity) (attempt : UInt32) : ObjectKey :=
  keys.key (.v3 :: .manifests :: preparation file identity attempt)

/-- keys.rs:131. -/
def rawPayload (identity : PreparationIdentity) (attempt : UInt32) : ObjectKey :=
  keys.key (.v3 :: .data :: preparation file identity attempt ++ [.raw])

/-- keys.rs:149. -/
def blockPayload (identity : PreparationIdentity) (attempt : UInt32) (blockIndex : Nat) :
    ObjectKey :=
  keys.key (.v3 :: .data :: preparation file identity attempt ++ [.blocks, .hex 16 blockIndex])

/-- keys.rs:168. -/
def mapPage (identity : PreparationIdentity) (attempt : UInt32) (level firstBlock : Nat) :
    ObjectKey :=
  keys.key (.v3 :: .maps :: preparation file identity attempt ++ [.hex 2 level, .hex 16 firstBlock])

/-- The components of a key under a preparation token (keys.rs:188-222). -/
def token (token : Digest) : List KeyComponent :=
  [.v3, .guarded, .hex 32 file.bits.toNat, .hex 64 token.toNat]

/-- keys.rs:188. -/
def protectedManifest (secret : Digest) : ObjectKey :=
  keys.key (token file secret ++ [.manifest])

/-- keys.rs:198. -/
def protectedRawPayload (secret : Digest) : ObjectKey :=
  keys.key (token file secret ++ [.raw])

/-- keys.rs:208. -/
def protectedBlockPayload (secret : Digest) (blockIndex : Nat) : ObjectKey :=
  keys.key (token file secret ++ [.blocks, .hex 16 blockIndex])

/-- keys.rs:223. -/
def protectedMapPage (secret : Digest) (level firstBlock : Nat) : ObjectKey :=
  keys.key (token file secret ++ [.maps, .hex 2 level, .hex 16 firstBlock])

end

/-! ## Taking keys apart -/

/-- keys.rs:303. -/
def components (key : ObjectKey) : Except CorruptionError (List Bytes) := do
  ensure (key.text.length ≤ keys.maxKeyBytes) .invalidKeySchema
  match key.text.drop keys.root.length with
  | b :: rest =>
    ensure (key.text.take keys.root.length = keys.root ∧ b = slash) .foreignKey
    return rest.splitOn slash
  | [] => .error .foreignKey

/-- keys.rs:50. -/
def ensureOwned (key : ObjectKey) : Except CorruptionError Unit := do
  let _ ← keys.components key

/-- `parse_preparation_components` (keys.rs:320). -/
def parsePreparation (file : FileId) : List Bytes → Except CorruptionError PreparationKey
  | [fileText, mutation, generation, digest, fingerprint, attempt] => do
    let fileBits ← parseFixedHex fileText 32
    ensure (fileBits = file.bits.toNat) (.identityMismatch "file")
    let mutation ← parseFixedHex mutation 32
    let generation ← parseFixedHex generation 16
    let digest ← parseFixedHex digest 64
    let fingerprint ← parseFixedHex fingerprint 64
    let attempt ← parseFixedHex attempt 8
    return ⟨⟨⟨.ofNat 128 mutation⟩, ⟨UInt64.ofNat generation, .ofNat 256 digest⟩,
      .ofNat 256 fingerprint⟩, UInt32.ofNat attempt⟩
  | _ => .error .invalidKeySchema

/-- keys.rs:238. -/
def parseManifest (file : FileId) (key : ObjectKey) : Except CorruptionError PreparationKey := do
  match ← keys.components key with
  | version :: kind :: rest => do
    ensure (rest.length = 6 ∧ version = ascii "v3" ∧ kind = ascii "manifests") .invalidKeySchema
    parsePreparation file rest
  | _ => .error .invalidKeySchema

/-- keys.rs:250. -/
def validateRawPayload (file : FileId) (key : ObjectKey) : Except CorruptionError Unit := do
  match ← keys.components key with
  | [version, kind, a, b, c, d, e, f, last] => do
    ensure (version = ascii "v3" ∧ kind = ascii "data" ∧ last = ascii "raw") .invalidKeySchema
    let _ ← parsePreparation file [a, b, c, d, e, f]
  | _ => .error .invalidKeySchema

/-- keys.rs:266. -/
def validateBlockPayload (file : FileId) (blockIndex : Nat) (key : ObjectKey) :
    Except CorruptionError Unit := do
  match ← keys.components key with
  | [version, kind, a, b, c, d, e, f, blocks, last] => do
    ensure (version = ascii "v3" ∧ kind = ascii "data" ∧ blocks = ascii "blocks") .invalidKeySchema
    let index ← parseFixedHex last 16
    ensure (index = blockIndex) .invalidKeySchema
    let _ ← parsePreparation file [a, b, c, d, e, f]
  | _ => .error .invalidKeySchema

/-- keys.rs:284. -/
def validateMapPage (file : FileId) (level firstBlock : Nat) (key : ObjectKey) :
    Except CorruptionError Unit := do
  match ← keys.components key with
  | [version, kind, a, b, c, d, e, f, levelText, last] => do
    ensure (version = ascii "v3" ∧ kind = ascii "maps") .invalidKeySchema
    let keyLevel ← parseFixedHex levelText 2
    ensure (keyLevel = level) .invalidKeySchema
    let first ← parseFixedHex last 16
    ensure (first = firstBlock) .invalidKeySchema
    let _ ← parsePreparation file [a, b, c, d, e, f]
  | _ => .error .invalidKeySchema

variable {keys}

theorem splitOn_suffix {components : List KeyComponent} (hne : components ≠ []) :
    ([slash].intercalate (components.map KeyComponent.text)).splitOn slash =
      components.map KeyComponent.text := by
  refine List.splitOn_intercalate slash (fun part hpart => ?_) (by simpa using hne)
  obtain ⟨c, -, rfl⟩ := List.mem_map.1 hpart
  exact fun hmem => (c.plain slash hmem).2.2 rfl

/-- A key within the bound is taken apart into the components it was made of. -/
theorem components_key {components : List KeyComponent} (hne : components ≠ [])
    (hlength : (keys.key components).text.length ≤ keys.maxKeyBytes) :
    keys.components (keys.key components) = .ok (components.map KeyComponent.text) := by
  unfold KeySpace.components
  rw [ensure_of hlength, ok_bind]
  simp only [key, keyText, List.drop_left, List.take_left]
  rw [ensure_of ⟨trivial, trivial⟩, ok_bind, splitOn_suffix hne]
  rfl

theorem length_intercalate (components : List Bytes) (hne : components ≠ []) :
    ([slash].intercalate components).length + 1 = (components.map fun c => c.length + 1).sum := by
  induction components with
  | nil => exact absurd rfl hne
  | cons c components ih =>
    cases components with
    | nil => simp [List.intercalate_singleton]
    | cons d components =>
      rw [List.intercalate_cons_cons]
      have hrest := ih (by simp)
      simp only [List.length_append, List.length_singleton, List.map_cons, List.sum_cons] at hrest ⊢
      omega

theorem length_key {components : List KeyComponent} (hne : components ≠ []) :
    (keys.key components).text.length =
      keys.root.length + (components.map fun c => c.text.length + 1).sum := by
  have hlength := length_intercalate (components.map KeyComponent.text) (by simpa using hne)
  simp only [List.map_map, Function.comp_def] at hlength
  simp only [key, keyText, List.length_append, List.length_cons]
  omega

/-- **Keys are equal only if their components are.** -/
theorem key_inj {a b : List KeyComponent} (ha : a ≠ []) (hb : b ≠ [])
    (h : keys.key a = keys.key b) : a = b := by
  have htext : keyText keys.root a = keyText keys.root b := congrArg ObjectKey.text h
  have hsuffix := (List.cons.inj (List.append_cancel_left htext)).2
  have hparts := splitOn_suffix ha
  rw [hsuffix, splitOn_suffix hb] at hparts
  exact List.map_injective_iff.2 (fun x y hxy => KeyComponent.ext hxy) hparts.symm

/-! ## The keys of a repository -/

variable {file : FileId} {identity : PreparationIdentity} {attempt : UInt32}

theorem hex_inj {width a b : Nat} (ha : a < 16 ^ width) (hb : b < 16 ^ width)
    (h : KeyComponent.hex width a = KeyComponent.hex width b) : a = b :=
  hexText_inj ha hb (congrArg KeyComponent.text h)

theorem parsePreparation_preparation (file : FileId) (identity : PreparationIdentity)
    (attempt : UInt32) : parsePreparation file ((preparation file identity attempt).map KeyComponent.text) =
      .ok ⟨identity, attempt⟩ := by
  have hfile : file.bits.toNat < 16 ^ 32 := file.bits.isLt
  have hmutation : identity.mutationId.bits.toNat < 16 ^ 32 := identity.mutationId.bits.isLt
  have hgeneration : identity.base.generation.toNat < 16 ^ 16 := identity.base.generation.toNat_lt
  have hdigest : identity.base.manifestDigest.toNat < 16 ^ 64 := identity.base.manifestDigest.isLt
  have hfingerprint : identity.fingerprint.toNat < 16 ^ 64 := identity.fingerprint.isLt
  have hattempt : attempt.toNat < 16 ^ 8 := attempt.toNat_lt
  simp only [preparation, List.map_cons, List.map_nil, parsePreparation, KeyComponent.hex,
    parseFixedHex_hexText hfile, parseFixedHex_hexText hmutation, parseFixedHex_hexText hgeneration,
    parseFixedHex_hexText hdigest, parseFixedHex_hexText hfingerprint,
    parseFixedHex_hexText hattempt, ok_bind, ensure_of, BitVec.ofNat_toNat, BitVec.setWidth_eq,
    UInt64.ofNat_toNat, UInt32.ofNat_toNat]
  rfl

/-- The preparation can be read off its components. -/
theorem preparation_inj {file' : FileId} {identity' : PreparationIdentity} {attempt' : UInt32}
    (h : preparation file identity attempt = preparation file' identity' attempt') :
    file = file' ∧ identity = identity' ∧ attempt = attempt' := by
  have hfile : file.bits.toNat = file'.bits.toNat :=
    hex_inj file.bits.isLt file'.bits.isLt (List.cons.inj h).1
  obtain rfl : file = file' := by
    cases file
    cases file'
    exact congrArg FixedId.mk (BitVec.eq_of_toNat_eq hfile)
  have hparse := parsePreparation_preparation file identity attempt
  rw [h, parsePreparation_preparation] at hparse
  cases hparse
  exact ⟨rfl, rfl, rfl⟩

/-- A key whose components fit the longest suffix is within the bound. -/
theorem length_key_le {components : List KeyComponent} (hne : components ≠ [])
    (h : (components.map fun c => c.text.length + 1).sum ≤ longestSuffixBytes) :
    (keys.key components).text.length ≤ keys.maxKeyBytes := by
  have hlongest := keys.longest
  rw [length_key hne]
  omega

theorem ensureOwned_key {components : List KeyComponent} (hne : components ≠ [])
    (h : (components.map fun c => c.text.length + 1).sum ≤ longestSuffixBytes) :
    keys.ensureOwned (keys.key components) = .ok () := by
  rw [ensureOwned, components_key hne (length_key_le hne h)]
  rfl

@[simp] theorem length_hex (width value : Nat) : (KeyComponent.hex width value).text.length = width :=
  length_hexText width value

theorem parseManifest_manifest :
    keys.parseManifest file (keys.manifest file identity attempt) = .ok ⟨identity, attempt⟩ := by
  have hparse := parsePreparation_preparation file identity attempt
  rw [parseManifest, manifest, components_key (by simp)
    (length_key_le (by simp) (by simp [preparation, longestSuffixBytes]))]
  simp only [preparation, List.map_cons, List.map_nil, ok_bind] at hparse ⊢
  rw [ensure_of ⟨rfl, rfl, rfl⟩, ok_bind, hparse]

theorem validateRawPayload_rawPayload :
    keys.validateRawPayload file (keys.rawPayload file identity attempt) = .ok () := by
  have hparse := parsePreparation_preparation file identity attempt
  rw [validateRawPayload, rawPayload, components_key (by simp)
    (length_key_le (by simp) (by simp [preparation, longestSuffixBytes]))]
  simp only [preparation, List.cons_append, List.nil_append, List.map_cons, List.map_nil, ok_bind]
    at hparse ⊢
  rw [ensure_of ⟨rfl, rfl, rfl⟩, ok_bind, hparse]
  rfl

theorem validateBlockPayload_blockPayload {blockIndex : Nat} (h : blockIndex < 2 ^ 64) :
    keys.validateBlockPayload file blockIndex (keys.blockPayload file identity attempt blockIndex) =
      .ok () := by
  have hparse := parsePreparation_preparation file identity attempt
  have hindex : parseFixedHex (KeyComponent.hex 16 blockIndex).text 16 = .ok blockIndex :=
    parseFixedHex_hexText (h.trans_le (by decide))
  rw [validateBlockPayload, blockPayload, components_key (by simp)
    (length_key_le (by simp) (by simp [preparation, longestSuffixBytes]))]
  simp only [preparation, List.cons_append, List.nil_append, List.map_cons, List.map_nil, ok_bind]
    at hparse ⊢
  rw [ensure_of ⟨rfl, rfl, rfl⟩, ok_bind, hindex, ok_bind, ensure_of rfl, ok_bind, hparse]
  rfl

theorem validateMapPage_mapPage {level firstBlock : Nat} (hlevel : level < 2 ^ 8)
    (hfirst : firstBlock < 2 ^ 64) :
    keys.validateMapPage file level firstBlock
      (keys.mapPage file identity attempt level firstBlock) = .ok () := by
  have hparse := parsePreparation_preparation file identity attempt
  have hkeyLevel : parseFixedHex (KeyComponent.hex 2 level).text 2 = .ok level :=
    parseFixedHex_hexText (hlevel.trans_le (by decide))
  have hkeyFirst : parseFixedHex (KeyComponent.hex 16 firstBlock).text 16 = .ok firstBlock :=
    parseFixedHex_hexText (hfirst.trans_le (by decide))
  rw [validateMapPage, mapPage, components_key (by simp)
    (length_key_le (by simp) (by simp [preparation, longestSuffixBytes]))]
  simp only [preparation, List.cons_append, List.nil_append, List.map_cons, List.map_nil, ok_bind]
    at hparse ⊢
  rw [ensure_of ⟨rfl, rfl⟩, ok_bind, hkeyLevel, ok_bind, ensure_of rfl, ok_bind, hkeyFirst, ok_bind,
    ensure_of rfl, ok_bind, hparse]
  rfl

end KeySpace

end W9pt.Storage

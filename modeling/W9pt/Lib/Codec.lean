import W9pt.Lib.Machine

/-!
# Byte codecs

* `leValue`, `beValue`: the number written by `leBytes` and `beBytes`;
* `SelfDelimiting`: an encoding that can be read off the front of a byte string, so that the
  concatenation of several encodings determines each of them. Fixed-width injective encodings are,
  and so are length-prefixed strings, sequences of a known length and tagged alternatives;
* `Field`: the fields of a string that is hashed. Two strings whose fields have the same shapes
  determine their fields.
-/

namespace W9pt.Lib

/-! ## Fixed-width integers -/

@[simp] theorem length_leBytes (width value : Nat) : (leBytes width value).length = width := by
  induction width generalizing value with
  | zero => rfl
  | succ width ih => simp [leBytes, ih]

@[simp] theorem length_beBytes (width value : Nat) : (beBytes width value).length = width := by
  simp [beBytes]

/-- `from_le_bytes`. -/
def leValue : Bytes → Nat
  | [] => 0
  | b :: rest => b.toNat + 256 * leValue rest

/-- `from_be_bytes`. -/
def beValue (bytes : Bytes) : Nat := leValue bytes.reverse

variable {width : Nat}

theorem leValue_leBytes {value : Nat} (h : value < 256 ^ width) :
    leValue (leBytes width value) = value := by
  induction width generalizing value with
  | zero =>
    have : value = 0 := by simpa using h
    simp [leBytes, leValue, this]
  | succ width ih =>
    have hdiv : value / 256 < 256 ^ width := by
      rw [Nat.div_lt_iff_lt_mul (by decide)]
      simpa [pow_succ] using h
    rw [leBytes, leValue, ih hdiv]
    simp only [UInt8.toNat_ofNat']
    omega

theorem beValue_beBytes {value : Nat} (h : value < 256 ^ width) :
    beValue (beBytes width value) = value := by
  rw [beValue, beBytes, List.reverse_reverse, leValue_leBytes h]

theorem leValue_lt (bytes : Bytes) : leValue bytes < 256 ^ bytes.length := by
  induction bytes with
  | nil => simp [leValue]
  | cons b rest ih =>
    have hb := b.toNat_lt
    simp only [leValue, List.length_cons, pow_succ]
    omega

theorem leBytes_inj {a b : Nat} (ha : a < 256 ^ width) (hb : b < 256 ^ width) :
    leBytes width a = leBytes width b ↔ a = b := by
  constructor
  · intro h
    rw [← leValue_leBytes ha, h, leValue_leBytes hb]
  · rintro rfl
    rfl

theorem beBytes_inj {a b : Nat} (ha : a < 256 ^ width) (hb : b < 256 ^ width) :
    beBytes width a = beBytes width b ↔ a = b := by
  rw [beBytes, beBytes, List.reverse_inj, leBytes_inj ha hb]

/-- Every byte string is the encoding of its value. -/
theorem leBytes_leValue (bytes : Bytes) : leBytes bytes.length (leValue bytes) = bytes := by
  induction bytes with
  | nil => rfl
  | cons b rest ih =>
    have hb := b.toNat_lt
    have hdiv : (b.toNat + 256 * leValue rest) / 256 = leValue rest := by omega
    have hmod : UInt8.ofNat (b.toNat + 256 * leValue rest) = b := by
      apply UInt8.toNat_inj.1
      rw [UInt8.toNat_ofNat']
      omega
    rw [List.length_cons, leValue, leBytes, hdiv, ih, hmod]

theorem beBytes_beValue (bytes : Bytes) : beBytes bytes.length (beValue bytes) = bytes := by
  rw [beBytes, beValue, ← List.length_reverse, leBytes_leValue, List.reverse_reverse]

theorem beValue_lt (bytes : Bytes) : beValue bytes < 256 ^ bytes.length := by
  rw [beValue, ← List.length_reverse]
  exact leValue_lt _

section Words

theorem u32_leBytes_inj {a b : UInt32} : leBytes 4 a.toNat = leBytes 4 b.toNat ↔ a = b := by
  rw [leBytes_inj (a.toNat_lt.trans_le (by decide)) (b.toNat_lt.trans_le (by decide)),
    UInt32.toNat_inj]

theorem u64_leBytes_inj {a b : UInt64} : leBytes 8 a.toNat = leBytes 8 b.toNat ↔ a = b := by
  rw [leBytes_inj (a.toNat_lt.trans_le (by decide)) (b.toNat_lt.trans_le (by decide)),
    UInt64.toNat_inj]

theorem bits_leBytes_inj {width bits : Nat} (h : bits = 8 * width) {a b : BitVec bits} :
    leBytes width a.toNat = leBytes width b.toNat ↔ a = b := by
  have hlt : ∀ v : BitVec bits, v.toNat < 256 ^ width := fun v => by
    refine v.isLt.trans_eq ?_
    rw [h, pow_mul]
    rfl
  rw [leBytes_inj (hlt a) (hlt b), BitVec.toNat_inj]

theorem leValue_append (a b : Bytes) : leValue (a ++ b) = leValue a + 256 ^ a.length * leValue b := by
  induction a with
  | nil => simp [leValue]
  | cons x a ih =>
    rw [List.cons_append, leValue, leValue, ih, List.length_cons, pow_succ]
    ring

/-- Strings of one length are ordered as the numbers they write. -/
theorem compare_bytes {a b : Bytes} (h : a.length = b.length) :
    compare a b = compare (beValue a) (beValue b) := by
  induction a generalizing b with
  | nil =>
    rw [List.eq_nil_of_length_eq_zero h.symm]
    rfl
  | cons x a ih =>
    cases b with
    | nil => cases h
    | cons y b =>
      have hlength : a.length = b.length := by simpa using h
      -- the first digits decide, unless they are equal
      have hcons : ∀ (z : UInt8) (c : Bytes), c.length = a.length →
          beValue (z :: c) = z.toNat * 256 ^ a.length + beValue c := by
        intro z c hc
        simp [beValue, leValue_append, leValue, hc]
        ring
      have hlt : ∀ {z w : UInt8} {c d : Bytes}, c.length = a.length → d.length = a.length →
          z.toNat < w.toNat → beValue (z :: c) < beValue (w :: d) := by
        intro z w c d hc hd hzw
        have hvalue := beValue_lt c
        have hle := Nat.mul_le_mul_right (256 ^ a.length) hzw
        rw [hc] at hvalue
        rw [hcons z c hc, hcons w d hd]
        rw [Nat.succ_mul] at hle
        omega
      rw [List.compare_cons_cons]
      rcases lt_trichotomy x.toNat y.toNat with hxy | hxy | hxy
      · rw [Nat.compare_eq_lt.2 (hlt rfl hlength.symm hxy), Std.compare_eq_lt.2 (UInt8.lt_iff_toNat_lt.2 hxy)]
        rfl
      · rw [UInt8.toNat_inj.1 hxy, ih hlength, hcons y a rfl, hcons y b hlength.symm]
        simp [Nat.compare_eq_ite_lt]
      · rw [Nat.compare_eq_gt.2 (hlt hlength.symm rfl hxy), Std.compare_eq_gt.2 (UInt8.lt_iff_toNat_lt.2 hxy)]
        rfl

theorem bits_beBytes_inj {width bits : Nat} (h : bits = 8 * width) {a b : BitVec bits} :
    beBytes width a.toNat = beBytes width b.toNat ↔ a = b := by
  rw [beBytes, beBytes, List.reverse_inj, bits_leBytes_inj h]

end Words

/-! ## Self-delimiting encodings -/

/-- The encoded value can be read off the front of a longer string. -/
def SelfDelimiting {α : Type} (encode : α → Bytes) : Prop :=
  ∀ ⦃a b : α⦄ ⦃s t : Bytes⦄, encode a ++ s = encode b ++ t → a = b ∧ s = t

variable {α β : Type} {f : α → Bytes} {g : β → Bytes}

theorem selfDelimiting_of_length {n : Nat} (hlen : ∀ a, (f a).length = n)
    (hinj : Function.Injective f) : SelfDelimiting f := by
  intro a b s t h
  have hab : (f a).length = (f b).length := by rw [hlen, hlen]
  obtain ⟨hf, hs⟩ := List.append_inj h hab
  exact ⟨hinj hf, hs⟩

theorem selfDelimiting_be {value : α → Nat} (hlt : ∀ a, value a < 256 ^ width)
    (hinj : Function.Injective value) : SelfDelimiting fun a => beBytes width (value a) :=
  selfDelimiting_of_length (fun _ => length_beBytes _ _) fun a b h =>
    hinj ((beBytes_inj (hlt a) (hlt b)).1 h)

/-- A byte string after its length as eight little-endian bytes. -/
def sized (bytes : Bytes) : Bytes := leBytes 8 bytes.length ++ bytes

/-- Length-prefixed strings delimit themselves as long as the length fits its field. -/
theorem sized_append_inj {a b s t : Bytes} (ha : a.length < 2 ^ 64) (hb : b.length < 2 ^ 64)
    (h : sized a ++ s = sized b ++ t) : a = b ∧ s = t := by
  simp only [sized, List.append_assoc] at h
  have hlength : leBytes 8 a.length = leBytes 8 b.length :=
    (List.append_inj h (by simp)).1
  have hlen : a.length = b.length :=
    (leBytes_inj (ha.trans_le (by decide)) (hb.trans_le (by decide))).1 hlength
  rw [hlength] at h
  obtain ⟨hab, hst⟩ := List.append_inj (List.append_cancel_left h) hlen
  exact ⟨hab, hst⟩

/-! ## Strings of fields -/

/-- One field of a string that is hashed. -/
inductive Field where
  /-- Bytes of a width that the format fixes. -/
  | fixed (bytes : Bytes)
  /-- A number of elements, as a `u64`. -/
  | count (number : Nat)
  /-- Bytes after their length. -/
  | sized (bytes : Bytes)

namespace Field

def encode : Field → Bytes
  | fixed bytes => bytes
  | count number => leBytes 8 number
  | sized bytes => Lib.sized bytes

/-- The number of the field fits its eight bytes. -/
def Fits : Field → Prop
  | fixed _ => True
  | count number => number < 2 ^ 64
  | sized bytes => bytes.length < 2 ^ 64

/-- What the format fixes of a field. -/
inductive Shape where
  | fixed (width : Nat) | count | sized

def shape : Field → Shape
  | fixed bytes => .fixed bytes.length
  | count _ => .count
  | sized _ => .sized

/-- A field of a known shape can be read off the front of a string. -/
theorem encode_append_inj {f g : Field} (h : f.shape = g.shape) (hf : f.Fits) (hg : g.Fits) {s t : Bytes}
    (heq : f.encode ++ s = g.encode ++ t) : f = g ∧ s = t := by
  cases f <;> cases g <;> simp only [shape, Shape.fixed.injEq, reduceCtorEq] at h
  case fixed.fixed a b =>
    obtain ⟨rfl, rfl⟩ := List.append_inj heq h
    exact ⟨rfl, rfl⟩
  case count.count a b =>
    obtain ⟨hnumber, rfl⟩ := List.append_inj heq (by simp [encode])
    rw [(leBytes_inj (hf.trans_le (by decide)) (hg.trans_le (by decide))).1 hnumber]
    exact ⟨rfl, rfl⟩
  case sized.sized a b =>
    obtain ⟨rfl, rfl⟩ := sized_append_inj hf hg heq
    exact ⟨rfl, rfl⟩

/-- Fields of known shapes can be read off the front of a string. -/
theorem flatMap_append_inj {fs gs : List Field} (h : fs.map shape = gs.map shape)
    (hfs : ∀ f ∈ fs, f.Fits) (hgs : ∀ g ∈ gs, g.Fits) {s t : Bytes}
    (heq : fs.flatMap encode ++ s = gs.flatMap encode ++ t) : fs = gs ∧ s = t := by
  induction fs generalizing gs with
  | nil =>
    cases gs with
    | nil => exact ⟨rfl, by simpa using heq⟩
    | cons g gs => simp at h
  | cons f fs ih =>
    cases gs with
    | nil => simp at h
    | cons g gs =>
      simp only [List.map_cons, List.cons.injEq, List.forall_mem_cons] at h hfs hgs
      simp only [List.flatMap_cons, List.append_assoc] at heq
      obtain ⟨rfl, hrest⟩ := encode_append_inj h.1 hfs.1 hgs.1 heq
      obtain ⟨rfl, rfl⟩ := ih h.2 hfs.2 hgs.2 hrest
      exact ⟨rfl, rfl⟩

end Field

end W9pt.Lib

import Mathlib

/-!
# Fixed-width machine arithmetic

`u64::checked_add` and `checked_sub` on `UInt64`, characterised by their values: a checked
operation returns a word exactly when that word is the true result. Fixed-width integers are
written in base 256, least or most significant byte first.
-/

namespace W9pt.Lib

/-- A byte string (`[u8]`, `Vec<u8>`, `Box<[u8]>`). -/
abbrev Bytes := List UInt8

abbrev NonZeroU64 := { n : UInt64 // n ≠ 0 }

/-- `to_le_bytes` of a `width`-byte integer. -/
def leBytes : Nat → Nat → Bytes
  | 0, _ => []
  | width + 1, value => UInt8.ofNat value :: leBytes width (value / 256)

/-- `to_be_bytes` of a `width`-byte integer. -/
def beBytes (width value : Nat) : Bytes := (leBytes width value).reverse

def checkedAdd (a b : UInt64) : Option UInt64 :=
  if a.toNat + b.toNat < 2 ^ 64 then some (a + b) else none

def checkedSub (a b : UInt64) : Option UInt64 :=
  if b.toNat ≤ a.toNat then some (a - b) else none

theorem checkedAdd_eq_some {a b c : UInt64} :
    checkedAdd a b = some c ↔ c.toNat = a.toNat + b.toNat := by
  unfold checkedAdd
  constructor
  · intro h
    split at h
    · cases h
      rw [UInt64.toNat_add]
      omega
    · cases h
  · intro h
    have hc := c.toNat_lt
    rw [if_pos (by omega)]
    congr 1
    apply UInt64.toNat_inj.1
    rw [UInt64.toNat_add, h]
    omega

theorem toNat_min_uint32 (a b : UInt32) : (min a b).toNat = min a.toNat b.toNat := by
  show (if a ≤ b then a else b).toNat = _
  split
  · rename_i h
    rw [Nat.min_eq_left (UInt32.le_iff_toNat_le.1 h)]
  · rename_i h
    rw [UInt32.le_iff_toNat_le] at h
    rw [Nat.min_eq_right (by omega)]

end W9pt.Lib

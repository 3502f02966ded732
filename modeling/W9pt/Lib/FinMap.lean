import Mathlib

/-!
# Sums over a finite map

`total f m` adds up a measure of the values of an ordered map. Its rules for `insert` and `erase`
come from the fact that the list of entries has no duplicates, so that a changed map's list is a
permutation of the expected one.
-/

namespace W9pt.Lib

open Std

variable {α β : Type} {cmp : α → α → Ordering} [TransCmp cmp] [LawfulEqCmp cmp]

namespace FinMap

variable {m : ExtTreeMap α β cmp} {k : α} {v : β}

theorem insert_of_getElem? (h : m[k]? = some v) :
    m.insert k v = m := by
  apply ExtTreeMap.ext_getElem?
  intro a
  rw [ExtTreeMap.getElem?_insert]
  split
  · rename_i hk
    rw [← LawfulEqCmp.eq_of_compare hk, h]
  · rfl

theorem erase_insert_of_notMem (h : k ∉ m) :
    (m.insert k v).erase k = m := by
  apply ExtTreeMap.ext_getElem?
  intro a
  rw [ExtTreeMap.getElem?_erase, ExtTreeMap.getElem?_insert]
  split
  · rename_i hk
    rw [← LawfulEqCmp.eq_of_compare hk, ExtTreeMap.getElem?_eq_none h]
  · rfl

variable {w : β}

theorem insert_insert :
    (m.insert k v).insert k w = m.insert k w := by
  apply ExtTreeMap.ext_getElem?
  intro a
  simp only [ExtTreeMap.getElem?_insert]
  split <;> rfl

theorem nodup_toList (m : ExtTreeMap α β cmp) : m.toList.Nodup := by
  have h := m.distinct_keys_toList
  exact h.imp fun hab heq => hab (by rw [heq]; exact ReflCmp.compare_self)

theorem toList_insert_perm (h : k ∉ m) :
    (m.insert k v).toList.Perm ((k, v) :: m.toList) := by
  apply (List.perm_ext_iff_of_nodup (nodup_toList _) ?_).2
  · rintro ⟨a, b⟩
    rw [List.mem_cons, ExtTreeMap.mem_toList_iff_getElem?_eq_some,
      ExtTreeMap.mem_toList_iff_getElem?_eq_some, ExtTreeMap.getElem?_insert]
    split
    · rename_i hk
      obtain rfl := LawfulEqCmp.eq_of_compare hk
      simp [ExtTreeMap.getElem?_eq_none h, eq_comm]
    · rename_i hk
      have hne : a ≠ k := fun heq => hk (by rw [heq]; exact ReflCmp.compare_self)
      simp [hne]
  · refine List.nodup_cons.2 ⟨?_, nodup_toList _⟩
    rw [ExtTreeMap.mem_toList_iff_getElem?_eq_some, ExtTreeMap.getElem?_eq_none h]
    simp

theorem toList_perm_erase (h : m[k]? = some v) :
    m.toList.Perm ((k, v) :: (m.erase k).toList) := by
  have hback : (m.erase k).insert k v = m := by
    apply ExtTreeMap.ext_getElem?
    intro a
    rw [ExtTreeMap.getElem?_insert, ExtTreeMap.getElem?_erase]
    split
    · rename_i hk
      rw [← LawfulEqCmp.eq_of_compare hk, h]
    · rfl
  have habsent : k ∉ m.erase k := by simp
  have hperm := toList_insert_perm (v := v) habsent
  rwa [hback] at hperm

theorem size_erase_add_one (h : m[k]? = some v) :
    (m.erase k).size + 1 = m.size := by
  have hlength := (toList_perm_erase h).length_eq
  simpa only [List.length_cons, ExtTreeMap.length_toList] using hlength.symm

theorem size_insert_of_notMem (h : k ∉ m) :
    (m.insert k v).size = m.size + 1 := by
  have hlength := (toList_insert_perm (v := v) h).length_eq
  simpa only [List.length_cons, ExtTreeMap.length_toList] using hlength

omit [LawfulEqCmp cmp] in
theorem size_insert_of_getElem? (h : m[k]? = some v) :
    (m.insert k w).size = m.size := by
  have hmem : m.contains k = true := by
    rw [ExtTreeMap.contains_eq_isSome_getElem?, h, Option.isSome_some]
  rw [ExtTreeMap.size_insert]
  exact if_pos hmem

def total (f : β → Nat) (m : ExtTreeMap α β cmp) : Nat := (m.toList.map fun entry => f entry.2).sum

omit [LawfulEqCmp cmp] in
theorem total_empty (f : β → Nat) : total f (∅ : ExtTreeMap α β cmp) = 0 := by
  rw [total, ExtTreeMap.toList_eq_nil_iff.2 rfl, List.map_nil, List.sum_nil]

variable {f : β → Nat}

theorem total_insert (h : k ∉ m) :
    total f (m.insert k v) = f v + total f m := by
  rw [total, ((toList_insert_perm h).map _).sum_eq, List.map_cons, List.sum_cons, total]

theorem total_erase (h : m[k]? = some v) :
    total f m = f v + total f (m.erase k) := by
  rw [total, ((toList_perm_erase h).map _).sum_eq, List.map_cons, List.sum_cons, total]

theorem total_insert_add (h : m[k]? = some v) : total f (m.insert k w) + f v = f w + total f m := by
  have herase : (m.insert k w).erase k = m.erase k := by
    apply ExtTreeMap.ext_getElem?
    intro a
    simp only [ExtTreeMap.getElem?_erase, ExtTreeMap.getElem?_insert]
    split <;> rfl
  rw [total_erase (ExtTreeMap.getElem?_insert_self (t := m) (k := k) (v := w)), herase,
    total_erase h]
  omega

theorem total_insert_of_eq (h : m[k]? = some v) (hf : f w = f v) :
    total f (m.insert k w) = total f m := by
  have hadd := total_insert_add (f := f) (w := w) h
  omega

theorem total_insert_le :
    total f (m.insert k w) ≤ f w + total f m := by
  cases h : m[k]? with
  | none =>
    refine Nat.le_of_eq (total_insert ?_)
    rw [ExtTreeMap.mem_iff_isSome_getElem?, h]
    simp
  | some v =>
    have hadd := total_insert_add (f := f) (w := w) h
    omega

theorem total_erase_le :
    total f (m.erase k) ≤ total f m := by
  cases h : m[k]? with
  | none =>
    have hsame : m.erase k = m := by
      apply ExtTreeMap.ext_getElem?
      intro a
      rw [ExtTreeMap.getElem?_erase]
      split
      · rename_i hk
        rw [← LawfulEqCmp.eq_of_compare hk, h]
      · rfl
    rw [hsame]
  | some v =>
    have hadd := total_erase (f := f) h
    omega

theorem le_total (h : m[k]? = some v) :
    f v ≤ total f m := by
  rw [total_erase h]
  exact Nat.le_add_right _ _

theorem total_eq_zero (h : ∀ (k : α) (v : β), m[k]? = some v → f v = 0) : total f m = 0 := by
  rw [total, List.sum_eq_zero_iff]
  intro n hn
  obtain ⟨entry, hentry, rfl⟩ := List.mem_map.1 hn
  exact h entry.1 entry.2 (ExtTreeMap.mem_toList_iff_getElem?_eq_some.1 hentry)

omit [LawfulEqCmp cmp] in
theorem total_map {g : α → β → β} (hf : ∀ a b, f (g a b) = f b) :
    total f (m.map g) = total f m := by
  rw [total, ExtTreeMap.toList_map, List.map_map, total]
  congr 1
  apply List.map_congr_left
  intro entry _
  exact hf _ _

end FinMap

end W9pt.Lib

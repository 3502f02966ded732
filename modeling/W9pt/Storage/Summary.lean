import W9pt.Storage.Roundtrip

/-!
# What a page says about the blocks below it

`BlockMapPage.summary` counts the blocks that a page maps and names the highest of them. Leaves and
branches are treated alike: an entry in slot `s` speaks of the blocks from `base + s * width` on, with
a width of one block in a leaf (`sum_counts_le`). A page that passes `validate_page` has a summary that
`validate_page_ref` accepts, but for the limit on materialized blocks (`Summarizes`).
-/

namespace W9pt.Storage

open Lib

/-! ## Sums over slots -/

section Slots

variable {α : Type} {slot count highest : α → Nat} {base width : Nat}

/-- Entries in different slots map different blocks, all of them between the first slot and the highest
block. -/
theorem sum_counts_le {l : List α} {k top : Nat} (hne : l ≠ []) (hlow : ∀ e ∈ l, k ≤ slot e)
    (hsorted : l.Pairwise fun a b => slot a < slot b)
    (hcount : ∀ e ∈ l, count e ≤ width ∧ count e + (base + slot e * width) ≤ highest e + 1)
    (htop : ∀ e ∈ l, highest e ≤ top) : (l.map count).sum + (base + k * width) ≤ top + 1 := by
  induction l generalizing k with
  | nil => exact absurd rfl hne
  | cons e rest ih =>
    obtain ⟨hfirst, hrest⟩ := List.pairwise_cons.1 hsorted
    obtain ⟨hwidth, hspan⟩ := hcount e (by simp)
    have hshift : k * width ≤ slot e * width := Nat.mul_le_mul_right width (hlow e (by simp))
    rw [List.map_cons, List.sum_cons]
    by_cases hlast : rest = []
    · have hbelow := htop e (by simp)
      simp only [hlast, List.map_nil, List.sum_nil]
      omega
    · have hsum := ih (k := slot e + 1) hlast (fun e' he' => hfirst e' he') hrest
        (fun e' he' => hcount e' (by simp [he'])) fun e' he' => htop e' (by simp [he'])
      rw [Nat.add_mul] at hsum
      omega

end Slots

/-! ## Pages -/

/-- What `validate_page_ref` asks of the location, the count and the highest block of a page, except for
the limit on materialized blocks. -/
structure Summarizes (level firstBlock count highest : Nat) : Prop where
  level_le : level ≤ blockMapMaxLevel
  aligned : firstBlock % 2 ^ (7 * (level + 1)) = 0
  domain : firstBlock + 2 ^ (7 * (level + 1)) ≤ mapDomain
  count_pos : count ≠ 0
  count_le : count ≤ 2 ^ (7 * (level + 1))
  covers : PageContains level firstBlock highest
  count_highest : count ≤ highest - firstBlock + 1

variable {limits : StorageLimits}

/-- A reference is accepted with a sound summary of at most the permitted number of blocks. -/
theorem PageRef.valid_iff {reference : PageRef} :
    reference.Valid limits ↔
      checkedKeyLength reference.key limits = .ok () ∧
      reference.encodedLen ≤ limits.maxMapPageBytes ∧
      minimumPageBytes reference.level + mapPageMinOverhead ≤ reference.encodedLen ∧
      Summarizes reference.level reference.firstBlock reference.materializedBlockCount
        reference.highestMaterializedBlock ∧
      reference.materializedBlockCount ≤ limits.maxMaterializedBlocks := by
  constructor
  · intro h
    exact ⟨h.key, h.encodedLen, h.minimum, ⟨h.level, h.aligned, h.domain, h.count_pos, h.count_le,
      h.covers, h.count_highest⟩, h.count_max⟩
  · rintro ⟨hkey, hlength, hminimum, h, hmax⟩
    exact ⟨hkey, hlength, hminimum, h.level_le, h.aligned, h.domain, h.count_pos, h.count_le, hmax,
      h.covers, h.count_highest⟩

variable {level firstBlock : Nat}

theorem coverage_lt (h : firstBlock + 2 ^ (7 * (level + 1)) ≤ mapDomain) :
    firstBlock + 2 ^ (7 * (level + 1)) < 2 ^ 64 :=
  h.trans_lt (by decide)

/-- One slot of a page at level `level` covers what a page one level below covers. -/
theorem fanout_mul_slotCoverage (level : Nat) :
    blockMapFanout * slotCoverage level = 2 ^ (7 * (level + 1)) := by
  rw [slotCoverage, Nat.mul_add, pow_add, Nat.mul_comm]
  rfl

/-- The summary of entries in slots, each with a count and a highest block of its own. -/
theorem summarizes_of_slots {α : Type} (slot count highest : α → Nat) {top : Nat} {entries : List α}
    (hlevel : level ≤ blockMapMaxLevel) (haligned : firstBlock % 2 ^ (7 * (level + 1)) = 0)
    (hdomain : firstBlock + 2 ^ (7 * (level + 1)) ≤ mapDomain)
    (hslots : ∀ e ∈ entries, slot e < blockMapFanout)
    (hsorted : entries.Pairwise fun a b => slot a < slot b)
    (hcount : ∀ e ∈ entries, count e ≠ 0 ∧ count e ≤ slotCoverage level ∧
      count e + (firstBlock + slot e * slotCoverage level) ≤ highest e + 1 ∧
      highest e < firstBlock + (slot e + 1) * slotCoverage level)
    (htop : ∀ e ∈ entries, highest e ≤ top) (hmem : ∃ e ∈ entries, highest e = top) :
    Summarizes level firstBlock (entries.map count).sum top := by
  obtain ⟨e, he, rfl⟩ := hmem
  have hne : entries ≠ [] := List.ne_nil_of_mem he
  obtain ⟨hpos, -, hlow, hhigh⟩ := hcount e he
  have hspan : (slot e + 1) * slotCoverage level ≤ 2 ^ (7 * (level + 1)) := by
    rw [← fanout_mul_slotCoverage]
    exact Nat.mul_le_mul_right _ (hslots e he)
  have hsum : (entries.map count).sum + (firstBlock + 0 * slotCoverage level) ≤ highest e + 1 :=
    sum_counts_le hne (fun _ _ => Nat.zero_le _) hsorted
      (fun e' he' => ⟨(hcount e' he').2.1, (hcount e' he').2.2.1⟩) htop
  have hterm : count e ≤ (entries.map count).sum :=
    List.single_le_sum (fun _ _ => Nat.zero_le _) _ (List.mem_map_of_mem he)
  have hword := coverage_lt hdomain
  exact ⟨hlevel, haligned, hdomain, by omega, by omega, ⟨hlevel, hword, by omega, by omega⟩, by omega⟩

theorem slot_le_last {α : Type} {entries : List (Nat × α)} {last e : Nat × α}
    (hsorted : entries.Pairwise fun a b => a.1 < b.1) (hlast : entries.getLast? = some last)
    (he : e ∈ entries) : e.1 ≤ last.1 := by
  obtain ⟨front, rfl⟩ := List.getLast?_eq_some_iff.1 hlast
  rcases List.mem_append.1 he with hfront | hself
  · exact ((List.pairwise_append.1 hsorted).2.2 e hfront last (by simp)).le
  · rw [List.mem_singleton.1 hself]

/-- What a child says of the blocks of its slot. -/
theorem child_span {reference : PageRef} {slot : Nat} (hlevel : level ≠ 0)
    (hvalid : reference.Valid limits) (hchild : reference.level = level - 1)
    (hfirst : reference.firstBlock = firstBlock + slot * slotCoverage level) :
    reference.materializedBlockCount ≠ 0 ∧
      reference.materializedBlockCount ≤ slotCoverage level ∧
      reference.materializedBlockCount + (firstBlock + slot * slotCoverage level) ≤
        reference.highestMaterializedBlock + 1 ∧
      reference.highestMaterializedBlock < firstBlock + (slot + 1) * slotCoverage level := by
  have hwidth : 2 ^ (7 * (reference.level + 1)) = slotCoverage level := by
    rw [slotCoverage, hchild, Nat.sub_one_add_one hlevel]
  have hcount := hvalid.count_le
  have hspan := hvalid.count_highest
  obtain ⟨-, -, hlow, hhigh⟩ := hvalid.covers
  rw [hwidth] at hcount hhigh
  rw [Nat.add_mul]
  exact ⟨hvalid.count_pos, hcount, by omega, by omega⟩

/-- **The summary of a page that passes its checks is sound.** -/
theorem summary_summarizes {crypto : Crypto} {page : BlockMapPage} {count highest : Nat}
    (hvalid : validatePage crypto page limits = .ok ()) (h : page.summary = .ok (count, highest)) :
    Summarizes page.level page.firstBlock count highest := by
  cases page with
  | leaf fileId firstBlock entries =>
    obtain ⟨⟨haligned, hdomain⟩, ⟨-, hslots, hsorted⟩, -⟩ := validatePage_leaf.1 hvalid
    simp only [BlockMapPage.summary] at h
    split at h
    · cases h
    · rename_i slot blob hlast
      split at h
      · cases h
        have hlevel : 0 ≤ blockMapMaxLevel := by decide
        have hones : entries.length = (entries.map fun _ => 1).sum := by simp
        have hle : ∀ e ∈ entries, e.1 ≤ slot := fun e he => slot_le_last hsorted hlast he
        rw [hones]
        refine summarizes_of_slots Prod.fst (fun _ => 1) (fun e => firstBlock + e.1) hlevel haligned
          hdomain hslots hsorted (fun e he => ?_) (fun e he => Nat.add_le_add_left (hle e he) _)
          ⟨(slot, blob), List.mem_of_getLast? hlast, rfl⟩
        simp only [BlockMapPage.level, BlockMapPage.firstBlock, slotCoverage, Nat.mul_zero, pow_zero,
          Nat.mul_one]
        omega
      · cases h
  | branch fileId level firstBlock entries =>
    obtain ⟨⟨hlevel, hne, haligned, hdomain⟩, ⟨-, hslots, hsorted⟩, hentries⟩ :=
      validatePage_branch.1 hvalid
    simp only [BlockMapPage.summary] at h
    split at h
    · split at h
      · cases h
      · rename_i top hmax
        cases h
        obtain ⟨hmem, hle⟩ := List.max?_eq_some_iff.1 hmax
        obtain ⟨e, he, htop⟩ := List.mem_map.1 hmem
        refine summarizes_of_slots Prod.fst (fun e => e.2.materializedBlockCount)
          (fun e => e.2.highestMaterializedBlock) hlevel haligned hdomain hslots hsorted
          (fun e he => ?_) (fun e he => hle _ (List.mem_map_of_mem he)) ⟨e, he, htop⟩
        obtain ⟨hchild, hchildLevel, hfirst⟩ := hentries e he
        exact child_span hne hchild hchildLevel hfirst
    · cases h

end W9pt.Storage

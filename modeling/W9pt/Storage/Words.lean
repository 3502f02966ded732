import W9pt.Storage.RewriteTree

/-!
# Page arithmetic in machine words (`format/block_map.rs:286-339`)

The model of the map computes with numbers (`Storage/Format.lean`). Here the same functions compute as
the source does, in words: a checked operation reports an error, and an operator whose result does not
fit its word panics. **Main result**: nothing panics, no check fails, and the slots of a page
partition the blocks it covers (`page_arithmetic_exact`).
-/

namespace W9pt.Storage

open Lib Lib.Radix

abbrev Words := ExceptT FormatError Option

namespace Words

/-- The result of an operator on words of the given width. -/
def fits (width n : Nat) : Words Nat := if n < 2 ^ width then pure n else ExceptT.mk none

def minus (a b : Nat) : Words Nat := if b ≤ a then pure (a - b) else ExceptT.mk none

def divide (a b : Nat) : Words Nat := if b = 0 then ExceptT.mk none else pure (a / b)

def pageCoverage (level : Nat) : Words Nat := do
  if blockMapMaxLevel < level then throw (.nonCanonical "page level")
  let levels ← fits 32 (level + 1)
  let shift ← fits 32 (7 * levels)
  -- `checked_shl` refuses the width of the word.
  if shift < 64 then return 2 ^ shift % 2 ^ 64 else throw (.arithmeticOverflow "page coverage")

/-- The loop of `minimum_root_level`. -/
def levelFrom (highestBlock : Nat) : List Nat → Words Nat
  | [] => throw (.nonCanonical "block index outside radix domain")
  | level :: levels => do
    let coverage ← pageCoverage level
    if highestBlock < coverage then return level else levelFrom highestBlock levels

def minimumRootLevel (highestBlock : Nat) : Words Nat :=
  levelFrom highestBlock (List.range (blockMapMaxLevel + 1))

def pageContains (level firstBlock blockIndex : Nat) : Option Bool := do
  let coverage ← (pageCoverage level).run
  return coverage.toOption.any fun coverage => firstBlock + coverage < 2 ^ 64 ∧
    firstBlock ≤ blockIndex ∧ blockIndex < firstBlock + coverage

/-- How many blocks a slot covers (block_map.rs:319). -/
def childCoverage (level : Nat) : Words Nat :=
  if level = 0 then pure 1 else do pageCoverage (← minus level 1)

def pageSlot (level firstBlock blockIndex : Nat) : Words Nat := do
  let inside ← (pageContains level firstBlock blockIndex : Words Bool)
  if inside = false then throw (.nonCanonical "block outside page range")
  else
    let childCoverage ← childCoverage level
    let slot ← divide (← minus blockIndex firstBlock) childCoverage
    if slot < 2 ^ 8 then return slot else throw (.arithmeticOverflow "page slot")

/-! ## The words hold every result -/

variable {level firstBlock blockIndex : Nat}

theorem pageCoverage_eq (level : Nat) : pageCoverage level = some (Storage.pageCoverage level) := by
  rcases Nat.lt_or_ge blockMapMaxLevel level with hlevel | hlevel
  · simp only [pageCoverage, Storage.pageCoverage, hlevel, hlevel.not_ge, if_true, if_false]
    rfl
  · unfold blockMapMaxLevel at hlevel
    interval_cases level <;> rfl

theorem pageCoverage_of_le (h : level ≤ blockMapMaxLevel) :
    pageCoverage level = some (.ok (2 ^ (7 * (level + 1)))) := by
  rw [pageCoverage_eq, pageCoverage_eq_ok.2 ⟨h, rfl⟩]

theorem minimumRootLevel_eq (highestBlock : Nat) :
    minimumRootLevel highestBlock = some (Storage.minimumRootLevel highestBlock) := by
  have hloop : ∀ levels : List Nat, (∀ level ∈ levels, level ≤ blockMapMaxLevel) →
      levelFrom highestBlock levels =
        some (okOr (levels.find? fun level => highestBlock < 2 ^ (7 * (level + 1)))
          (.nonCanonical "block index outside radix domain")) := by
    intro levels hlevels
    induction levels with
    | nil => rfl
    | cons level levels ih =>
      obtain ⟨hlevel, hlevels⟩ := List.forall_mem_cons.1 hlevels
      by_cases hcovers : highestBlock < 2 ^ (7 * (level + 1))
      · simp only [levelFrom, pageCoverage_of_le hlevel, List.find?_cons, hcovers, decide_true]
        exact if_pos hcovers
      · simp only [levelFrom, pageCoverage_of_le hlevel, List.find?_cons, hcovers, decide_false]
        exact (if_neg hcovers).trans (ih hlevels)
  rw [minimumRootLevel, hloop _ fun _ h => Nat.le_of_lt_succ (List.mem_range.1 h), Storage.minimumRootLevel]
  cases (List.range (blockMapMaxLevel + 1)).find? _ <;> rfl

theorem pageContains_eq : pageContains level firstBlock blockIndex =
    some (decide (PageContains level firstBlock blockIndex)) := by
  simp only [pageContains, pageCoverage_eq, ExceptT.run, Storage.pageCoverage, PageContains]
  split
  · rename_i hlevel
    simp [hlevel, Except.toOption]
  · rename_i hlevel
    simp [hlevel, Except.toOption]

theorem childCoverage_eq (h : level ≤ blockMapMaxLevel) :
    childCoverage level = some (.ok (slotCoverage level)) := by
  cases level with
  | zero => rfl
  | succ below => exact pageCoverage_of_le (Nat.le_of_succ_le h)

theorem pageSlot_eq : pageSlot level firstBlock blockIndex =
    some (Storage.pageSlot level firstBlock blockIndex) := by
  rw [pageSlot, pageContains_eq]
  by_cases hinside : PageContains level firstBlock blockIndex
  · obtain ⟨hlevel, -, hlow, hhigh⟩ := id hinside
    rw [← fanout_mul_slotCoverage] at hhigh
    have hwidth : 0 < slotCoverage level := Nat.two_pow_pos _
    obtain ⟨slot, hslot, hquotient, -⟩ := exists_slot hwidth hlow hhigh
    rw [decide_eq_true hinside, Storage.pageSlot, ensure_of hinside, ← hquotient]
    change (childCoverage level >>= _) = _
    rw [childCoverage_eq hlevel]
    change (minus blockIndex firstBlock >>= _) = _
    rw [minus, if_pos hlow]
    change (divide (blockIndex - firstBlock) (slotCoverage level) >>= _) = _
    rw [divide, if_neg hwidth.ne', ← hquotient]
    exact if_pos (hslot.trans (by decide))
  · rw [decide_eq_false hinside, Storage.pageSlot, ensure, if_neg hinside]
    rfl

/-- Neither a panic nor an overflow. -/
def Settles {α : Type} (r : Words α) : Prop :=
  ∃ x : Except FormatError α, r = some x ∧ ∀ field, x ≠ .error (.arithmeticOverflow field)

theorem settles_pageCoverage : (pageCoverage level).Settles := by
  refine ⟨_, pageCoverage_eq level, fun field => ?_⟩
  unfold Storage.pageCoverage
  split <;> simp

theorem settles_minimumRootLevel : (minimumRootLevel blockIndex).Settles := by
  refine ⟨_, minimumRootLevel_eq blockIndex, fun field => ?_⟩
  unfold Storage.minimumRootLevel
  split <;> simp

theorem settles_pageSlot : (pageSlot level firstBlock blockIndex).Settles := by
  refine ⟨_, pageSlot_eq, fun field => ?_⟩
  unfold Storage.pageSlot ensure
  split
  · exact nofun
  · simp [bind, Except.bind]

end Words

/-! ## Ranges -/

section

variable {level firstBlock slot slot' blockIndex : Nat}

/-- The block lies in the range of a page. -/
def InPage (level firstBlock blockIndex : Nat) : Prop :=
  firstBlock ≤ blockIndex ∧ blockIndex < firstBlock + 2 ^ (7 * (level + 1))

/-- The block lies in the range of a slot: of a child page, or its own at level zero. -/
def InSlot (level firstBlock slot blockIndex : Nat) : Prop :=
  firstBlock + slot * slotCoverage level ≤ blockIndex ∧
    blockIndex < firstBlock + slot * slotCoverage level + slotCoverage level

theorem inPage_iff : InPage level firstBlock blockIndex ↔
    ∃ slot < blockMapFanout, InSlot level firstBlock slot blockIndex := by
  unfold InPage
  rw [← fanout_mul_slotCoverage]
  constructor
  · rintro ⟨hlow, hhigh⟩
    obtain ⟨slot, hslot, -, hin⟩ := exists_slot (Nat.two_pow_pos _) hlow hhigh
    exact ⟨slot, hslot, hin⟩
  · rintro ⟨slot, hslot, hlow, hhigh⟩
    exact ⟨(Nat.le_add_right _ _).trans hlow, hhigh.trans_le (slot_end_le _ _ hslot)⟩

theorem InSlot.eq_div (h : InSlot level firstBlock slot blockIndex) :
    slot = (blockIndex - firstBlock) / slotCoverage level := by
  obtain ⟨hlow, hhigh⟩ := h
  refine (Nat.div_eq_of_lt_le (by omega) ?_).symm
  rw [Nat.succ_mul]
  omega

theorem pageSlot_eq_ok (hlevel : level ≤ blockMapMaxLevel)
    (hdomain : firstBlock + 2 ^ (7 * (level + 1)) ≤ mapDomain) :
    pageSlot level firstBlock blockIndex = .ok slot ↔
      slot < blockMapFanout ∧ InSlot level firstBlock slot blockIndex := by
  simp only [pageSlot, bind_eq_ok, ensure_eq_ok, exists_const, pure_eq_ok]
  constructor
  · rintro ⟨⟨-, -, hin⟩, rfl⟩
    obtain ⟨slot, hslot, hin⟩ := inPage_iff.1 hin
    rw [← hin.eq_div]
    exact ⟨hslot, hin⟩
  · rintro ⟨hslot, hin⟩
    exact ⟨⟨hlevel, coverage_lt hdomain, inPage_iff.2 ⟨slot, hslot, hin⟩⟩, hin.eq_div.symm⟩

end

/-- The arithmetic of a page and a block. -/
structure PageArithmetic (level : UInt8) (firstBlock block : UInt64) : Prop where
  root : block.toNat < mapDomain → ∃ root slot,
    Words.minimumRootLevel block.toNat = some (.ok root) ∧
    IsLeast {l | ∃ coverage, Words.pageCoverage l = some (.ok coverage) ∧ block.toNat < coverage} root ∧
    Words.pageSlot root 0 block.toNat = some (.ok slot) ∧
    slot < blockMapFanout ∧ InSlot root 0 slot block.toNat
  slot : level.toNat ≤ blockMapMaxLevel → firstBlock.toNat + 2 ^ (7 * (level.toNat + 1)) ≤ mapDomain →
    ∀ slot, Words.pageSlot level.toNat firstBlock.toNat block.toNat = some (.ok slot) ↔
      slot < blockMapFanout ∧ InSlot level.toNat firstBlock.toNat slot block.toNat
  contains : level.toNat ≤ blockMapMaxLevel →
    firstBlock.toNat + 2 ^ (7 * (level.toNat + 1)) ≤ mapDomain →
    (Words.pageContains level.toNat firstBlock.toNat block.toNat = some true ↔
      InPage level.toNat firstBlock.toNat block.toNat)
  covered : InPage level.toNat firstBlock.toNat block.toNat ↔
    ∃ slot < blockMapFanout, InSlot level.toNat firstBlock.toNat slot block.toNat
  disjoint : ∀ slot slot', InSlot level.toNat firstBlock.toNat slot block.toNat →
    InSlot level.toNat firstBlock.toNat slot' block.toNat → slot = slot'
  settles : (Words.pageCoverage level.toNat).Settles ∧ (Words.minimumRootLevel block.toNat).Settles ∧
    (Words.pageSlot level.toNat firstBlock.toNat block.toNat).Settles ∧
    Words.pageContains level.toNat firstBlock.toNat block.toNat ≠ none
  offsets : ∀ offset : UInt64, offset.toNat / blockSize < mapDomain

/-- **Page arithmetic covers the domain** of all blocks of all offsets, without a panic or an overflow. -/
theorem page_arithmetic_exact (level : UInt8) (firstBlock block : UInt64) :
    PageArithmetic level firstBlock block where
  root hblock := by
    have hcovered : ∃ l, block.toNat < span blockMapFanout l :=
      ⟨blockMapMaxLevel, hblock.trans_eq (by decide)⟩
    have hlt := Nat.find_spec hcovered
    have hlevel : Nat.find hcovered ≤ blockMapMaxLevel := Nat.find_min' hcovered (hblock.trans_eq (by decide))
    have hroot := minimumRootLevel_eq_ok.2
      ⟨hlevel, hlt, fun l hl => Nat.le_of_not_lt (Nat.find_min hcovered hl)⟩
    have hdomain := Nat.pow_le_pow_right (show 0 < 2 by decide)
      (Nat.mul_le_mul_left 7 (Nat.succ_le_succ hlevel))
    rw [span_eq] at hlt
    obtain ⟨slot, hslot⟩ := inPage_iff.1 ⟨Nat.zero_le block.toNat, by rwa [Nat.zero_add]⟩
    refine ⟨_, slot, by rw [Words.minimumRootLevel_eq, hroot],
      ⟨⟨_, Words.pageCoverage_of_le hlevel, hlt⟩, ?_⟩, ?_, hslot⟩
    · rintro l ⟨coverage, hcoverage, hl⟩
      rw [Words.pageCoverage_eq, Option.some_inj, pageCoverage_eq_ok] at hcoverage
      exact Nat.find_min' hcovered (by rwa [span_eq, ← hcoverage.2])
    · rw [Words.pageSlot_eq, (pageSlot_eq_ok hlevel ((Nat.zero_add _).trans_le hdomain)).2 hslot]
  slot hlevel hdomain slot := by
    rw [Words.pageSlot_eq, Option.some_inj, pageSlot_eq_ok hlevel hdomain]
  contains hlevel hdomain := by
    rw [Words.pageContains_eq, Option.some_inj, decide_eq_true_iff]
    exact ⟨fun h => h.2.2, fun h => ⟨hlevel, coverage_lt hdomain, h⟩⟩
  covered := inPage_iff
  disjoint _ _ h h' := h.eq_div.trans h'.eq_div.symm
  settles := by
    refine ⟨Words.settles_pageCoverage, Words.settles_minimumRootLevel, Words.settles_pageSlot, ?_⟩
    rw [Words.pageContains_eq]
    exact Option.some_ne_none _
  offsets offset := by
    have := offset.toNat_lt
    unfold blockSize mapDomain
    omega

end W9pt.Storage

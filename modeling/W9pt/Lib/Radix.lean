import Mathlib

/-!
# Radix trees behind references

A radix tree of fan-out `n` maps natural numbers to values. Its nodes are named by references of a type
`ρ`, and `opens level first ref node` says that the node at a level, for the numbers from `first` on, is
`node`. `Maps opens m level first ref` says that the tree under `ref` maps just as `m` does on the numbers
that it covers, `n ^ (level + 1)` of them.

The lemmas say how such a tree is taken apart at a node (`maps_some`), what of it depends on `opens` and
`m` (`Maps.mono`, `Maps.congr`), that summaries which are right at each node are right for the whole tree
(`Maps.exact`), and where a node can lie (`Occurs`).
-/

namespace W9pt.Lib.Radix

variable {ρ β : Type}

/-! ## Ranges of numbers -/

/-- How many numbers a node covers. -/
def span (fanout level : Nat) : Nat := fanout ^ (level + 1)

theorem span_zero (fanout : Nat) : span fanout 0 = fanout := pow_one fanout

theorem span_succ (fanout level : Nat) : span fanout (level + 1) = fanout * span fanout level :=
  pow_succ' fanout (level + 1)

variable {fanout : Nat}

theorem span_pos (h : 0 < fanout) (level : Nat) : 0 < span fanout level :=
  Nat.pow_pos h

theorem span_mono (h : 0 < fanout) {level level' : Nat} (hle : level ≤ level') :
    span fanout level ≤ span fanout level' :=
  Nat.pow_le_pow_right h (Nat.succ_le_succ hle)

variable {width first : Nat}

/-- The slot of a number in a node with slots of the given width. -/
theorem exists_slot {i : Nat} (hwidth : 0 < width) (hlow : first ≤ i)
    (hhigh : i < first + fanout * width) :
    ∃ s < fanout, s = (i - first) / width ∧ first + s * width ≤ i ∧ i < first + s * width + width := by
  refine ⟨(i - first) / width, ?_, rfl, ?_, ?_⟩
  · exact Nat.div_lt_of_lt_mul (by rw [Nat.mul_comm]; omega)
  · have := Nat.div_mul_le_self (i - first) width
    omega
  · have := Nat.lt_div_mul_add (a := i - first) hwidth
    omega

theorem slot_end_le (first width : Nat) {s : Nat} (hs : s < fanout) :
    first + s * width + width ≤ first + fanout * width := by
  have : (s + 1) * width ≤ fanout * width := Nat.mul_le_mul_right width hs
  rw [Nat.add_mul] at this
  omega

/-! ## Maps on ranges -/

/-- Nothing is mapped in the range. -/
def Blank (m : Nat → Option β) (first width : Nat) : Prop :=
  ∀ i, first ≤ i → i < first + width → m i = none

/-- The two agree on the range. -/
def AgreeOn (m m' : Nat → Option β) (first width : Nat) : Prop :=
  ∀ i, first ≤ i → i < first + width → m i = m' i

variable {m : Nat → Option β} {first' width' : Nat}

theorem AgreeOn.sub {m' : Nat → Option β} (h : AgreeOn m m' first width) (hlow : first ≤ first')
    (hhigh : first' + width' ≤ first + width) :
    AgreeOn m m' first' width' :=
  fun i hi hi' => h i (hlow.trans hi) (hi'.trans_le hhigh)

theorem Blank.sub (h : Blank m first width) (hlow : first ≤ first')
    (hhigh : first' + width' ≤ first + width) : Blank m first' width' :=
  fun i hi hi' => h i (hlow.trans hi) (hi'.trans_le hhigh)

theorem Blank.congr {m' : Nat → Option β} (h : Blank m first width) (hm : AgreeOn m m' first width) :
    Blank m' first width :=
  fun i hlow hhigh => (hm i hlow hhigh).symm.trans (h i hlow hhigh)

theorem blank_slots (hwidth : 0 < width) (h : ∀ s < fanout, Blank m (first + s * width) width) :
    Blank m first (fanout * width) := by
  intro i hlow hhigh
  obtain ⟨s, hs, -, hlow', hhigh'⟩ := exists_slot hwidth hlow hhigh
  exact h s hs i hlow' hhigh'

/-! ## How much is mapped -/

/-- How many numbers of the range are mapped. -/
def occupied (m : Nat → Option β) (first width : Nat) : Nat :=
  Nat.count (fun k => (m (first + k)).isSome = true) width

/-- The greatest number of the range that is mapped. -/
def Greatest (m : Nat → Option β) (first width highest : Nat) : Prop :=
  IsGreatest {i | first ≤ i ∧ i < first + width ∧ (m i).isSome = true} highest

theorem occupied_add (m : Nat → Option β) (first a b : Nat) :
    occupied m first (a + b) = occupied m first a + occupied m (first + a) b := by
  unfold occupied
  rw [Nat.count_add]
  simp only [Nat.add_assoc]

theorem occupied_slots (m : Nat → Option β) (first width n : Nat) :
    occupied m first (n * width) =
      ((List.range n).map fun s => occupied m (first + s * width) width).sum := by
  induction n with
  | zero => simp [occupied]
  | succ n ih =>
    rw [Nat.add_mul, Nat.one_mul, occupied_add, ih, List.range_succ]
    simp

theorem occupied_eq_zero (h : Blank m first width) :
    occupied m first width = 0 := by
  unfold occupied
  rw [Nat.count_eq_card_filter_range, Finset.card_eq_zero, Finset.filter_eq_empty_iff]
  intro k hk
  rw [h (first + k) (by omega) (by have := Finset.mem_range.1 hk; omega)]
  simp

theorem occupied_le (hlow : first ≤ first') (hhigh : first' + width' ≤ first + width) :
    occupied m first' width' ≤ occupied m first width := by
  have hsplit : width = (first' - first) + (width' + (first + width - (first' + width'))) := by omega
  have hstart : first + (first' - first) = first' := by omega
  rw [hsplit, occupied_add, hstart, occupied_add]
  omega

theorem occupied_le_width (m : Nat → Option β) (first width : Nat) : occupied m first width ≤ width :=
  Nat.count_le _

/-! ## Trees -/

/-- The slots of a node. -/
inductive Node (ρ β : Type) where
  | leaf (slots : Nat → Option β)
  | branch (slots : Nat → Option ρ)

/-- Which node a reference opens to at a place. -/
abbrev Opening (ρ β : Type) := Nat → Nat → ρ → Node ρ β → Prop

section Trees

variable (fanout : Nat) (opens : Opening ρ β) (m : Nat → Option β)

/-- The tree under a reference maps as `m` does; without a reference nothing is mapped. -/
def Maps : Nat → Nat → Option ρ → Prop
  | level, first, none => Blank m first (span fanout level)
  | 0, first, some ref => ∃ slots, opens 0 first ref (.leaf slots) ∧
      ∀ s < fanout, m (first + s) = slots s
  | level + 1, first, some ref => ∃ slots, opens (level + 1) first ref (.branch slots) ∧
      ∀ s < fanout, Maps level (first + s * span fanout level) (slots s)

/-- A node maps as `m` does. -/
def NodeMaps : Nat → Nat → Node ρ β → Prop
  | 0, first, .leaf slots => ∀ s < fanout, m (first + s) = slots s
  | level + 1, first, .branch slots =>
    ∀ s < fanout, Maps fanout opens m level (first + s * span fanout level) (slots s)
  | _, _, _ => False

/-- The node `x` occurs at level `l`, from `f` on, in the tree under a reference. -/
def Occurs (l f : Nat) (x : ρ) : Nat → Nat → Option ρ → Prop
  | 0, first, ref => ref = some x ∧ l = 0 ∧ f = first
  | level + 1, first, ref => (ref = some x ∧ l = level + 1 ∧ f = first) ∨
      ∃ top slots s, ref = some top ∧ opens (level + 1) first top (.branch slots) ∧ s < fanout ∧
        Occurs l f x level (first + s * span fanout level) (slots s)

end Trees

variable {fanout : Nat} {opens opens' : Opening ρ β} {m m' : Nat → Option β} {level first : Nat}
  {ref : Option ρ} {top x : ρ} {l f : Nat}

@[simp] theorem maps_none :
    Maps fanout opens m level first none ↔ Blank m first (span fanout level) := by
  cases level <;> rfl

theorem maps_some : Maps fanout opens m level first (some top) ↔
    ∃ node, opens level first top node ∧ NodeMaps fanout opens m level first node := by
  cases level with
  | zero =>
    constructor
    · rintro ⟨slots, hopens, hslots⟩
      exact ⟨.leaf slots, hopens, hslots⟩
    · rintro ⟨node, hopens, hnode⟩
      cases node with
      | leaf slots => exact ⟨slots, hopens, hnode⟩
      | branch slots => exact hnode.elim
  | succ level =>
    constructor
    · rintro ⟨slots, hopens, hslots⟩
      exact ⟨.branch slots, hopens, hslots⟩
    · rintro ⟨node, hopens, hnode⟩
      cases node with
      | leaf slots => exact hnode.elim
      | branch slots => exact ⟨slots, hopens, hnode⟩

/-- More references can be opened. -/
theorem Maps.mono (hopens : ∀ level first top node, opens level first top node →
    opens' level first top node) (h : Maps fanout opens m level first ref) :
    Maps fanout opens' m level first ref := by
  induction level generalizing first ref with
  | zero =>
    cases ref with
    | none => exact h
    | some top =>
      obtain ⟨slots, hnode, hslots⟩ := h
      exact ⟨slots, hopens _ _ _ _ hnode, hslots⟩
  | succ level ih =>
    cases ref with
    | none => exact h
    | some top =>
      obtain ⟨slots, hnode, hslots⟩ := h
      exact ⟨slots, hopens _ _ _ _ hnode, fun s hs => ih (hslots s hs)⟩

theorem NodeMaps.mono (hopens : ∀ level first top node, opens level first top node →
    opens' level first top node) {node : Node ρ β} (h : NodeMaps fanout opens m level first node) :
    NodeMaps fanout opens' m level first node := by
  cases level with
  | zero =>
    cases node with
    | leaf slots => exact h
    | branch slots => exact h.elim
  | succ level =>
    cases node with
    | leaf slots => exact h.elim
    | branch slots => exact fun s hs => (h s hs).mono hopens

theorem Maps.congr (hm : AgreeOn m m' first (span fanout level))
    (h : Maps fanout opens m level first ref) : Maps fanout opens m' level first ref := by
  induction level generalizing first ref with
  | zero =>
    cases ref with
    | none => exact maps_none.2 ((maps_none.1 h).congr hm)
    | some top =>
      obtain ⟨slots, hnode, hslots⟩ := h
      rw [span_zero] at hm
      exact ⟨slots, hnode, fun s hs => (hm _ (by omega) (by omega)).symm.trans (hslots s hs)⟩
  | succ level ih =>
    cases ref with
    | none => exact maps_none.2 ((maps_none.1 h).congr hm)
    | some top =>
      obtain ⟨slots, hnode, hslots⟩ := h
      refine ⟨slots, hnode, fun s hs => ih (hm.sub (by omega) ?_) (hslots s hs)⟩
      rw [span_succ]
      exact slot_end_le first (span fanout level) hs

/-- A tree without a reference in any slot maps nothing. -/
theorem NodeMaps.blank (hfanout : 0 < fanout) {slots : Nat → Option ρ}
    (h : NodeMaps fanout opens m (level + 1) first (.branch slots)) (hnone : ∀ s < fanout, slots s = none) :
    Blank m first (span fanout (level + 1)) := by
  rw [span_succ]
  refine blank_slots (span_pos hfanout level) fun s hs => ?_
  have hslot := h s hs
  rw [hnone s hs, maps_none] at hslot
  exact hslot

/-! ## Summaries -/

/-- What a node says about its numbers when the references in its slots say `count` and `highest`. -/
def Sums (fanout : Nat) (count highest : ρ → Nat) (first : Nat) : Node ρ β → Nat → Nat → Prop
  | .leaf slots, c, h => c = Nat.count (fun s => (slots s).isSome = true) fanout ∧
      IsGreatest {i | ∃ s < fanout, i = first + s ∧ (slots s).isSome = true} h
  | .branch slots, c, h => c = ((List.range fanout).map fun s => (slots s).elim 0 count).sum ∧
      IsGreatest {i | ∃ s < fanout, ∃ top, slots s = some top ∧ i = highest top} h

/-- Every reference that opens says what its node says. -/
def Summarized (fanout : Nat) (opens : Opening ρ β) (count highest : ρ → Nat) : Prop :=
  ∀ level first top node, opens level first top node →
    Sums fanout count highest first node (count top) (highest top)

variable {count highest : ρ → Nat}

theorem exact_leaf {slots : Nat → Option β} {c h : Nat} (hm : ∀ s < fanout, m (first + s) = slots s)
    (hsums : Sums fanout count highest first (.leaf slots) c h) :
    c = occupied m first fanout ∧ Greatest m first fanout h := by
  obtain ⟨rfl, ⟨s, hs, rfl, hsome⟩, hle⟩ := hsums
  constructor
  · unfold occupied
    rw [Nat.count_eq_card_filter_range, Nat.count_eq_card_filter_range]
    refine congrArg Finset.card (Finset.filter_congr fun s hs => ?_)
    rw [hm s (Finset.mem_range.1 hs)]
  · refine ⟨⟨by omega, by omega, hm s hs ▸ hsome⟩, fun i hi => ?_⟩
    obtain ⟨hlow, hhigh, hi⟩ := hi
    have hslot : m i = slots (i - first) := by
      rw [← hm (i - first) (by omega)]
      congr 1
      omega
    exact hle ⟨i - first, by omega, by omega, hslot ▸ hi⟩

theorem exact_branch (hfanout : 0 < fanout) {slots : Nat → Option ρ} {c h : Nat}
    (hnone : ∀ s < fanout, slots s = none →
      Blank m (first + s * span fanout level) (span fanout level))
    (hsome : ∀ s < fanout, ∀ top, slots s = some top →
      count top = occupied m (first + s * span fanout level) (span fanout level) ∧
        Greatest m (first + s * span fanout level) (span fanout level) (highest top))
    (hsums : Sums (β := β) fanout count highest first (.branch slots) c h) :
    c = occupied m first (span fanout (level + 1)) ∧
      Greatest m first (span fanout (level + 1)) h := by
  obtain ⟨rfl, ⟨s, hs, top, htop, rfl⟩, hle⟩ := hsums
  have hwidth := span_pos hfanout level
  rw [span_succ]
  constructor
  · rw [occupied_slots]
    refine congrArg List.sum (List.map_congr_left fun s hs => ?_)
    have hs := List.mem_range.1 hs
    cases hslot : slots s with
    | none => exact (occupied_eq_zero (hnone s hs hslot)).symm
    | some top => exact (hsome s hs top hslot).1
  · obtain ⟨⟨hlow, hhigh, hmem⟩, -⟩ := (hsome s hs top htop).2
    have hend := slot_end_le first (span fanout level) hs
    refine ⟨⟨by omega, by omega, hmem⟩, fun i hi => ?_⟩
    obtain ⟨hilow, hihigh, himem⟩ := hi
    obtain ⟨s', hs', -, hlow', hhigh'⟩ := exists_slot hwidth hilow hihigh
    cases hslot : slots s' with
    | none =>
      rw [hnone s' hs' hslot i hlow' hhigh'] at himem
      cases himem
    | some top' =>
      exact ((hsome s' hs' top' hslot).2.2 ⟨hlow', hhigh', himem⟩).trans (hle ⟨s', hs', top', hslot, rfl⟩)

/-- **Summaries that are right at each node are right for the tree**: they count the mapped numbers and
name the greatest. -/
theorem Maps.exact (hfanout : 0 < fanout) (hopens : Summarized fanout opens count highest)
    (h : Maps fanout opens m level first (some top)) :
    count top = occupied m first (span fanout level) ∧
      Greatest m first (span fanout level) (highest top) := by
  induction level generalizing first top with
  | zero =>
    obtain ⟨slots, hnode, hslots⟩ := h
    rw [span_zero]
    exact exact_leaf hslots (hopens _ _ _ _ hnode)
  | succ level ih =>
    obtain ⟨slots, hnode, hslots⟩ := h
    refine exact_branch hfanout (fun s hs hslot => ?_) (fun s hs top hslot => ?_) (hopens _ _ _ _ hnode)
    · have := hslots s hs
      rwa [hslot, maps_none] at this
    · have := hslots s hs
      rw [hslot] at this
      exact ih this

theorem NodeMaps.exact (hfanout : 0 < fanout) (hopens : Summarized fanout opens count highest)
    {node : Node ρ β} {c h : Nat} (hnode : NodeMaps fanout opens m level first node)
    (hsums : Sums fanout count highest first node c h) :
    c = occupied m first (span fanout level) ∧ Greatest m first (span fanout level) h := by
  cases level with
  | zero =>
    cases node with
    | leaf slots =>
      rw [span_zero]
      exact exact_leaf hnode hsums
    | branch slots => exact hnode.elim
  | succ level =>
    cases node with
    | leaf slots => exact hnode.elim
    | branch slots =>
      refine exact_branch hfanout (fun s hs hslot => ?_) (fun s hs top hslot => ?_) hsums
      · have := hnode s hs
        rwa [hslot, maps_none] at this
      · have := hnode s hs
        rw [hslot] at this
        exact Maps.exact hfanout hopens this

/-! ## Nodes within a tree -/

theorem Occurs.ne_none (h : Occurs fanout opens l f x level first ref) : ref ≠ none := by
  cases level with
  | zero => exact h.1 ▸ Option.some_ne_none x
  | succ level =>
    rcases h with ⟨rfl, -, -⟩ | ⟨top, -, -, rfl, -⟩
    · exact Option.some_ne_none x
    · exact Option.some_ne_none top

theorem Occurs.mono (hopens : ∀ level first top node, opens level first top node →
    opens' level first top node) (h : Occurs fanout opens l f x level first ref) :
    Occurs fanout opens' l f x level first ref := by
  induction level generalizing first ref with
  | zero => exact h
  | succ level ih =>
    rcases h with h | ⟨top, slots, s, rfl, hnode, hs, hslot⟩
    · exact .inl h
    · exact .inr ⟨top, slots, s, rfl, hopens _ _ _ _ hnode, hs, ih hslot⟩

/-- A node lies within the range of the tree it occurs in. -/
theorem Occurs.within (h : Occurs fanout opens l f x level first ref) :
    l ≤ level ∧ first ≤ f ∧ f + span fanout l ≤ first + span fanout level := by
  induction level generalizing first ref with
  | zero =>
    obtain ⟨-, rfl, rfl⟩ := h
    exact ⟨le_rfl, le_rfl, le_rfl⟩
  | succ level ih =>
    rcases h with ⟨-, rfl, rfl⟩ | ⟨top, slots, s, -, -, hs, hslot⟩
    · exact ⟨le_rfl, le_rfl, le_rfl⟩
    · obtain ⟨hlevel, hlow, hhigh⟩ := ih hslot
      have hend := slot_end_le first (span fanout level) hs
      rw [span_succ]
      exact ⟨by omega, by omega, by omega⟩

/-- A node of a tree that maps as `m` does maps as `m` does. -/
theorem Occurs.maps (functional : ∀ level first top node node', opens level first top node →
      opens level first top node' → node = node')
    (h : Occurs fanout opens l f x level first ref) (hm : Maps fanout opens m level first ref) :
    Maps fanout opens m l f (some x) := by
  induction level generalizing first ref with
  | zero =>
    obtain ⟨rfl, rfl, rfl⟩ := h
    exact hm
  | succ level ih =>
    rcases h with ⟨rfl, rfl, rfl⟩ | ⟨top, slots, s, rfl, hnode, hs, hslot⟩
    · exact hm
    · obtain ⟨slots', hnode', hslots⟩ := hm
      cases functional _ _ _ _ _ hnode hnode'
      exact ih hslot (hslots s hs)

end W9pt.Lib.Radix

import W9pt.Storage.Layout
import W9pt.Storage.Rewriting

/-!
# Rewriting a block map

`rewrite_tree` brings the old root down to the level of the new one, rewrites the node there and returns
the new root. Its callers ask for the lowest level that covers the result (`Rewrite.Fits`), and compare
what the root says with the counts of their plan (`validate_root_summary`).

`rewriting_correct` is about whole runs against a target to which others add objects: a rewrite of a map
that is stored returns a map of the result, or it is refused. `rewrite_drops_update` shows what happens to
an update that lies above the cutoff, which the layouts never ask for.

| here | there |
|---|---|
| `meets_rootAtLevel` | `root_at_level` (block_map.rs:413) |
| `meets_rewriteTree` | `rewrite_tree` (block_map.rs:373) |
| `IsSummary` | what a plan counts, `validate_root_summary` (block_split.rs:799) |
-/

namespace W9pt.Storage

open Lib Lib.Radix

variable {E : Type}

/-! ## The root -/

section Root

variable {r : Rewrite} {m : Nat → Option BlobRef} {may : Policy} {ledger : Ledger} {root : Option PageRef}
  {desired : Nat}

variable {level : Nat}

/-- The lowest level that covers a block. -/
theorem minimumRootLevel_eq_ok {highest : Nat} :
    minimumRootLevel highest = .ok level ↔
      level ≤ blockMapMaxLevel ∧ highest < span blockMapFanout level ∧
        ∀ l < level, span blockMapFanout l ≤ highest := by
  unfold minimumRootLevel
  simp only [← span_eq]
  cases hfind : (List.range (blockMapMaxLevel + 1)).find?
      fun level => decide (highest < span blockMapFanout level) with
  | none =>
    simp only [List.find?_eq_none, List.mem_range, decide_eq_true_eq] at hfind
    constructor
    · intro h
      cases h
    · rintro ⟨hlevel, hlt, -⟩
      exact absurd hlt (hfind level (Nat.lt_succ_of_le hlevel))
  | some found =>
    simp only [List.find?_range_eq_some, List.mem_range, decide_eq_true_eq, Bool.not_eq_true',
      decide_eq_false_iff_not, Nat.not_lt] at hfind
    obtain ⟨hlt, hmax, hfirst⟩ := hfind
    rw [Except.ok.injEq]
    constructor
    · rintro rfl
      exact ⟨Nat.le_of_lt_succ hmax, hlt, hfirst⟩
    · rintro ⟨-, hlevel, hbelow⟩
      rcases Nat.lt_trichotomy found level with h | h | h
      · exact absurd (hbelow found h) (Nat.not_le.2 hlt)
      · exact h
      · exact absurd (hfirst level h) (Nat.not_le.2 hlevel)

variable {view : View}

/-- A page that is not touched has a block of the result. -/
theorem exists_block_of_held (hsane : r.Sane m) {first : Nat} {old : Option PageRef} {l f : Nat}
    {x : PageRef} (hmaps : Maps blockMapFanout (opening (r.scope.Opens view)) m level first old)
    (hoccurs : Occurs blockMapFanout (opening (r.scope.Opens view)) l f x level first old)
    (huntouched : r.Untouched l f) : ∃ i, f ≤ i ∧ (r.result m i).isSome = true := by
  have hx := hoccurs.maps (opens_functional r.scope view) hmaps
  obtain ⟨i, hlow, hhigh, hsome⟩ := (exact_of_maps (r.scope.sound_opens view) hx).exists_block
  exact ⟨i, hlow, agree_untouched hsane huntouched.1 huntouched.2 i hlow hhigh ▸ hsome⟩

/-- The first child of a page and the pages under it. -/
theorem first_child {scope : MapScope} {reference : PageRef} {page : BlockMapPage}
    (hopens : scope.Opens view reference page)
    (hmaps : Maps blockMapFanout (opening (scope.Opens view)) m (level + 1) 0 (some reference)) :
    ∃ file first entries, page = .branch file (level + 1) first entries ∧
      opening (scope.Opens view) (level + 1) 0 reference (.branch fun s => entries.lookup s) ∧
      (∀ s < blockMapFanout, Maps blockMapFanout (opening (scope.Opens view)) m level
        (0 + s * span blockMapFanout level) (entries.lookup s)) ∧
      (∀ child, entries.lookup 0 = some child → ∃ rest, entries = (0, child) :: rest) := by
  obtain ⟨slots, hnode, hslots⟩ := hmaps
  obtain ⟨hrefLevel, -, page', hpage', hpageNode⟩ := id hnode
  cases hopens.unique hpage'
  obtain ⟨bytes, -, hin⟩ := hopens
  obtain ⟨-, hvalid, -, hlevel, -, -⟩ := hin.facts
  cases page with
  | leaf => cases hpageNode
  | branch file pageLevel first entries =>
    cases hpageNode
    obtain rfl : pageLevel = level + 1 := hlevel.trans hrefLevel
    refine ⟨file, first, entries, rfl, hnode, hslots, fun child hchild => ?_⟩
    obtain ⟨-, ⟨-, -, hsorted⟩, -⟩ := validatePage_branch.1 hvalid
    have hmem := (lookup_eq_some_iff hsorted).1 hchild
    cases entries with
    | nil => cases hmem
    | cons e rest =>
      rcases List.mem_cons.1 hmem with rfl | hrest
      · exact ⟨rest, rfl⟩
      · exact absurd ((List.pairwise_cons.1 hsorted).1 _ hrest) (Nat.not_lt_zero _)

/-- **`root_at_level` finds the old tree for the new root.** The pages that are not touched and fit
under the new root are under it. -/
theorem meets_rootAtLevel (hsane : r.Sane m)
    (hfit : ∀ i, span blockMapFanout desired ≤ i → r.result m i = none) {levels depth : Nat}
    {current : PageRef} (hlevels : current.level < levels)
    (hmaps : Maps blockMapFanout (opening (r.scope.Opens ledger.view)) m current.level 0 (some current))
    (hblank : ∀ i, span blockMapFanout current.level ≤ i → i < span blockMapFanout desired → m i = none) :
    Meets (r.scope.repository.onMap may)
      (fun old l => l = ledger ∧ Old (r.scope.Opens ledger.view) m desired 0 old ∧
        ∀ l f x, l ≤ desired → r.Untouched l f → Held (r.scope.Opens ledger.view) l f x (some current) →
          Held (r.scope.Opens ledger.view) l f x old)
      (fun e _ => e.Refusal)
      (r.scope.rootAtLevel desired levels current depth : MapProg E (Option PageRef)) ledger := by
  induction levels generalizing current depth with
  | zero => exact absurd hlevels (Nat.not_lt_zero _)
  | succ levels ih =>
    unfold MapScope.rootAtLevel
    split
    · rename_i hle
      refine ⟨rfl, ?_, fun l f x _ _ hx => hx⟩
      rcases Nat.lt_or_eq_of_le hle with hlt | heq
      · exact .lower rfl hlt hmaps hblank
      · exact .here (heq ▸ hmaps)
    · rename_i hnot
      obtain ⟨level, hlevel⟩ := Nat.exists_eq_succ_of_ne_zero (n := current.level) (by omega)
      have hfirst := (reference_of_maps (r.scope.sound_opens ledger.view) hmaps).2.1
      rw [hlevel] at hmaps
      have hspan : span blockMapFanout desired ≤ span blockMapFanout level :=
        span_mono fanout_pos (by omega)
      obtain ⟨node, ⟨-, -, page, hopens, -⟩, -⟩ := maps_some.1 hmaps
      obtain ⟨file, first, entries, rfl, hnode, hslots, hhead⟩ := first_child hopens hmaps
      -- a page that is kept lies in the first slot: another one has blocks above the new root
      have hkept : ∀ l f x, l ≤ desired → r.Untouched l f →
          Held (r.scope.Opens ledger.view) l f x (some current) →
          Occurs blockMapFanout (opening (r.scope.Opens ledger.view)) l f x level 0
            (entries.lookup 0) := by
        rintro l f x hl huntouched ⟨reference, hmem, hoccurs⟩
        cases hmem
        rw [hlevel, hfirst] at hoccurs
        rcases hoccurs with ⟨-, rfl, -⟩ | ⟨top, slots, s, htop, hnode', hs, hoccurs⟩
        · omega
        · cases htop
          cases opens_functional _ _ _ _ _ _ _ hnode hnode'
          obtain ⟨i, hlow, hsome⟩ := exists_block_of_held hsane (hslots s hs) hoccurs huntouched
          obtain ⟨-, hstart, -⟩ := hoccurs.within
          have hs0 : s = 0 := by
            by_contra hs0
            have hmul : 1 * span blockMapFanout level ≤ s * span blockMapFanout level :=
              Nat.mul_le_mul_right _ (Nat.one_le_iff_ne_zero.2 hs0)
            rw [hfit i (by omega)] at hsome
            cases hsome
          subst hs0
          simpa using hoccurs
      have hslot0 := hslots 0 fanout_pos
      rw [Nat.zero_mul, Nat.add_zero] at hslot0
      refine Meets.bind ((meets_loadPage hsane.bound hopens).mono ?_ fun e l he => he.1)
      rintro page l ⟨rfl, rfl⟩
      cases hchild : entries.lookup 0 with
      | some child =>
        obtain ⟨rest, rfl⟩ := hhead child hchild
        rw [hchild] at hslot0
        have hchildLevel := (reference_of_maps (r.scope.sound_opens l.view) hslot0).1
        refine (ih (by omega) (hchildLevel.symm ▸ hslot0) fun i hlow hhigh => ?_).imp ?_
        · rw [hchildLevel] at hlow
          omega
        · rintro old l' ⟨rfl, hold, hkeeps⟩
          refine ⟨rfl, hold, fun l f x hl huntouched hx => hkeeps l f x hl huntouched ?_⟩
          exact held_of_occurs (r.scope.sound_opens _) hslot0 (hchild ▸ hkept l f x hl huntouched hx)
      | none =>
        rw [hchild, maps_none] at hslot0
        have hend : Old (r.scope.Opens l.view) m desired 0 none ∧ ∀ l' f x, l' ≤ desired →
            r.Untouched l' f → Held (r.scope.Opens l.view) l' f x (some current) →
            Held (r.scope.Opens l.view) l' f x none :=
          ⟨.none (hslot0.sub (Nat.zero_le _) (by omega)), fun l' f x hl huntouched hx =>
            absurd hchild (hkept l' f x hl huntouched hx).ne_none⟩
        cases entries with
        | nil => exact ⟨rfl, hend⟩
        | cons e rest =>
          obtain ⟨s, child⟩ := e
          cases s with
          | zero => simp at hchild
          | succ s => exact ⟨rfl, hend⟩

theorem place_root (h : desired ≤ blockMapMaxLevel) : Place desired 0 := by
  refine ⟨h, Nat.zero_mod _, ?_⟩
  have hspan := span_mono fanout_pos h
  rw [Nat.zero_add]
  exact hspan.trans (by decide)

/-- The level asked for is the lowest that covers the result. -/
def Rewrite.Fits (r : Rewrite) (m : Nat → Option BlobRef) (desired : Nat) : Prop :=
  desired ≤ blockMapMaxLevel ∧
    ((∀ i, r.result m i = none) ∨ ∃ highest,
      IsGreatest {i | (r.result m i).isSome = true} highest ∧ minimumRootLevel highest = .ok desired)

theorem Rewrite.Fits.blank (h : r.Fits m desired) {i : Nat} (hi : span blockMapFanout desired ≤ i) :
    r.result m i = none := by
  rcases h.2 with hnone | ⟨highest, hgreatest, hlevel⟩
  · exact hnone i
  · obtain ⟨-, hlt, -⟩ := minimumRootLevel_eq_ok.1 hlevel
    rw [Option.eq_none_iff_forall_ne_some]
    intro blob hblob
    have hmem : (r.result m i).isSome = true := by rw [hblob]; rfl
    have := hgreatest.2 hmem
    omega

theorem mapOf_returns (hfits : r.Fits m desired) {new : Option PageRef}
    (h : Maps blockMapFanout (opening (r.Pages view)) (r.result m) desired 0 new) :
    MapOf (r.Pages view) new (r.result m) := by
  cases new with
  | none =>
    refine ⟨by simp, fun i _ => ?_, by simp⟩
    by_cases hi : span blockMapFanout desired ≤ i
    · exact hfits.blank hi
    · exact maps_none.1 h i (Nat.zero_le _) (by omega)
  | some reference =>
    obtain ⟨hlevel, -, -, -⟩ := reference_of_maps (sound_pages r view) h
    obtain ⟨-, hgreatest⟩ := exact_of_maps (sound_pages r view) h
    refine ⟨fun top htop => ?_, fun i hi => ?_, fun top htop => ?_⟩
    · cases htop
      exact hlevel.symm ▸ h
    · exact hfits.blank (hlevel ▸ hi reference rfl)
    · cases htop
      rw [hlevel]
      rcases hfits.2 with hnone | ⟨highest, hhighest, hminimum⟩
      · have := hgreatest.1.2.2
        rw [hnone] at this
        cases this
      · have hsame : reference.highestMaterializedBlock = highest := by
          refine le_antisymm (hhighest.2 hgreatest.1.2.2) (hgreatest.2 ⟨Nat.zero_le _, ?_, hhighest.1⟩)
          have := (minimumRootLevel_eq_ok.1 hminimum).2.1
          omega
        rw [hsame, hminimum]

/-- **`rewrite_tree` returns the map of the result**, or it is refused: under the lowest root, with every
old page that is not touched and fits under it. -/
theorem meets_rewriteTree (hsane : r.Sane m) (hmay : r.Permitted m may ledger.view) (hfits : r.Fits m desired)
    (hmap : MapOf (r.scope.Opens ledger.view) root m) :
    Meets (r.scope.repository.onMap may)
      (fun new l => ledger.Later l ∧ MapOf (r.Pages l.view) new (r.result m) ∧
        ∀ l' f x, l' ≤ desired → r.Untouched l' f → Held (r.scope.Opens ledger.view) l' f x root →
          Held (r.Pages l.view) l' f x new)
      (fun e _ => e.Refusal) (r.rewriteTree root desired : MapProg E (Option PageRef)) ledger := by
  have hlowered : Meets (r.scope.repository.onMap may)
      (fun old l => l = ledger ∧ Old (r.scope.Opens ledger.view) m desired 0 old ∧
        ∀ l f x, l ≤ desired → r.Untouched l f → Held (r.scope.Opens ledger.view) l f x root →
          Held (r.scope.Opens ledger.view) l f x old)
      (fun e _ => e.Refusal) (r.lowered root desired : MapProg E (Option PageRef)) ledger := by
    unfold Rewrite.lowered
    cases root with
    | none =>
      refine ⟨rfl, .none fun i _ _ => hmap.blank i (by simp), fun l f x _ _ hx => hx⟩
    | some reference =>
      have hmaps := hmap.maps reference rfl
      have hvalid := (reference_of_maps (r.scope.sound_opens ledger.view) hmaps).2.2.1
      refine meets_rootAtLevel hsane (fun i hi => hfits.blank hi) (Nat.lt_succ_of_le hvalid.level) hmaps
        fun i hi _ => hmap.blank i fun top htop => ?_
      cases htop
      exact hi
  refine Meets.bind (hlowered.imp ?_)
  rintro old l ⟨rfl, hold, hkeeps⟩
  refine (meets_rewriteNode hsane hmay (place_root hfits.1) hold).imp ?_
  rintro new l' ⟨hlater, hmaps, hkeep⟩
  exact ⟨hlater, mapOf_returns hfits hmaps, fun l f x hl huntouched hx =>
    hkeep l f x huntouched (hkeeps l f x hl huntouched hx)⟩

theorem MapOf.root_eq_none_iff {scope : MapScope} {pages : PageRef → BlockMapPage → Prop}
    (sound : scope.Sound pages) (h : MapOf pages root m) : root = none ↔ ∀ i, m i = none := by
  constructor
  · rintro rfl i
    exact h.blank i (by simp)
  · intro hnone
    cases root with
    | none => rfl
    | some reference =>
      obtain ⟨i, -, -, hi⟩ := (exact_of_maps sound (h.maps reference rfl)).exists_block
      rw [hnone i] at hi
      cases hi

/-- How many blocks a map has and the highest of them. -/
def IsSummary (m : Nat → Option BlobRef) (count : Nat) (highest : Option Nat) : Prop :=
  count = occupied m 0 mapDomain ∧
    match highest with
    | none => ∀ i, m i = none
    | some highest => IsGreatest {i | (m i).isSome = true} highest

/-- A map has one summary. -/
theorem IsSummary.unique {count count' : Nat} {highest highest' : Option Nat}
    (h : IsSummary m count highest) (h' : IsSummary m count' highest') :
    count = count' ∧ highest = highest' := by
  obtain ⟨hcount, hhighest⟩ := h
  obtain ⟨hcount', hhighest'⟩ := h'
  refine ⟨hcount.trans hcount'.symm, ?_⟩
  have hblank : ∀ {i}, (∀ i, m i = none) → ¬ IsGreatest {i | (m i).isSome = true} i := by
    intro i hnone hgreatest
    have hsome : (m i).isSome = true := hgreatest.1
    rw [hnone i] at hsome
    cases hsome
  cases highest with
  | none =>
    cases highest' with
    | none => rfl
    | some highest' => exact absurd hhighest' (hblank hhighest)
  | some highest =>
    cases highest' with
    | none => exact absurd hhighest (hblank hhighest')
    | some highest' => rw [hhighest.unique hhighest']

section

variable {scope : MapScope} {pages : PageRef → BlockMapPage → Prop} (sound : scope.Sound pages)

include sound

/-- **The root of a map says its summary.** -/
theorem MapOf.isSummary (h : MapOf pages root m) :
    IsSummary m (root.elim 0 PageRef.materializedBlockCount)
      (root.map PageRef.highestMaterializedBlock) := by
  cases root with
  | none =>
    have hnone := (h.root_eq_none_iff sound).1 rfl
    exact ⟨(occupied_eq_zero fun i _ _ => hnone i).symm, hnone⟩
  | some reference =>
    have hmaps := h.maps reference rfl
    obtain ⟨hexact, hgreatest⟩ := exact_of_maps sound hmaps
    have hvalid := (reference_of_maps sound hmaps).2.2.1
    have hbeyond : ∀ i, span blockMapFanout reference.level ≤ i → m i = none := fun i hi =>
      h.blank i fun top htop => by cases htop; exact hi
    have hspan : span blockMapFanout reference.level ≤ mapDomain := by
      have := (place_root hvalid.level).domain
      omega
    refine ⟨?_, hgreatest.1.2.2, fun i hi => ?_⟩
    · obtain ⟨rest, hrest⟩ := Nat.exists_eq_add_of_le hspan
      have hblank : Blank m (0 + span blockMapFanout reference.level) rest := fun i hlow _ =>
        hbeyond i (by omega)
      rw [Option.elim_some, hexact, hrest, occupied_add, occupied_eq_zero hblank, Nat.add_zero]
    · have hcover : i < span blockMapFanout reference.level := by
        by_contra hnot
        have hsome : (m i).isSome = true := hi
        rw [hbeyond i (by omega)] at hsome
        cases hsome
      exact hgreatest.2 ⟨Nat.zero_le _, by omega, hi⟩

/-- **`validate_root_summary` accepts the root of a map.** -/
theorem validateRootSummary_eq_ok (h : MapOf pages root m) {count : Nat} {highest : Option Nat}
    (hsummary : IsSummary m count highest) :
    (validateRootSummary root count highest : Except (StorageError E) Unit) = .ok () := by
  obtain ⟨hcount, hhighest⟩ := hsummary.unique (h.isSummary sound)
  subst hcount hhighest
  cases root with
  | none => exact ensure_of ⟨rfl, fun _ => rfl⟩
  | some reference => exact ensure_of ⟨rfl, fun hnone => by cases hnone⟩

end

end Root

/-! ## Runs -/

/-- How a run ended that a program over a map started with a budget. -/
def MapRun {α : Type} (repository : Repository) (x : Target.Recorded) (p : MapProg E α)
    (budget : MapBudget) (result : Except (StorageError E) (α × MapBudget)) (y : Target.Recorded) : Prop :=
  repository.Runs x (metered p budget) result y

/-- What a program over a map meets, its runs end with. -/
theorem MapRun.ends {α : Type} {repository : Repository} {x y : Target.Recorded}
    {p : MapProg E α} {budget : MapBudget}
    {result : Except (StorageError E) (α × MapBudget)} {R : α → Ledger → Prop}
    {F : StorageError E → Ledger → Prop}
    (hp : Meets (repository.onMap Policy.free) R F p (Ledger.of x))
    (hrun : MapRun repository x p budget result y) :
    EndsIn Ledger.Agrees (fun (r : α × MapBudget) l => R r.1 l) F result y :=
  Repository.Runs.ends (meets_metered hp) hrun

/-- What a rewrite of `m` returns with a root, in the target it leaves. -/
structure Rewrite.Correct (r : Rewrite) (m : Nat → Option BlobRef) (root : Option PageRef) (desired : Nat)
    (before after : View) (new : Option PageRef) : Prop where
  /-- The new pages map as the result says, under the lowest root. -/
  map : MapOf (r.Pages after) new (r.result m)
  /-- Every page says how many blocks are under it and which is the highest. -/
  exact : ∀ reference ∈ new, Maps blockMapFanout (fun level first page node =>
    opening (r.Pages after) level first page node ∧ Exact (r.result m) level first page)
    (r.result m) reference.level 0 new
  /-- There is a root just where there is a block. -/
  empty : new = none ↔ ∀ i, r.result m i = none
  /-- A page without updates and below the cutoff is kept if it fits under the new root. -/
  keeps : ∀ l f x, l ≤ desired → r.Untouched l f → Held (r.scope.Opens before) l f x root →
    Held (r.Pages after) l f x new
  /-- The root passes the check against the counts of the plan. -/
  summary : ∀ count highest, IsSummary (r.result m) count highest →
    (validateRootSummary new count highest : Except (StorageError Unit) Unit) = .ok ()

/-- **Map rewriting is correct.** A rewrite of a stored map that asks for the lowest level of its result
returns the map of the result: what it stores can be looked up, says the right counts, has no empty page
and keeps the old pages that there is no reason to touch. It fails only where a limit, a representation
or the target refuses it. -/
theorem rewriting_correct {r : Rewrite} {m : Nat → Option BlobRef} {root : Option PageRef}
    {desired : Nat} {budget : MapBudget} {x y : Target.Recorded}
    {result : Except (StorageError E) (Option PageRef × MapBudget)} (hsane : r.Sane m)
    (hfits : r.Fits m desired) (hmap : MapOf (r.scope.Opens x.1.view) root m)
    (hrun : MapRun r.scope.repository x (r.rewriteTree root desired) budget result y) :
    match result with
    | .error e => e.Refusal
    | .ok (new, _) => r.Correct m root desired x.1.view y.1.view new ∧
        (r.mode = .store → ∀ i budget' z found,
          MapRun r.scope.repository y (r.scope.lookup new [] i) budget' found z →
          match (found : Except (StorageError E) ((Option BlobRef × CursorPath) × MapBudget)) with
          | .error e => e.Refusal
          | .ok ((blob, _), _) => blob = r.result m i) := by
  have hpermitted : r.Permitted m Policy.free (Ledger.of x).view := fun _ _ _ _ _ _ _ _ => trivial
  have hends := hrun.ends (meets_rewriteTree hsane hpermitted hfits hmap)
  cases result with
  | error e =>
    obtain ⟨l, he, -⟩ := hends
    exact he
  | ok new =>
    obtain ⟨new, budget'⟩ := new
    obtain ⟨l, ⟨-, hnew, hkeeps⟩, hagrees⟩ := hends
    have hpages := pages_mono (r := r) hagrees.known
    have sound := sound_pages r y.1.view
    have hfinal := hnew.mono hpages
    refine ⟨⟨hfinal, fun reference hmem => maps_exact sound (hfinal.maps reference hmem),
      hfinal.root_eq_none_iff sound, fun l f x hl huntouched hx =>
        (hkeeps l f x hl huntouched hx).mono hpages,
      fun count highest hsummary => validateRootSummary_eq_ok sound hfinal hsummary⟩, ?_⟩
    intro hmode i budget' z found hfound
    -- what was stored can be opened, and `lookup` only reads
    have hstored : MapOf (r.scope.Opens (Ledger.of y).view) new (r.result m) :=
      hfinal.mono fun reference page hpage => hpage.resolve_right fun h => by
        rw [hmode] at h
        cases h.1
    have hlookup := hfound.ends
      (meets_lookup hsane.bound hstored (by simp) i)
    cases found with
    | error e =>
      obtain ⟨l, he, -⟩ := hlookup
      exact he.1
    | ok found =>
      obtain ⟨l, hfound, -⟩ := hlookup
      exact hfound.2.1

/-! ## Three rewrites -/

def sampleScope : MapScope := ⟨sampleRepository, .plainForFile ⟨1⟩ .blockSplit, ⟨1⟩⟩

def sampleIdentity : PreparationIdentity := ⟨⟨3⟩, ⟨0, 0⟩, 5⟩

def sampleBlob (i : Nat) : BlobRef :=
  ⟨sampleRepository.keys.blockPayload ⟨1⟩ sampleIdentity 0 i, blockSize, 40000, 5⟩

def sampleRewrite (updates : Updates) (cutoff : Option Nat) (attempt : UInt32) : Rewrite :=
  ⟨sampleScope, updates, cutoff, sampleIdentity, attempt, .store⟩

def sampleBudget : MapBudget := ⟨.standard, {}, 0, 0, 0⟩

def evalRewrite (r : Rewrite) (root : Option PageRef) (desired : Nat) (target : MemoryTarget) :
    Except (StorageError MemoryTargetError) (Option PageRef × MapBudget) × MemoryTarget :=
  sampleRepository.evalOn (metered (r.rewriteTree root desired) sampleBudget) target

def evalRoot (r : Rewrite) (root : Option PageRef) (desired : Nat) (target : MemoryTarget) :
    Option PageRef :=
  match (evalRewrite r root desired target).1 with
  | .ok (new, _) => new
  | .error _ => none

/-- A rewrite that succeeds on an in-memory target is a run. -/
theorem exists_mapRun (r : Rewrite) (root : Option PageRef) (desired : Nat) {target : MemoryTarget}
    {x : Target.Recorded} (h : target.Models x.1)
    (hcounting : (evalRewrite r root desired target).2.Counting)
    (hok : (evalRewrite r root desired target).1.toBool = true) :
    ∃ y budget', MapRun sampleRepository x
        (r.rewriteTree root desired : MapProg MemoryTargetError (Option PageRef)) sampleBudget
        (.ok (evalRoot r root desired target, budget')) y ∧
      (evalRewrite r root desired target).2.Models y.1 := by
  obtain ⟨y, hrun, hmodels⟩ := Repository.runs_evalOn (metered (r.rewriteTree root desired) sampleBudget) h
    hcounting
  refine ⟨y, ?_⟩
  unfold evalRoot
  cases hr : (evalRewrite r root desired target).1 with
  | error e =>
    rw [hr] at hok
    cases hok
  | ok new =>
    unfold evalRewrite at hr
    rw [hr] at hrun
    exact ⟨new.2, hrun, hmodels⟩

theorem block_sampleBlob {i : Nat} (hi : i < 2 ^ 64) : sampleScope.Block i (sampleBlob i) where
  valid := by
    have hkey : (sampleBlob i).key.text.length ≤ sampleRepository.limits.maxKeyBytes :=
      length_objectKey_le sampleRepository sampleScope.context ⟨1⟩ (.blockPayload sampleIdentity 0 i)
    have hlen : blockSize ≠ 0 ∧ payloadMinStoredBytes ≤ 40000 ∧
        40000 ≤ sampleRepository.limits.maxObjectBytes := by decide +kernel
    exact validateBlob_eq_ok.2 ⟨checkedKeyLength_eq_ok.2 ⟨hkey, hkey.trans_lt (by decide +kernel)⟩, hlen⟩
  length := rfl
  digest := by
    have hdigest : (5 : Digest) ≠ sampleCrypto.blake3 (List.replicate blockSize 0) := by decide +kernel
    exact hdigest
  named := KeySpace.validateBlockPayload_blockPayload hi

theorem mapOf_none (pages : PageRef → BlockMapPage → Prop) : MapOf pages none fun _ => none :=
  ⟨by simp, fun _ _ => rfl, by simp⟩

/-- Block 200 is written while the map is cut off at block 100. -/
def cutRewrite : Rewrite := sampleRewrite [(200, some (sampleBlob 200))] (some 100) 0

/-- **An update above the cutoff is dropped.** Block 200 is written while the map is cut off at block
100: the rewrite for the lowest level that covers block 200 returns no root at all. -/
theorem rewrite_drops_update : ∃ (r : Rewrite) (blob : BlobRef) (x y : Target.Recorded)
    (budget budget' : MapBudget), r.updates = [(200, some blob)] ∧ r.cutoff = some 100 ∧
      r.scope.Block 200 blob ∧ MapOf (r.scope.Opens x.1.view) none (fun _ => none) ∧
      minimumRootLevel 200 = .ok 1 ∧
      MapRun r.scope.repository x (r.rewriteTree none 1 : MapProg MemoryTargetError (Option PageRef))
        budget (.ok (none, budget')) y ∧
      r.result (fun _ => none) 200 = some blob ∧
      ¬ MapOf (r.Pages y.1.view) none (r.result fun _ => none) := by
  have hresult : cutRewrite.result (fun _ => none) 200 = some (sampleBlob 200) := rfl
  have hroot : evalRoot cutRewrite none 1 .new = none := by decide +kernel
  obtain ⟨y, budget', hrun, -⟩ := exists_mapRun cutRewrite none 1 (x := (Target.empty, []))
    MemoryTarget.models_new (by decide +kernel) (by decide +kernel)
  rw [hroot] at hrun
  refine ⟨cutRewrite, sampleBlob 200, _, y, _, budget', rfl, rfl, block_sampleBlob (by decide),
    mapOf_none _, by decide +kernel, hrun, hresult, fun hmap => ?_⟩
  have hblank := hmap.blank 200 (by simp)
  rw [hresult] at hblank
  cases hblank

theorem sane_sampleRewrite {updates : Updates} {cutoff : Option Nat} {attempt : UInt32}
    {m : Nat → Option BlobRef} (sorted : updates.Pairwise fun a b => a.1 < b.1)
    (blocks : ∀ u ∈ updates, u.1 < 2 ^ 64 ∧ cutoff.all (u.1 < ·) = true ∧
      ∀ blob ∈ u.2, blob = sampleBlob u.1) : (sampleRewrite updates cutoff attempt).Sane m where
  bound := rfl
  lawful := sampleCrypto_lawful
  keys := fun level first => by
    have hbound : sampleRepository.limits.maxKeyBytes < 2 ^ 32 := by decide +kernel
    exact (length_objectKey_le sampleRepository _ _ _).trans_lt hbound
  sorted := sorted
  blocks := by
    intro i blob hmem
    obtain ⟨hi, -, hblob⟩ := blocks _ hmem
    rw [hblob blob rfl]
    exact block_sampleBlob hi
  below := fun i blob hmem => (blocks _ hmem).2.1
  count := by
    have hdomain : mapDomain ≤ sampleRepository.limits.maxMaterializedBlocks := by decide +kernel
    exact (occupied_le_width _ _ _).trans hdomain

/-- Blocks 0 and 200 are written into an empty map. -/
def firstRewrite : Rewrite :=
  sampleRewrite [(0, some (sampleBlob 0)), (200, some (sampleBlob 200))] none 0

/-- Block 0 is removed, block 1 is written and the map is cut off at block 100. -/
def secondRewrite : Rewrite := sampleRewrite [(0, none), (1, some (sampleBlob 1))] (some 100) 1

def firstMap : Nat → Option BlobRef := firstRewrite.result fun _ => none

def firstTarget : MemoryTarget := (evalRewrite firstRewrite none 1 .new).2

def firstRoot : Option PageRef := evalRoot firstRewrite none 1 .new

theorem firstMap_eq_none {i : Nat} (h₀ : i ≠ 0) (h₁ : i ≠ 200) : firstMap i = none := by
  simp [firstMap, firstRewrite, sampleRewrite, Rewrite.result, List.lookup_cons, beq_false_of_ne h₀,
    beq_false_of_ne h₁]

theorem fits_firstRewrite : firstRewrite.Fits (fun _ => none) 1 := by
  refine ⟨by decide, .inr ⟨200, ⟨rfl, fun i hi => ?_⟩, by decide +kernel⟩⟩
  by_contra hgreater
  have hnone : firstRewrite.result (fun _ => none) i = none :=
    firstMap_eq_none (by omega) (by omega)
  rw [Set.mem_ofPred_eq, hnone] at hi
  cases hi

theorem fits_secondRewrite : secondRewrite.Fits firstMap 0 := by
  refine ⟨by decide, .inr ⟨1, ⟨rfl, fun i hi => ?_⟩, by decide +kernel⟩⟩
  by_contra hgreater
  have hnone : secondRewrite.result firstMap i = none := by
    have h₀ : i ≠ 0 := by omega
    have h₁ : i ≠ 1 := by omega
    simp only [secondRewrite, sampleRewrite, Rewrite.result, List.lookup_cons, beq_false_of_ne h₀,
      beq_false_of_ne h₁, List.lookup_nil, Option.all_some, decide_eq_true_eq]
    split
    · exact firstMap_eq_none h₀ (by omega)
    · rfl
  rw [Set.mem_ofPred_eq, hnone] at hi
  cases hi

/-- Blocks 0 and 200 are stored under a root of level 1. Then block 0 is removed, block 1 written and the
map cut off at block 100: the new root has level 0 and one block. -/
theorem rewriting_correct_shrinks : ∃ (x y z : Target.Recorded) (first second : PageRef)
    (budget' budget'' : MapBudget),
    MapRun sampleRepository x
      (firstRewrite.rewriteTree none 1 : MapProg MemoryTargetError (Option PageRef)) sampleBudget
      (.ok (some first, budget')) y ∧
    MapRun sampleRepository y
      (secondRewrite.rewriteTree (some first) 0 : MapProg MemoryTargetError (Option PageRef))
      sampleBudget (.ok (some second, budget'')) z ∧
    first.level = 1 ∧ second.level = 0 ∧ second.materializedBlockCount = 1 ∧
    secondRewrite.Correct firstMap (some first) 0 y.1.view z.1.view (some second) := by
  have hfirst : firstTarget.Counting ∧ (evalRewrite firstRewrite none 1 .new).1.toBool = true ∧
      firstRoot.map PageRef.level = some 1 := by decide +kernel
  obtain ⟨first, hroot, hlevel⟩ := Option.map_eq_some_iff.1 hfirst.2.2
  have hsecond : (evalRewrite secondRewrite firstRoot 0 firstTarget).2.Counting ∧
      (evalRewrite secondRewrite firstRoot 0 firstTarget).1.toBool = true ∧
      (evalRoot secondRewrite firstRoot 0 firstTarget).map
        (fun page => (page.level, page.materializedBlockCount)) = some (0, 1) := by decide +kernel
  obtain ⟨second, hroot', hpage⟩ := Option.map_eq_some_iff.1 hsecond.2.2
  obtain ⟨y, budget', hrun, hmodels⟩ := exists_mapRun firstRewrite none 1 (x := (Target.empty, []))
    MemoryTarget.models_new hfirst.1 hfirst.2.1
  have hsane : firstRewrite.Sane fun _ => none := sane_sampleRewrite (by decide) (by simp)
  obtain ⟨hcorrect, -⟩ := rewriting_correct hsane fits_firstRewrite (mapOf_none _) hrun
  -- the second rewrite starts from what the first has stored
  have hstored : MapOf (secondRewrite.scope.Opens y.1.view) firstRoot firstMap :=
    hcorrect.map.mono fun reference page hpage => hpage.resolve_right fun h => by cases h.1
  obtain ⟨z, budget'', hrun', -⟩ := exists_mapRun secondRewrite firstRoot 0 hmodels hsecond.1 hsecond.2.1
  have hsane' : secondRewrite.Sane firstMap := sane_sampleRewrite (by decide) (by simp)
  obtain ⟨hcorrect', -⟩ := rewriting_correct hsane' fits_secondRewrite hstored hrun'
  rw [show evalRoot firstRewrite none 1 .new = some first from hroot] at hrun
  rw [hroot] at hrun' hcorrect' hroot'
  rw [show (evalRewrite firstRewrite none 1 .new).2 = firstTarget from rfl, hroot'] at hrun' hcorrect'
  exact ⟨_, y, z, first, second, budget', budget'', hrun, hrun', hlevel, congrArg Prod.fst hpage,
    congrArg Prod.snd hpage, hcorrect'⟩

end W9pt.Storage

import W9pt.Storage.Tree

/-!
# Rewriting the pages of a block map

`rewrite_tree` merges updates into a map, cuts it off, recomputes the summaries, drops empty pages and
moves the root up or down, in one recursion. `Rewrite.result` is the map that it is for: the update where
there is one, the old block below the cutoff, nothing else. The proof follows the recursion: what
`rewrite_node` returns maps as `result` does on its range and keeps every page of the old tree that lies
outside the updates and below the cutoff (`Returns`), given that its children do.

A rewrite reads only the old map. In `Store` mode the pages it returns are stored; in `Preflight` mode
they are those it would store (`Rewrite.Pages`).
-/

namespace W9pt.Storage

open Lib Lib.Radix

variable {E : Type}

/-! ## The rewritten map -/

namespace Rewrite

variable (r : Rewrite)

def result (m : Nat → Option BlobRef) (i : Nat) : Option BlobRef :=
  match r.updates.lookup i with
  | some update => update
  | none => if r.cutoff.all (i < ·) then m i else none

/-- A page at level `l` from block `f` on that the rewrite has no reason to touch. -/
def Untouched (l f : Nat) : Prop :=
  r.updates.range f (f + span blockMapFanout l) = [] ∧
    r.cutoff.all (f + span blockMapFanout l ≤ ·) = true

/-- The pages behind references after a rewrite: the stored ones and, before anything is stored, the ones
it would store. -/
def Pages (view : View) (reference : PageRef) (page : BlockMapPage) : Prop :=
  r.scope.Opens view reference page ∨
    r.mode = .preflight ∧ ∃ stored, r.scope.PageIn reference stored page ∧
      r.scope.repository.PageObject r.scope.context page r.identity r.attempt reference stored

end Rewrite

/-- A reference to a block that a leaf can hold. -/
structure MapScope.Block (scope : MapScope) (i : Nat) (blob : BlobRef) : Prop where
  valid : validateBlob blob scope.repository.limits = .ok ()
  length : blob.plaintextLen = blockSize
  digest : blob.digest ≠ scope.repository.crypto.blake3 (List.replicate blockSize 0)
  named : scope.repository.NamesBlock scope.context scope.fileId i blob.key

/-- A rewrite of `m` as the layouts call it: the keys of the new pages are short enough to be written, the
updates are a map of blocks, none is written above the cutoff, and no more blocks are left than the limits
permit. -/
structure Rewrite.Sane (r : Rewrite) (m : Nat → Option BlobRef) : Prop where
  bound : r.scope.Bound
  lawful : r.scope.repository.crypto.Lawful
  keys : ∀ level first, (r.scope.repository.objectKey r.scope.context r.scope.fileId
    (.mapPage r.identity r.attempt level first)).text.length < 2 ^ 32
  sorted : r.updates.Pairwise fun a b => a.1 < b.1
  blocks : ∀ i blob, (i, some blob) ∈ r.updates → r.scope.Block i blob
  below : ∀ i blob, (i, some blob) ∈ r.updates → r.cutoff.all (i < ·) = true
  count : occupied (r.result m) 0 mapDomain ≤ r.scope.repository.limits.maxMaterializedBlocks

section Result

variable {r : Rewrite} {m : Nat → Option BlobRef} {first finish i : Nat}

/-- Within a range, its updates are all that matter. -/
theorem lookup_range {updates : Updates} (hsorted : updates.Pairwise fun a b => a.1 < b.1)
    (hlow : first ≤ i) (hhigh : i < finish) :
    (updates.range first finish).lookup i = updates.lookup i := by
  have hrange : (updates.range first finish).Pairwise fun a b => a.1 < b.1 :=
    hsorted.sublist List.filter_sublist
  refine Option.ext fun update => ?_
  rw [lookup_eq_some_iff hrange, lookup_eq_some_iff hsorted, Updates.range, List.mem_filter]
  simp [hlow, hhigh]

theorem range_nil_lookup {updates : Updates} (hsorted : updates.Pairwise fun a b => a.1 < b.1)
    (h : updates.range first finish = []) (hlow : first ≤ i) (hhigh : i < finish) :
    updates.lookup i = none := by
  rw [← lookup_range hsorted hlow hhigh, h]
  rfl

theorem result_above (hsane : r.Sane m) {cutoff : Nat} (hcutoff : r.cutoff = some cutoff)
    (hi : cutoff ≤ i) : r.result m i = none := by
  unfold Rewrite.result
  have hall : r.cutoff.all (i < ·) = false := by simp [hcutoff, hi]
  cases hupdate : r.updates.lookup i with
  | none => simp [hall]
  | some update =>
    cases update with
    | none => rfl
    | some blob =>
      have := hsane.below i blob ((lookup_eq_some_iff hsane.sorted).1 hupdate)
      rw [hall] at this
      cases this

theorem blank_above (hsane : r.Sane m) (h : r.cutoff.any (· ≤ first) = true) (width : Nat) :
    Blank (r.result m) first width := by
  cases hcutoff : r.cutoff with
  | none => simp [hcutoff] at h
  | some cutoff =>
    have hle : cutoff ≤ first := by simpa [hcutoff] using h
    exact fun i hlow _ => result_above hsane hcutoff (hle.trans hlow)

/-- Away from the updates and below the cutoff nothing changes. -/
theorem agree_untouched (hsane : r.Sane m) {width : Nat}
    (hupdates : r.updates.range first (first + width) = [])
    (hcutoff : r.cutoff.all (first + width ≤ ·) = true) : AgreeOn m (r.result m) first width := by
  intro i hlow hhigh
  unfold Rewrite.result
  rw [range_nil_lookup hsane.sorted hupdates hlow hhigh]
  cases hc : r.cutoff with
  | none => simp
  | some cutoff =>
    rw [hc] at hcutoff
    have : first + width ≤ cutoff := by simpa using hcutoff
    simp
    omega

end Result

/-! ## Emitting a page -/

section Pages

variable {r : Rewrite} {view view' : View}

theorem pages_mono (h : View.Extends view view') (reference : PageRef) (page : BlockMapPage)
    (hpage : r.Pages view reference page) : r.Pages view' reference page :=
  hpage.imp_left fun hopens => hopens.mono h

theorem sound_pages (r : Rewrite) (view : View) : r.scope.Sound (r.Pages view) := by
  rintro reference page (⟨bytes, -, hin⟩ | ⟨-, stored, hin, -⟩)
  · exact ⟨bytes, hin⟩
  · exact ⟨stored, hin⟩

/-- The stores of a rewrite of `m` are permitted from now on. -/
def Rewrite.Permitted (r : Rewrite) (m : Nat → Option BlobRef) (may : Policy) (now : View) : Prop :=
  ∀ view page reference stored, View.Extends now view →
    r.scope.repository.PageObject r.scope.context page r.identity r.attempt reference stored →
    r.scope.PageIn reference stored page →
    NodeMaps blockMapFanout (opening (r.Pages view)) (r.result m) page.level page.firstBlock page.node →
    may view reference.key stored

theorem Rewrite.Permitted.mono {m : Nat → Option BlobRef} {may : Policy} (h : r.Permitted m may view)
    (hview : View.Extends view view') : r.Permitted m may view' :=
  fun later page reference stored hlater => h later page reference stored (hview.trans hlater)

variable {m : Nat → Option BlobRef} {may : Policy} {ledger : Ledger} {old : Option PageRef}
  {oldPage : Option BlockMapPage} {page : BlockMapPage}

/-- What a rewrite returns for a page that maps as the result does. -/
theorem meets_emit (hsane : r.Sane m) (hmay : r.Permitted m may ledger.view)
    (hne : oldPage ≠ some page) (hfile : page.fileId = r.scope.fileId)
    (hvalid : validatePage r.scope.repository.crypto page r.scope.repository.limits = .ok ())
    (hnamed : r.scope.repository.NamesChildren r.scope.context page)
    (hnode : NodeMaps blockMapFanout (opening (r.Pages ledger.view)) (r.result m) page.level
      page.firstBlock page.node) :
    Meets (r.scope.repository.onMap may)
      (fun root l => ledger.Later l ∧ ∃ reference, root = some reference ∧
        r.Pages l.view reference page ∧ reference.level = page.level ∧
        reference.firstBlock = page.firstBlock)
      (fun e _ => e.Refusal) (r.emit old oldPage page : MapProg E (Option PageRef)) ledger := by
  obtain ⟨count, highest, hsummary⟩ := exists_summary hvalid
  have hdomain : page.firstBlock + span blockMapFanout page.level ≤ mapDomain := by
    rw [span_eq]
    exact (summary_summarizes hvalid hsummary).domain
  have hcount : count ≤ r.scope.repository.limits.maxMaterializedBlocks := by
    obtain ⟨hexact, -⟩ := hnode.exact fanout_pos (sound_pages r _).summarized
      (sums_of_summary hvalid hsummary)
    rw [hexact]
    exact (occupied_le (Nat.zero_le _) (by omega)).trans hsane.count
  have hin : ∀ {reference : PageRef} {stored : Bytes},
      (r.scope.repository.expectedMapPage r.scope.context page r.identity r.attempt :
        Except (StorageError E) _) = .ok (reference, stored) →
      r.scope.repository.PageObject r.scope.context page r.identity r.attempt reference stored ∧
      r.scope.PageIn reference stored page := by
    intro reference stored h
    have hobject := pageObject_of_expectedMapPage h
    obtain ⟨canonical, count', highest', -, hsummary', -, href⟩ := hobject
    rw [hsummary] at hsummary'
    cases hsummary'
    have hkey : reference.key.text.length < 2 ^ 32 := by
      rw [href, hfile]
      exact hsane.keys _ _
    refine ⟨pageObject_of_expectedMapPage h, pageIn_expectedMapPage hsane.lawful h hfile hkey ?_ hnamed⟩
    rw [href]
    exact hcount
  have hrefuse : OnlyFails StorageError.Refusal (r.scope.repository.expectedMapPage r.scope.context page
      r.identity r.attempt : Except (StorageError E) (PageRef × Bytes)) :=
    refusal_expectedMapPage hsane.lawful hvalid hsummary
  unfold Rewrite.emit
  rw [if_neg hne]
  refine Meets.bind (meets_chargeWrite ?_ fun _ => trivial)
  cases hmode : r.mode with
  | preflight =>
    refine Meets.lift_bind ?_ fun e he => hrefuse e he
    rintro ⟨reference, stored⟩ h
    obtain ⟨hobject, hpage⟩ := hin h
    obtain ⟨-, -, -, hlevel, hfirst, -⟩ := hpage.facts
    exact ⟨Ledger.Later.refl _, reference, rfl, .inr ⟨hmode, stored, hpage, hobject⟩, hlevel.symm,
      hfirst.symm⟩
  | store =>
    refine Meets.bind (meets_onObjects (Meets.lift_bind ?_ fun e he => hrefuse e he))
    rintro ⟨reference, stored⟩ h
    obtain ⟨hobject, hpage⟩ := hin h
    obtain ⟨href, -, -, hlevel, hfirst, -⟩ := hpage.facts
    have hlength : stored.length ≤ r.scope.repository.limits.maxObjectBytes := by
      rw [hpage.length]
      exact href.encodedLen.trans r.scope.repository.limits.consistent.2.1
    refine Meets.bind (meets_query ⟨hmay _ _ _ _ (View.Extends.refl _) hobject hpage hnode, hlength⟩ ?_
      fun e l he => he.1.refusal)
    rintro _ l ⟨hsame, rfl⟩
    exact ⟨Ledger.later_put hsame, reference, rfl, .inl ⟨stored, Ledger.view_put_self _ _ _, hpage⟩,
      hlevel.symm, hfirst.symm⟩

end Pages

/-! ## Leaves -/

section Leaves

variable {r : Rewrite} {m : Nat → Option BlobRef} {firstBlock : Nat}

/-- The loop over the updates of a leaf. -/
theorem foldlM_updates {updates : Updates} (hsorted : updates.Pairwise fun a b => a.1 < b.1)
    (hcovers : ∀ u ∈ updates, PageContains 0 firstBlock u.1) (kept : Nat → Option BlobRef) :
    (updates.foldlM (fun slots update => do
        let slot ← fromFormat (pageSlot 0 firstBlock update.1)
        return Function.update slots slot update.2) kept : Except (StorageError E) _) =
      .ok fun s => match updates.lookup (firstBlock + s) with
        | some update => update
        | none => kept s := by
  induction updates generalizing kept with
  | nil => rfl
  | cons u updates ih =>
    obtain ⟨hfirst, hrest⟩ := List.pairwise_cons.1 hsorted
    have hcover := hcovers u (by simp)
    have hlow : firstBlock ≤ u.1 := hcover.2.2.1
    have hstep : (do
        let slot ← fromFormat (pageSlot 0 firstBlock u.1)
        return Function.update kept slot u.2 : Except (StorageError E) _) =
          .ok (Function.update kept ((u.1 - firstBlock) / slotCoverage 0) u.2) := by
      rw [pageSlot_of_covers hcover]
      rfl
    rw [List.foldlM_cons, hstep, ok_bind, ih hrest fun u' hu' => hcovers u' (by simp [hu'])]
    congr 1
    funext s
    rw [List.lookup_cons]
    by_cases hs : firstBlock + s = u.1
    · have hnone : updates.lookup (firstBlock + s) = none := by
        rw [Option.eq_none_iff_forall_ne_some]
        intro update hupdate
        have := hfirst _ ((lookup_eq_some_iff hrest).1 hupdate)
        omega
      have hslot : s = (u.1 - firstBlock) / slotCoverage 0 := by
        simp only [slotCoverage, Nat.mul_zero, pow_zero, Nat.div_one]
        omega
      rw [hnone, hs]
      simp [← hslot]
    · have hslot : s ≠ (u.1 - firstBlock) / slotCoverage 0 := by
        simp only [slotCoverage, Nat.mul_zero, pow_zero, Nat.div_one]
        omega
      have hbeq : (firstBlock + s == u.1) = false := by simpa using hs
      rw [hbeq, Function.update_of_ne hslot]

/-- The entries of the old leaf at a place. -/
def leafEntries : Option BlockMapPage → List (Nat × BlobRef)
  | some (.leaf _ _ entries) => entries
  | _ => []

/-- **The slots of the new leaf are those of the result.** -/
theorem leafSlots_eq (hsane : r.Sane m) {oldPage : Option BlockMapPage}
    (hleaf : ∀ page ∈ oldPage, page.level = 0 ∧
      validatePage r.scope.repository.crypto page r.scope.repository.limits = .ok ())
    (hdomain : firstBlock + span blockMapFanout 0 ≤ mapDomain)
    (hold : ∀ s < blockMapFanout, m (firstBlock + s) = (leafEntries oldPage).lookup s) :
    ∃ slots, (r.leafSlots firstBlock (firstBlock + span blockMapFanout 0) oldPage :
        Except (StorageError E) _) = .ok slots ∧
      ∀ s < blockMapFanout, slots s = r.result m (firstBlock + s) := by
  have hcovers : ∀ u ∈ r.updates.range firstBlock (firstBlock + span blockMapFanout 0),
      PageContains 0 firstBlock u.1 := by
    intro u hu
    have hu := (List.mem_filter.1 hu).2
    rw [span_eq] at hu hdomain
    exact ⟨by decide, coverage_lt hdomain, by simpa using hu⟩
  have hsorted : (r.updates.range firstBlock (firstBlock + span blockMapFanout 0)).Pairwise
      fun a b => a.1 < b.1 := hsane.sorted.sublist List.filter_sublist
  have hfold := foldlM_updates (E := E) hsorted hcovers fun slot =>
    if r.cutoff.all (firstBlock + slot < ·) then (leafEntries oldPage).lookup slot else none
  have hslots : ∀ s < blockMapFanout,
      (match (r.updates.range firstBlock (firstBlock + span blockMapFanout 0)).lookup (firstBlock + s) with
        | some update => update
        | none => if r.cutoff.all (firstBlock + s < ·) then (leafEntries oldPage).lookup s else none) =
      r.result m (firstBlock + s) := by
    intro s hs
    rw [lookup_range hsane.sorted (by omega) (by rw [span_zero]; omega), ← hold s hs]
    rfl
  cases oldPage with
  | none => exact ⟨_, hfold, hslots⟩
  | some page =>
    cases page with
    | leaf file first entries => exact ⟨_, hfold, hslots⟩
    | branch file level first entries =>
      obtain ⟨hlevel, hvalid⟩ := hleaf _ rfl
      exact absurd hlevel (validatePage_branch.1 hvalid).1.2.1

end Leaves

/-! ## What a rewrite starts from and what it returns -/

/-- The old tree at a place: none, the page of the place, or a root that is too low for it. -/
inductive Old (pages : PageRef → BlockMapPage → Prop) (m : Nat → Option BlobRef) (level first : Nat) :
    Option PageRef → Prop where
  | none : Blank m first (span blockMapFanout level) → Old pages m level first none
  | here {reference : PageRef} :
      Maps blockMapFanout (opening pages) m level first (some reference) →
      Old pages m level first (some reference)
  | lower {reference : PageRef} : first = 0 → reference.level < level →
      Maps blockMapFanout (opening pages) m reference.level 0 (some reference) →
      (∀ i, span blockMapFanout reference.level ≤ i → i < span blockMapFanout level → m i = none) →
      Old pages m level first (some reference)

/-- The page `x` at level `l`, from block `f` on, is one of those under `root`. -/
def Held (pages : PageRef → BlockMapPage → Prop) (l f : Nat) (x : PageRef) (root : Option PageRef) : Prop :=
  ∃ reference ∈ root,
    Occurs blockMapFanout (opening pages) l f x reference.level reference.firstBlock root

/-- The tree returned for a place maps as the result does and keeps every old page that there is no
reason to touch. -/
structure Rewrite.Returns (r : Rewrite) (m : Nat → Option BlobRef) (known : View) (level first : Nat)
    (old root : Option PageRef) (view : View) : Prop where
  maps : Maps blockMapFanout (opening (r.Pages view)) (r.result m) level first root
  keeps : ∀ l f x, r.Untouched l f → Held (r.scope.Opens known) l f x old → Held (r.Pages view) l f x root

section Places

variable {r : Rewrite} {m : Nat → Option BlobRef} {known view view' : View} {level first : Nat}
  {old root : Option PageRef}

theorem Held.mono {pages pages' : PageRef → BlockMapPage → Prop}
    (h : ∀ reference page, pages reference page → pages' reference page) {l f : Nat} {x : PageRef}
    (hx : Held pages l f x root) : Held pages' l f x root := by
  obtain ⟨reference, hmem, hoccurs⟩ := hx
  exact ⟨reference, hmem, hoccurs.mono (opening_mono h)⟩

theorem Rewrite.Returns.mono (h : r.Returns m known level first old root view)
    (hview : View.Extends view view') : r.Returns m known level first old root view' :=
  ⟨h.maps.mono (opening_mono (pages_mono hview)),
    fun l f x hx hold => (h.keeps l f x hx hold).mono (pages_mono hview)⟩

theorem Old.place {scope : MapScope} {reference : PageRef}
    (h : Old (scope.Opens known) m level first (some reference)) :
    reference.firstBlock = first ∧ reference.level ≤ level ∧
      reference.Valid scope.repository.limits := by
  cases h with
  | here hmaps =>
    obtain ⟨hlevel, hfirst, hvalid, -⟩ := reference_of_maps (scope.sound_opens known) hmaps
    exact ⟨hfirst, hlevel.le, hvalid⟩
  | lower hzero hlevel hmaps _ =>
    obtain ⟨-, hfirst, hvalid, -⟩ := reference_of_maps (scope.sound_opens known) hmaps
    exact ⟨hfirst.trans hzero.symm, hlevel.le, hvalid⟩

theorem Old.within {scope : MapScope} (h : Old (scope.Opens known) m level first old) {l f : Nat}
    {x : PageRef} (hx : Held (scope.Opens known) l f x old) :
    l ≤ level ∧ first ≤ f ∧ f + span blockMapFanout l ≤ first + span blockMapFanout level := by
  obtain ⟨reference, hmem, hoccurs⟩ := hx
  obtain rfl : old = some reference := hmem
  obtain ⟨hfirst, hle, -⟩ := h.place
  obtain ⟨hl, hlow, hhigh⟩ := hoccurs.within
  have hspan := span_mono fanout_pos hle
  exact ⟨hl.trans hle, hfirst ▸ hlow, by omega⟩

/-- A page above the cutoff is touched. -/
theorem not_untouched_above {l f : Nat} (h : r.cutoff.any (· ≤ first) = true) (hlow : first ≤ f) :
    ¬ r.Untouched l f := by
  rintro ⟨-, hall⟩
  have hpos := span_pos fanout_pos l
  cases hcutoff : r.cutoff with
  | none => simp [hcutoff] at h
  | some cutoff =>
    simp only [hcutoff, Option.any_some, Option.all_some, decide_eq_true_eq] at h hall
    omega

/-- **What is returned without looking at a page is right.** -/
theorem returns_of_shortcut (hsane : r.Sane m) (hold : Old (r.scope.Opens known) m level first old)
    (hview : View.Extends known view)
    (h : r.shortcut level first (first + span blockMapFanout level) old = some root) :
    r.Returns m known level first old root view := by
  have hpages : ∀ reference page, r.scope.Opens known reference page → r.Pages view reference page :=
    fun reference page hpage => .inl (hpage.mono hview)
  unfold Rewrite.shortcut at h
  split at h
  · rename_i habove
    cases h
    refine ⟨maps_none.2 (blank_above hsane habove _), fun l f x huntouched hx => ?_⟩
    exact absurd huntouched (not_untouched_above habove (hold.within hx).2.1)
  · split at h
    · rename_i huntouched
      have hagree := agree_untouched hsane huntouched.1 huntouched.2
      cases hold with
      | none hblank =>
        cases h
        exact ⟨maps_none.2 (hblank.congr hagree), fun l f x _ hx => hx.mono hpages⟩
      | @here reference hmaps =>
        obtain ⟨hlevel, hfirst, -, -⟩ := reference_of_maps (r.scope.sound_opens known) hmaps
        have hplace : Rewrite.samePlace level first (some reference) = some reference := by
          simp [Rewrite.samePlace, hlevel, hfirst]
        rw [hplace] at h
        cases h
        exact ⟨(hmaps.congr hagree).mono (opening_mono hpages),
          fun l f x _ hx => hx.mono hpages⟩
      | @lower reference _ hlevel _ _ =>
        have hplace : Rewrite.samePlace level first (some reference) = none := by
          simp [Rewrite.samePlace, hlevel.ne]
        rw [hplace] at h
        cases h
    · cases h

/-- A page that is looked at is touched. -/
theorem not_untouched_of_shortcut {reference : PageRef} (hlevel : reference.level = level)
    (hfirst : reference.firstBlock = first)
    (h : r.shortcut level first (first + span blockMapFanout level) (some reference) = none) :
    ¬ r.Untouched level first := by
  rintro ⟨hupdates, hcutoff⟩
  have hplace : Rewrite.samePlace level first (some reference) = some reference := by
    simp [Rewrite.samePlace, hlevel, hfirst]
  unfold Rewrite.shortcut at h
  split at h
  · cases h
  · rw [if_pos ⟨hupdates, hcutoff⟩, hplace] at h
    cases h

end Places

/-! ## Nodes -/

/-- A place of the map. -/
structure Place (level first : Nat) : Prop where
  level_le : level ≤ blockMapMaxLevel
  aligned : first % span blockMapFanout level = 0
  domain : first + span blockMapFanout level ≤ mapDomain

section Nodes

variable {r : Rewrite} {m : Nat → Option BlobRef} {may : Policy} {ledger : Ledger} {level first depth : Nat}
  {old : Option PageRef}

theorem Place.coverage (h : Place level first) :
    (fromFormat (pageCoverage level) : Except (StorageError E) Nat) = .ok (span blockMapFanout level) := by
  have hcoverage : pageCoverage level = .ok (span blockMapFanout level) :=
    pageCoverage_eq_ok.2 ⟨h.level_le, span_eq level⟩
  rw [hcoverage]
  rfl

theorem Place.finish (h : Place level first) (field : String) :
    (fromFormat (addWord first (span blockMapFanout level) field) : Except (StorageError E) Nat) =
      .ok (first + span blockMapFanout level) := by
  have hword : first + span blockMapFanout level < 2 ^ 64 := h.domain.trans_lt (by decide)
  rw [addWord_eq_ok.2 ⟨hword, rfl⟩]
  rfl

theorem Place.child (h : Place (level + 1) first) {s : Nat} (hs : s < blockMapFanout) :
    Place level (first + s * span blockMapFanout level) := by
  have hend := slot_end_le first (span blockMapFanout level) hs
  have hdomain := h.domain
  have haligned := h.aligned
  rw [span_succ] at hdomain haligned
  have hdvd : span blockMapFanout level ∣ first :=
    (Dvd.intro_left _ rfl).trans (Nat.dvd_of_mod_eq_zero haligned)
  refine ⟨(Nat.le_succ level).trans h.level_le, ?_, hend.trans hdomain⟩
  exact Nat.mod_eq_zero_of_dvd (hdvd.add (Dvd.intro_left s rfl))

/-- What is known of the old page at a place. -/
def OldPage (scope : MapScope) (m : Nat → Option BlobRef) (view : View) (level first : Nat)
    (old : Option PageRef) (oldPage : Option BlockMapPage) : Prop :=
  (∃ reference page, old = some reference ∧ oldPage = some page ∧ scope.Opens view reference page ∧
    Maps blockMapFanout (opening (scope.Opens view)) m level first (some reference)) ∨
  oldPage = none ∧ ∀ reference ∈ old, reference.level < level

theorem meets_oldPage (hsane : r.Sane m) (hold : Old (r.scope.Opens ledger.view) m level first old) :
    Meets (r.scope.repository.onMap may)
      (fun p l => l = ledger ∧ OldPage r.scope m ledger.view level first old p)
      (fun e _ => e.Refusal) (r.oldPage level first old depth : MapProg E (Option BlockMapPage)) ledger := by
  unfold Rewrite.oldPage
  cases hold with
  | none hblank => exact ⟨rfl, .inr ⟨rfl, by simp⟩⟩
  | @here reference hmaps =>
    obtain ⟨hlevel, hfirst, -, -⟩ := reference_of_maps (r.scope.sound_opens ledger.view) hmaps
    have hplace : Rewrite.samePlace level first (some reference) = some reference := by
      simp [Rewrite.samePlace, hlevel, hfirst]
    obtain ⟨node, ⟨-, -, page, hopens, -⟩, -⟩ := maps_some.1 hmaps
    rw [hplace]
    refine Meets.bind ((meets_loadPage hsane.bound hopens).mono ?_ fun e l he => he.1)
    rintro page' l ⟨rfl, rfl⟩
    exact ⟨rfl, .inl ⟨reference, page', rfl, rfl, hopens, hmaps⟩⟩
  | @lower reference _ hlevel _ _ =>
    have hplace : Rewrite.samePlace level first (some reference) = none := by
      simp [Rewrite.samePlace, hlevel.ne]
    rw [hplace]
    exact ⟨rfl, .inr ⟨rfl, fun reference' hmem => by cases hmem; exact hlevel⟩⟩

/-- The page `x` is one of those under the slots of a node. -/
def Under (pages : PageRef → BlockMapPage → Prop) (l f : Nat) (x : PageRef) :
    Nat → Nat → Node PageRef BlobRef → Prop
  | level + 1, first, .branch slots => ∃ s < blockMapFanout,
      Occurs blockMapFanout (opening pages) l f x level (first + s * span blockMapFanout level) (slots s)
  | _, _, _ => False

variable {pages : PageRef → BlockMapPage → Prop}

variable {l f : Nat} {x : PageRef}

theorem Under.occurs {reference : PageRef} {node : Node PageRef BlobRef}
    (h : Under pages l f x level first node) (hopens : opening pages level first reference node) :
    Occurs blockMapFanout (opening pages) l f x level first (some reference) := by
  cases level with
  | zero => exact h.elim
  | succ level =>
    cases node with
    | leaf slots => exact h.elim
    | branch slots =>
      obtain ⟨s, hs, hoccurs⟩ := h
      exact .inr ⟨reference, slots, s, rfl, hopens, hs, hoccurs⟩

theorem Under.mono {pages' : PageRef → BlockMapPage → Prop}
    (hpages : ∀ reference page, pages reference page → pages' reference page)
    {node : Node PageRef BlobRef} (h : Under pages l f x level first node) :
    Under pages' l f x level first node := by
  cases level with
  | zero => exact h.elim
  | succ level =>
    cases node with
    | leaf slots => exact h.elim
    | branch slots =>
      obtain ⟨s, hs, hoccurs⟩ := h
      exact ⟨s, hs, hoccurs.mono (opening_mono hpages)⟩

variable {known : View} {oldPage : Option BlockMapPage}

/-- **The end of `rewrite_node`**: the page that maps as the result does is kept or emitted. -/
theorem meets_finish (hsane : r.Sane m) (hmay : r.Permitted m may ledger.view) {page : BlockMapPage}
    (hview : View.Extends known ledger.view)
    (hold : OldPage r.scope m known level first old oldPage) (hfile : page.fileId = r.scope.fileId)
    (hlevel : page.level = level) (hfirst : page.firstBlock = first)
    (hvalid : validatePage r.scope.repository.crypto page r.scope.repository.limits = .ok ())
    (hnamed : r.scope.repository.NamesChildren r.scope.context page)
    (hnode : NodeMaps blockMapFanout (opening (r.Pages ledger.view)) (r.result m) level first page.node)
    (hkeeps : ∀ l f x, r.Untouched l f → Held (r.scope.Opens known) l f x old →
      Under (r.Pages ledger.view) l f x level first page.node) :
    Meets (r.scope.repository.onMap may)
      (fun root l => ledger.Later l ∧ r.Returns m known level first old root l.view)
      (fun e _ => e.Refusal) (r.emit old oldPage page : MapProg E (Option PageRef)) ledger := by
  by_cases hsame : oldPage = some page
  · unfold Rewrite.emit
    rw [if_pos hsame]
    rcases hold with ⟨reference, page', rfl, hpage', hopens, hmaps⟩ | ⟨hnone, -⟩
    · cases hsame.symm.trans hpage'
      obtain ⟨hrefLevel, hrefFirst, -, -⟩ := reference_of_maps (r.scope.sound_opens known) hmaps
      have hpages : r.Pages ledger.view reference page := .inl (hopens.mono hview)
      refine ⟨Ledger.Later.refl _, maps_some.2 ⟨page.node, ⟨hrefLevel, hrefFirst, page, hpages, rfl⟩,
        hnode⟩, fun l f x _ hx => hx.mono fun _ _ h => .inl (h.mono hview)⟩
    · rw [hnone] at hsame
      cases hsame
  · subst hlevel hfirst
    refine (meets_emit hsane hmay hsame hfile hvalid hnamed hnode).imp ?_
    rintro root l ⟨hlater, reference, rfl, hpage, hrefLevel, hrefFirst⟩
    have hmono := opening_mono (pages_mono (r := r) hlater.view)
    have hopens : opening (r.Pages l.view) page.level page.firstBlock reference page.node :=
      ⟨hrefLevel, hrefFirst, page, hpage, rfl⟩
    refine ⟨hlater, maps_some.2 ⟨page.node, hopens, hnode.mono hmono⟩, fun l' f x huntouched hx => ?_⟩
    have hunder := (hkeeps l' f x huntouched hx).mono (pages_mono hlater.view)
    refine ⟨reference, rfl, ?_⟩
    rw [hrefLevel, hrefFirst]
    exact hunder.occurs hopens

variable {scope : MapScope}

/-- The blocks of a stored leaf can be held by a leaf. -/
theorem block_of_leaf {reference : PageRef} {bytes : Bytes} {file : FileId}
    {entries : List (Nat × BlobRef)} (h : scope.PageIn reference bytes (.leaf file first entries))
    {e : Nat × BlobRef} (he : e ∈ entries) : scope.Block (first + e.1) e.2 := by
  obtain ⟨-, hvalid, hfile, -⟩ := h.facts
  obtain ⟨hblob, hlength, hdigest⟩ := (validatePage_leaf.1 hvalid).2.2 e he
  exact ⟨hblob, hlength, hdigest, (show file = scope.fileId from hfile) ▸ h.named e he⟩

/-- A block of the result is an update or was there before. -/
theorem block_of_result (hsane : r.Sane m) {i : Nat} {blob : BlobRef} (h : r.result m i = some blob)
    (hold : m i = some blob → r.scope.Block i blob) : r.scope.Block i blob := by
  unfold Rewrite.result at h
  split at h
  · rename_i update hupdate
    subst h
    exact hsane.blocks i blob ((lookup_eq_some_iff hsane.sorted).1 hupdate)
  · split at h
    · exact hold h
    · cases h

variable {view : View}

/-- The old leaf: its entries are the old blocks, and a leaf can hold them. -/
theorem leaf_of_oldPage (hold : Old (scope.Opens view) m 0 first old)
    (hpage : OldPage scope m view 0 first old oldPage) :
    (∀ page ∈ oldPage, page.level = 0 ∧
      validatePage scope.repository.crypto page scope.repository.limits = .ok ()) ∧
    ∀ s < blockMapFanout, m (first + s) = (leafEntries oldPage).lookup s ∧
      ∀ blob, m (first + s) = some blob → scope.Block (first + s) blob := by
  rcases hpage with ⟨reference, page, rfl, rfl, hopens, hmaps⟩ | ⟨rfl, hlower⟩
  · obtain ⟨bytes, -, hin⟩ := id hopens
    obtain ⟨-, hvalid, -, hlevel, hfirst, -⟩ := hin.facts
    obtain ⟨slots, ⟨hrefLevel, hrefFirst, page', hpage', hnode⟩, hslots⟩ := hmaps
    cases hopens.unique hpage'
    refine ⟨fun page' hpage' => ?_, ?_⟩
    · cases hpage'
      exact ⟨hlevel.trans hrefLevel, hvalid⟩
    · cases page with
      | branch => cases hnode
      | leaf file firstBlock entries =>
        cases hnode
        obtain rfl : firstBlock = first := hfirst.trans hrefFirst
        refine fun s hs => ⟨hslots s hs, fun blob hblob => ?_⟩
        have hsorted := (validatePage_leaf.1 hvalid).2.1.2.2
        have hmem := (lookup_eq_some_iff hsorted).1 ((hslots s hs).symm.trans hblob)
        exact block_of_leaf hin hmem
  · have hblank : Blank m first (span blockMapFanout 0) := by
      cases hold with
      | none hblank => exact hblank
      | here hmaps =>
        have hlevel := (reference_of_maps (scope.sound_opens view) hmaps).1
        exact absurd (hlower _ rfl) (by omega)
      | lower _ hlevel _ _ => exact absurd hlevel (Nat.not_lt_zero _)
    rw [span_zero] at hblank
    refine ⟨by simp, fun s hs => ?_⟩
    rw [hblank (first + s) (by omega) (by omega)]
    exact ⟨rfl, fun blob hblob => by cases hblob⟩

/-- No old page is kept under a leaf that is looked at. -/
theorem not_held_leaf (hold : Old (r.scope.Opens known) m 0 first old)
    (hshort : r.shortcut 0 first (first + span blockMapFanout 0) old = none)
    (huntouched : r.Untouched l f) : ¬ Held (r.scope.Opens known) l f x old := by
  rintro ⟨reference, hmem, hoccurs⟩
  obtain rfl : old = some reference := hmem
  obtain ⟨hfirst, hle, -⟩ := hold.place
  have hlevel := Nat.le_zero.1 hle
  rw [hlevel, hfirst] at hoccurs
  obtain ⟨-, rfl, rfl⟩ := hoccurs
  exact not_untouched_of_shortcut hlevel hfirst hshort huntouched

/-- **`rewrite_node` of a leaf.** -/
theorem meets_rewriteLeaf (hsane : r.Sane m) (hmay : r.Permitted m may ledger.view) (hplace : Place 0 first)
    (hold : Old (r.scope.Opens ledger.view) m 0 first old) :
    Meets (r.scope.repository.onMap may)
      (fun root l => ledger.Later l ∧ r.Returns m ledger.view 0 first old root l.view)
      (fun e _ => e.Refusal) (r.rewriteNode 0 first old depth : MapProg E (Option PageRef)) ledger := by
  unfold Rewrite.rewriteNode
  refine Meets.bind (meets_observeDepth ?_ fun _ => trivial)
  refine Meets.ok_bind hplace.coverage (Meets.ok_bind (hplace.finish _) ?_)
  cases hshort : r.shortcut 0 first (first + span blockMapFanout 0) old with
  | some root =>
    exact ⟨Ledger.Later.refl _, returns_of_shortcut hsane hold (View.Extends.refl _) hshort⟩
  | none =>
    refine Meets.bind ((meets_oldPage hsane hold).imp ?_)
    rintro oldPage l ⟨rfl, hpage⟩
    obtain ⟨hleaf, hentries⟩ := leaf_of_oldPage hold hpage
    obtain ⟨slots, hslotsOk, hslots⟩ := leafSlots_eq (E := E) hsane hleaf hplace.domain
      fun s hs => (hentries s hs).1
    refine Meets.ok_bind hslotsOk ?_
    split
    · rename_i hempty
      refine ⟨Ledger.Later.refl _, maps_none.2 fun i hlow hhigh => ?_, fun l f x huntouched hx =>
        absurd hx (not_held_leaf hold hshort huntouched)⟩
      rw [span_zero] at hhigh
      have hslot := hslots (i - first) (by omega)
      rw [slotEntries_eq_nil.1 hempty (i - first) (by omega)] at hslot
      rw [hslot]
      congr 1
      omega
    · rename_i hne
      have hvalid : validatePage r.scope.repository.crypto
          (.leaf r.scope.fileId first (slotEntries slots)) r.scope.repository.limits = .ok () := by
        have haligned := hplace.aligned
        have hdomain := hplace.domain
        rw [span_zero] at haligned hdomain
        refine validatePage_leaf.2 ⟨⟨haligned, hdomain⟩, ⟨hne, fun e he => (mem_slotEntries.1 he).1,
          pairwise_slotEntries slots⟩, fun e he => ?_⟩
        obtain ⟨hs, hslot⟩ := mem_slotEntries.1 he
        have hblock := block_of_result hsane ((hslots e.1 hs).symm.trans hslot) ((hentries e.1 hs).2 e.2)
        exact ⟨hblock.valid, hblock.length, hblock.digest⟩
      refine meets_finish hsane hmay (View.Extends.refl _) hpage rfl rfl rfl hvalid ?_ ?_ ?_
      · intro e he
        obtain ⟨hs, hslot⟩ := mem_slotEntries.1 he
        exact (block_of_result hsane ((hslots e.1 hs).symm.trans hslot) ((hentries e.1 hs).2 e.2)).named
      · exact fun s hs => (hslots s hs).symm.trans (lookup_slotEntries hs).symm
      · exact fun l f x huntouched hx => absurd hx (not_held_leaf hold hshort huntouched)

/-! ## Branches -/

theorem Old.mono {pages' : PageRef → BlockMapPage → Prop}
    (h : ∀ reference page, pages reference page → pages' reference page)
    (hold : Old pages m level first old) : Old pages' m level first old := by
  cases hold with
  | none hblank => exact .none hblank
  | here hmaps => exact .here (hmaps.mono (opening_mono h))
  | lower hzero hlevel hmaps hblank => exact .lower hzero hlevel (hmaps.mono (opening_mono h)) hblank

theorem Old.of_maps
    (h : Maps blockMapFanout (opening pages) m level first old) : Old pages m level first old := by
  cases old with
  | none => exact .none (maps_none.1 h)
  | some reference => exact .here h

theorem opens_functional (scope : MapScope) (view : View) (level first : Nat) (reference : PageRef)
    (node node' : Node PageRef BlobRef) (h : opening (scope.Opens view) level first reference node)
    (h' : opening (scope.Opens view) level first reference node') : node = node' := by
  obtain ⟨-, -, page, hpage, rfl⟩ := h
  obtain ⟨-, -, page', hpage', rfl⟩ := h'
  rw [hpage.unique hpage']

theorem held_of_occurs (sound : scope.Sound pages)
    (hmaps : Maps blockMapFanout (opening pages) m level first old)
    (h : Occurs blockMapFanout (opening pages) l f x level first old) : Held pages l f x old := by
  cases old with
  | none => exact absurd rfl h.ne_none
  | some reference =>
    obtain ⟨hlevel, hfirst, -, -⟩ := reference_of_maps sound hmaps
    exact ⟨reference, rfl, by rwa [hlevel, hfirst]⟩

/-- **The old children**: each is an old tree of its slot, and the pages under the old page are under
them. -/
theorem oldChildren_eq (hold : Old (scope.Opens view) m (level + 1) first old)
    (hpage : OldPage scope m view (level + 1) first old oldPage) :
    ∃ children, (Rewrite.oldChildren (level + 1) old oldPage : Except (StorageError E) _) =
        .ok children ∧
      (∀ s < blockMapFanout, Old (scope.Opens view) m level
        (first + s * span blockMapFanout level) (children s)) ∧
      ∀ l f x, Held (scope.Opens view) l f x old →
        (l = level + 1 ∧ f = first ∧ ∃ reference, old = some reference ∧ reference.level = level + 1) ∨
          ∃ s < blockMapFanout, Held (scope.Opens view) l f x (children s) := by
  rcases hpage with ⟨reference, page, rfl, rfl, hopens, hmaps⟩ | ⟨rfl, hlower⟩
  · obtain ⟨hrefLevel, hrefFirst, -, -⟩ := reference_of_maps (scope.sound_opens view) hmaps
    obtain ⟨slots, hnode, hslots⟩ := id hmaps
    obtain ⟨-, -, page', hpage', hpageNode⟩ := id hnode
    cases hopens.unique hpage'
    cases page with
    | leaf => cases hpageNode
    | branch file pageLevel firstBlock entries =>
      cases hpageNode
      refine ⟨_, rfl, fun s hs => .of_maps (hslots s hs), ?_⟩
      rintro l f x ⟨reference', hmem, hoccurs⟩
      cases hmem
      rw [hrefLevel, hrefFirst] at hoccurs
      rcases hoccurs with ⟨-, rfl, rfl⟩ | ⟨top, slots', s, htop, hnode', hs, hoccurs⟩
      · exact .inl ⟨rfl, rfl, reference, rfl, hrefLevel⟩
      · cases htop
        cases opens_functional _ _ _ _ _ _ _ hnode hnode'
        exact .inr ⟨s, hs, held_of_occurs (scope.sound_opens view) (hslots s hs) hoccurs⟩
  · cases hold with
    | none hblank =>
      refine ⟨_, rfl, fun s hs => .none (hblank.sub (by omega) ?_), ?_⟩
      · rw [span_succ]
        exact slot_end_le first _ hs
      · rintro l f x ⟨reference, hmem, -⟩
        cases hmem
    | here hmaps =>
      have hlevel := (reference_of_maps (scope.sound_opens view) hmaps).1
      exact absurd (hlower _ rfl) (by omega)
    | @lower reference hzero hlevel hmaps hblank =>
      subst hzero
      have hfilter : (some reference).filter (fun old : PageRef => old.level < level + 1) =
          some reference := by simpa using Nat.lt_succ_iff.1 hlevel
      refine ⟨Function.update (fun _ => none) 0 (some reference), ?_, fun s hs => ?_, ?_⟩
      · simp only [Rewrite.oldChildren, hfilter]
      · by_cases hs0 : s = 0
        · subst hs0
          rw [Function.update_self, Nat.zero_mul]
          rcases Nat.lt_succ_iff_lt_or_eq.1 hlevel with hlt | heq
          · refine .lower rfl hlt hmaps fun i hlow hhigh => hblank i hlow (hhigh.trans_le ?_)
            exact span_mono fanout_pos (Nat.le_succ level)
          · exact .here (heq ▸ hmaps)
        · rw [Function.update_of_ne hs0]
          refine .none fun i hlow hhigh => hblank i ?_ ?_
          · have hspan := span_mono fanout_pos (Nat.lt_succ_iff.1 hlevel)
            have hmul : 1 * span blockMapFanout level ≤ s * span blockMapFanout level :=
              Nat.mul_le_mul_right _ (Nat.one_le_iff_ne_zero.2 hs0)
            omega
          · have hend := slot_end_le 0 (span blockMapFanout level) hs
            rw [span_succ]
            omega
      · intro l f x hx
        refine .inr ⟨0, fanout_pos, ?_⟩
        rwa [Function.update_self]

/-- A slot that is neither cut off nor affected keeps its child. -/
theorem returns_unaffected (hsane : r.Sane m) (hold : Old (r.scope.Opens known) m level first old)
    (hview : View.Extends known view) (habove : ¬ r.cutoff.any (· ≤ first) = true)
    (hupdates : r.updates.range first (first + span blockMapFanout level) = [])
    (hcut : ¬ r.cutoff.any (fun cutoff => first < cutoff ∧ cutoff < first + span blockMapFanout level) = true)
    (hlevel : ∀ reference ∈ old, reference.level = level) :
    r.Returns m known level first old old view := by
  have hcutoff : r.cutoff.all (first + span blockMapFanout level ≤ ·) = true := by
    cases hc : r.cutoff with
    | none => rfl
    | some cutoff =>
      simp only [hc, Option.any_some, decide_eq_true_eq, Option.all_some] at habove hcut ⊢
      omega
  have hagree := agree_untouched hsane hupdates hcutoff
  have hpages : ∀ reference page, r.scope.Opens known reference page → r.Pages view reference page :=
    fun reference page hpage => .inl (hpage.mono hview)
  refine ⟨?_, fun l f x _ hx => hx.mono hpages⟩
  cases hold with
  | none hblank => exact maps_none.2 (hblank.congr hagree)
  | here hmaps => exact (hmaps.congr hagree).mono (opening_mono hpages)
  | lower _ hlower _ _ => exact absurd (hlevel _ rfl) hlower.ne

variable {children : Nat → Option PageRef}
  {rewriteChild : Nat → Option PageRef → MapProg E (Option PageRef)}

/-- **One iteration over the slots.** -/
theorem meets_rewriteSlot (hsane : r.Sane m) (hplace : Place (level + 1) first)
    (hview : View.Extends known ledger.view) {s : Nat} (hs : s < blockMapFanout)
    (hold : Old (r.scope.Opens known) m level (first + s * span blockMapFanout level) (children s))
    (hchild : ∀ {childFirst : Nat} {child : Option PageRef}, Place level childFirst →
      Old (r.scope.Opens ledger.view) m level childFirst child →
      Meets (r.scope.repository.onMap may)
        (fun root l => ledger.Later l ∧ r.Returns m ledger.view level childFirst child root l.view)
        (fun e _ => e.Refusal) (rewriteChild childFirst child) ledger) :
    Meets (r.scope.repository.onMap may)
      (fun children' l => ledger.Later l ∧ ∃ root, children' = Function.update children s root ∧
        r.Returns m known level (first + s * span blockMapFanout level) (children s) root l.view)
      (fun e _ => e.Refusal)
      (r.rewriteSlot level first (span blockMapFanout level) rewriteChild children s) ledger := by
  have hslot := hplace.child hs
  have hstart : (fromFormat (addWord first (s * span blockMapFanout level) "child page range") :
      Except (StorageError E) Nat) = .ok (first + s * span blockMapFanout level) := by
    have hword : first + s * span blockMapFanout level < 2 ^ 64 :=
      ((Nat.le_add_right _ _).trans hslot.domain).trans_lt (by decide)
    rw [addWord_eq_ok.2 ⟨hword, rfl⟩]
    rfl
  have hpages : ∀ reference page, r.scope.Opens known reference page →
      r.scope.Opens ledger.view reference page := fun reference page hpage => hpage.mono hview
  unfold Rewrite.rewriteSlot
  refine Meets.ok_bind hstart (Meets.ok_bind (hslot.finish _) ?_)
  split
  · rename_i habove
    refine ⟨Ledger.Later.refl _, none, rfl, maps_none.2 (blank_above hsane habove _), ?_⟩
    exact fun l f x huntouched hx =>
      absurd huntouched (not_untouched_above habove (hold.within hx).2.1)
  · rename_i habove
    split
    · refine Meets.bind ((hchild hslot (hold.mono hpages)).imp ?_)
      rintro root l ⟨hlater, hmaps, hkeeps⟩
      exact ⟨hlater, root, rfl, hmaps, fun l f x huntouched hx =>
        hkeeps l f x huntouched (hx.mono hpages)⟩
    · rename_i haffected
      simp only [not_or, ne_eq, not_not] at haffected
      obtain ⟨hupdates, hcut, hlevel⟩ := haffected
      refine ⟨Ledger.Later.refl _, children s, (Function.update_eq_self s children).symm, ?_⟩
      refine returns_unaffected hsane hold hview habove hupdates hcut fun reference hmem => ?_
      rw [Option.mem_def.1 hmem] at hlevel
      simpa using hlevel

theorem meets_rewriteSlots (hsane : r.Sane m) (hplace : Place (level + 1) first)
    (hold : ∀ s < blockMapFanout,
      Old (r.scope.Opens ledger.view) m level (first + s * span blockMapFanout level) (children s))
    (hchild : ∀ {now : Ledger} {childFirst : Nat} {child : Option PageRef}, ledger.Later now →
      Place level childFirst → Old (r.scope.Opens now.view) m level childFirst child →
      Meets (r.scope.repository.onMap may)
        (fun root l => now.Later l ∧ r.Returns m now.view level childFirst child root l.view)
        (fun e _ => e.Refusal) (rewriteChild childFirst child) now) :
    Meets (r.scope.repository.onMap may)
      (fun children' l => ledger.Later l ∧ ∀ s < blockMapFanout,
        r.Returns m ledger.view level (first + s * span blockMapFanout level) (children s) (children' s)
          l.view)
      (fun e _ => e.Refusal)
      ((List.range blockMapFanout).foldlM
        (r.rewriteSlot level first (span blockMapFanout level) rewriteChild) children) ledger := by
  -- the slots that are done hold what was returned, the others what was there
  refine (Meets.foldlM (I := fun pre children' l => ledger.Later l ∧
    (∀ s ∈ pre, r.Returns m ledger.view level (first + s * span blockMapFanout level) (children s)
      (children' s) l.view) ∧ ∀ s ∉ pre, children' s = children s) ?_ ?_).imp ?_
  · rintro pre s post children' l hrange ⟨hlater, hdone, hrest⟩
    have hnodup : (pre ++ s :: post).Nodup := hrange ▸ List.nodup_range
    have hs : s < blockMapFanout := List.mem_range.1 (hrange ▸ by simp)
    have hfresh : s ∉ pre := fun h => (List.nodup_append.1 hnodup).2.2 s h s (by simp) rfl
    have hsame := hrest s hfresh
    refine (meets_rewriteSlot hsane hplace hlater.view hs (hsame ▸ hold s hs) fun hp ho =>
      hchild hlater hp ho).imp ?_
    rintro children'' l' ⟨hlater', root, rfl, hreturns⟩
    refine ⟨hlater.trans _ _ _ hlater', fun t ht => ?_, fun t ht => ?_⟩
    · by_cases hts : t = s
      · subst hts
        rw [Function.update_self, ← hsame]
        exact hreturns
      · rw [Function.update_of_ne hts]
        have hmem : t ∈ pre := by simpa [hts] using ht
        exact (hdone t hmem).mono hlater'.view
    · have hts : t ≠ s := fun h => ht (by simp [h])
      rw [Function.update_of_ne hts]
      exact hrest t fun h => ht (by simp [h])
  · exact ⟨Ledger.Later.refl _, by simp, fun _ _ => rfl⟩
  · rintro children' l ⟨hlater, hdone, -⟩
    exact ⟨hlater, fun s hs => hdone s (List.mem_range.2 hs)⟩

theorem under_of_held (sound : scope.Sound pages) {slots : Nat → Option PageRef} {s : Nat}
    (hs : s < blockMapFanout)
    (hmaps : Maps blockMapFanout (opening pages) m level (first + s * span blockMapFanout level) (slots s))
    (h : Held pages l f x (slots s)) : Under pages l f x (level + 1) first (.branch slots) := by
  obtain ⟨reference, hmem, hoccurs⟩ := h
  rw [Option.mem_def.1 hmem] at hmaps
  obtain ⟨hlevel, hfirst, -, -⟩ := reference_of_maps sound hmaps
  rw [hlevel, hfirst] at hoccurs
  exact ⟨s, hs, hoccurs⟩

/-- The page of a branch whose children have been rewritten passes its checks. -/
theorem validatePage_children (sound : scope.Sound pages) (hplace : Place (level + 1) first)
    (hmaps : ∀ s < blockMapFanout, Maps blockMapFanout (opening pages) m level
      (first + s * span blockMapFanout level) (children s)) (hne : slotEntries children ≠ []) :
    validatePage scope.repository.crypto (.branch scope.fileId (level + 1) first (slotEntries children))
        scope.repository.limits = .ok () ∧
      scope.repository.NamesChildren scope.context
        (.branch scope.fileId (level + 1) first (slotEntries children)) := by
  have hchild : ∀ e ∈ slotEntries children, e.2.level = level ∧
      e.2.firstBlock = first + e.1 * span blockMapFanout level ∧
      e.2.Valid scope.repository.limits ∧
      scope.repository.NamesPage scope.context scope.fileId e.2.level e.2.firstBlock e.2.key := by
    intro e he
    obtain ⟨hs, hslot⟩ := mem_slotEntries.1 he
    have hmap := hmaps e.1 hs
    rw [hslot] at hmap
    obtain ⟨hlevel, hfirst, hvalid, hnamed⟩ := reference_of_maps sound hmap
    exact ⟨hlevel, hfirst, hvalid, by rwa [hlevel, hfirst]⟩
  have haligned := hplace.aligned
  have hdomain := hplace.domain
  rw [span_eq] at haligned hdomain
  refine ⟨validatePage_branch.2 ⟨⟨hplace.level_le, Nat.succ_ne_zero level, haligned, hdomain⟩,
    ⟨hne, fun e he => (mem_slotEntries.1 he).1, pairwise_slotEntries children⟩, fun e he => ?_⟩,
    fun e he => (hchild e he).2.2.2⟩
  obtain ⟨hlevel, hfirst, hvalid, -⟩ := hchild e he
  rw [slotCoverage_succ]
  exact ⟨hvalid, hlevel, hfirst⟩

/-- **`rewrite_node` returns the tree of the result at its place**, or it is refused. By induction on
the level. -/
theorem meets_rewriteNode (hsane : r.Sane m) (hmay : r.Permitted m may ledger.view)
    (hplace : Place level first)
    (hold : Old (r.scope.Opens ledger.view) m level first old) :
    Meets (r.scope.repository.onMap may)
      (fun root l => ledger.Later l ∧ r.Returns m ledger.view level first old root l.view)
      (fun e _ => e.Refusal) (r.rewriteNode level first old depth : MapProg E (Option PageRef)) ledger := by
  induction level generalizing first old depth ledger with
  | zero => exact meets_rewriteLeaf hsane hmay hplace hold
  | succ level ih =>
    have hlower : Place level first := by
      have := hplace.child fanout_pos
      rwa [Nat.zero_mul, Nat.add_zero] at this
    unfold Rewrite.rewriteNode
    refine Meets.bind (meets_observeDepth ?_ fun _ => trivial)
    refine Meets.ok_bind hplace.coverage (Meets.ok_bind (hplace.finish _) ?_)
    cases hshort : r.shortcut (level + 1) first (first + span blockMapFanout (level + 1)) old with
    | some root =>
      exact ⟨Ledger.Later.refl _, returns_of_shortcut hsane hold (View.Extends.refl _) hshort⟩
    | none =>
      refine Meets.bind ((meets_oldPage hsane hold).imp ?_)
      rintro oldPage known ⟨rfl, hpage⟩
      obtain ⟨children, hchildrenOk, hchildren, hheld⟩ := oldChildren_eq (E := E) hold hpage
      refine Meets.ok_bind hlower.coverage (Meets.ok_bind hchildrenOk ?_)
      refine Meets.bind ((meets_rewriteSlots hsane hplace hchildren fun hlater hp ho =>
        ih (hmay.mono hlater.view) hp ho).imp ?_)
      rintro children' now ⟨hlater, hreturns⟩
      have sound := sound_pages r now.view
      have hmaps := fun s hs => (hreturns s hs).maps
      -- an old page that is kept is kept by one of the slots
      have hkept : ∀ l f x, r.Untouched l f → Held (r.scope.Opens known.view) l f x old →
          ∃ s < blockMapFanout, Held (r.Pages now.view) l f x (children' s) := by
        intro l f x huntouched hx
        rcases hheld l f x hx with ⟨rfl, rfl, reference, rfl, hlevel⟩ | ⟨s, hs, hx⟩
        · exact absurd huntouched (not_untouched_of_shortcut hlevel hold.place.1 hshort)
        · exact ⟨s, hs, (hreturns s hs).keeps l f x huntouched hx⟩
      split
      · rename_i hempty
        have hnone := slotEntries_eq_nil.1 hempty
        refine ⟨hlater, maps_none.2 (NodeMaps.blank fanout_pos hmaps hnone), fun l f x huntouched hx => ?_⟩
        obtain ⟨s, hs, reference, hmem, -⟩ := hkept l f x huntouched hx
        rw [hnone s hs] at hmem
        cases hmem
      · rename_i hne
        obtain ⟨hvalid, hnamed⟩ := validatePage_children sound hplace hmaps hne
        have hlookup : ∀ s < blockMapFanout, (slotEntries children').lookup s = children' s :=
          fun s hs => lookup_slotEntries hs
        have hnode : NodeMaps blockMapFanout (opening (r.Pages now.view)) (r.result m) (level + 1) first
            (.branch fun s => (slotEntries children').lookup s) := by
          intro s hs
          dsimp only
          rw [hlookup s hs]
          exact hmaps s hs
        refine (meets_finish hsane (hmay.mono hlater.view) hlater.view hpage rfl rfl rfl
          hvalid hnamed hnode ?_).imp ?_
        · intro l f x huntouched hx
          obtain ⟨s, hs, hx⟩ := hkept l f x huntouched hx
          exact under_of_held sound hs (hnode s hs) (by rwa [hlookup s hs])
        · exact fun root l hroot => ⟨hlater.trans _ _ _ hroot.1, hroot.2⟩

end Nodes

end W9pt.Storage

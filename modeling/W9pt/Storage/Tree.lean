import W9pt.Lib.Radix
import W9pt.Storage.Stored

/-!
# The block map as a radix tree

The pages of a block map are the nodes of a radix tree with 128 slots (`Lib/Radix.lean`), named by page
references. `MapOf pages root m` says that the pages under `root` map block `i` to `m i`, with the
lowest root that does. What the references say about counts and highest blocks is then right at every
page (`maps_exact`), and `lookup` finds `m i` (`meets_lookup`).

| here | there |
|---|---|
| `BlockMapPage.node`, `opening` | `BlockMapPage` (format/block_map.rs:148) |
| `slotEntries_lookup`, ... | the entries of a page in the order of their slots |
| `MapOf` | what `block_split.rs` keeps under the root of a manifest |
| `meets_lookup` | `MapCursor::lookup` (layout/block_map.rs:167) |
-/

namespace W9pt.Storage

open Lib Lib.Radix

variable {E : Type}

/-! ## Entries in slots -/

section Slots

variable {γ : Type} {entries : List (Nat × γ)} {slots : Nat → Option γ}

theorem mem_slotEntries {e : Nat × γ} :
    e ∈ slotEntries slots ↔ e.1 < blockMapFanout ∧ slots e.1 = some e.2 := by
  obtain ⟨s, value⟩ := e
  simp only [slotEntries, List.mem_filterMap, List.mem_range, Option.map_eq_some_iff, Prod.mk.injEq]
  constructor
  · rintro ⟨s', hs', v, hv, rfl, rfl⟩
    exact ⟨hs', hv⟩
  · rintro ⟨hs, hv⟩
    exact ⟨s, hs, value, hv, rfl, rfl⟩

theorem pairwise_slotEntries (slots : Nat → Option γ) :
    (slotEntries slots).Pairwise fun a b => a.1 < b.1 := by
  unfold slotEntries
  rw [List.pairwise_filterMap]
  refine List.pairwise_lt_range.imp fun {s t} hst a ha b hb => ?_
  obtain ⟨_, _, rfl⟩ := Option.map_eq_some_iff.1 ha
  obtain ⟨_, _, rfl⟩ := Option.map_eq_some_iff.1 hb
  exact hst

theorem lookup_eq_some_iff (hsorted : entries.Pairwise fun a b => a.1 < b.1) {s : Nat} {value : γ} :
    entries.lookup s = some value ↔ (s, value) ∈ entries := by
  induction entries with
  | nil => simp
  | cons e entries ih =>
    obtain ⟨hfirst, hrest⟩ := List.pairwise_cons.1 hsorted
    obtain ⟨t, v⟩ := e
    rw [List.lookup_cons, List.mem_cons]
    by_cases hs : s = t
    · subst hs
      have hnone : (s, value) ∉ entries := fun h => (hfirst _ h).false
      simp [hnone, eq_comm]
    · have hbeq : (s == t) = false := by simpa using hs
      rw [hbeq]
      simp [ih hrest, hs]

theorem slotEntries_lookup (hslots : ∀ e ∈ entries, e.1 < blockMapFanout)
    (hsorted : entries.Pairwise fun a b => a.1 < b.1) :
    slotEntries (fun s => entries.lookup s) = entries := by
  have hirrefl : Std.Irrefl fun a b : Nat × γ => a.1 < b.1 := ⟨fun a => lt_irrefl a.1⟩
  have hantisymm : Std.Antisymm fun a b : Nat × γ => a.1 < b.1 := ⟨fun a b h h' => (h.asymm h').elim⟩
  refine (pairwise_slotEntries _).eq_of_mem_iff hsorted fun e => ?_
  rw [mem_slotEntries, lookup_eq_some_iff hsorted]
  exact ⟨fun h => h.2, fun h => ⟨hslots e h, h⟩⟩

theorem lookup_slotEntries {s : Nat} (hs : s < blockMapFanout) :
    (slotEntries slots).lookup s = slots s := by
  cases hslot : slots s with
  | some value => exact (lookup_eq_some_iff (pairwise_slotEntries _)).2 (mem_slotEntries.2 ⟨hs, hslot⟩)
  | none =>
    rw [Option.eq_none_iff_forall_ne_some]
    intro value hvalue
    have hmem := mem_slotEntries.1 ((lookup_eq_some_iff (pairwise_slotEntries _)).1 hvalue)
    rw [hslot] at hmem
    cases hmem.2

theorem slotEntries_eq_nil : slotEntries slots = [] ↔ ∀ s < blockMapFanout, slots s = none := by
  simp [slotEntries, List.filterMap_eq_nil_iff]

theorem sum_slotEntries (slots : Nat → Option γ) (g : γ → Nat) :
    ((slotEntries slots).map fun e => g e.2).sum =
      ((List.range blockMapFanout).map fun s => (slots s).elim 0 g).sum := by
  unfold slotEntries
  induction List.range blockMapFanout with
  | nil => rfl
  | cons s rest ih =>
    rw [List.filterMap_cons, List.map_cons, List.sum_cons, ← ih]
    cases slots s <;> simp

theorem length_slotEntries (slots : Nat → Option γ) :
    (slotEntries slots).length = Nat.count (fun s => (slots s).isSome = true) blockMapFanout := by
  unfold slotEntries
  generalize blockMapFanout = n
  induction n with
  | zero => simp
  | succ n ih =>
    rw [List.range_succ, List.filterMap_append, List.length_append, ih, Nat.count_succ]
    cases hslot : slots n <;> simp [hslot]

end Slots

/-! ## Pages as nodes -/

def BlockMapPage.node : BlockMapPage → Node PageRef BlobRef
  | .leaf _ _ entries => .leaf fun s => entries.lookup s
  | .branch _ _ _ entries => .branch fun s => entries.lookup s

/-- The nodes that references open to, given the pages they open to. -/
def opening (pages : PageRef → BlockMapPage → Prop) : Opening PageRef BlobRef :=
  fun level first reference node => reference.level = level ∧ reference.firstBlock = first ∧
    ∃ page, pages reference page ∧ page.node = node

variable {pages : PageRef → BlockMapPage → Prop}

theorem opening_mono {pages' : PageRef → BlockMapPage → Prop}
    (h : ∀ reference page, pages reference page → pages' reference page) (level first : Nat)
    (reference : PageRef) (node : Node PageRef BlobRef)
    (hnode : opening pages level first reference node) :
    opening pages' level first reference node := by
  obtain ⟨hlevel, hfirst, page, hpage, hnode⟩ := hnode
  exact ⟨hlevel, hfirst, page, h _ _ hpage, hnode⟩

theorem fanout_pos : 0 < blockMapFanout := by decide

theorem span_eq (level : Nat) : span blockMapFanout level = 2 ^ (7 * (level + 1)) := by
  unfold span
  rw [pow_mul]
  rfl

theorem slotCoverage_succ (level : Nat) : slotCoverage (level + 1) = span blockMapFanout level := by
  rw [span_eq]
  rfl

/-- The pages pass the checks of `load_map_page` under their references. -/
def MapScope.Sound (scope : MapScope) (pages : PageRef → BlockMapPage → Prop) : Prop :=
  ∀ reference page, pages reference page → ∃ bytes, scope.PageIn reference bytes page

theorem MapScope.sound_opens (scope : MapScope) (view : View) : scope.Sound (scope.Opens view) :=
  fun _ _ ⟨bytes, _, hpage⟩ => ⟨bytes, hpage⟩

/-- Entries in the order of their slots: how many there are, and the block of the last one. -/
theorem sums_leaf {entries : List (Nat × BlobRef)} {last : Nat × BlobRef} {first : Nat}
    (hslots : ∀ e ∈ entries, e.1 < blockMapFanout) (hsorted : entries.Pairwise fun a b => a.1 < b.1)
    (hlast : entries.getLast? = some last) :
    Sums blockMapFanout PageRef.materializedBlockCount PageRef.highestMaterializedBlock first
      (.leaf fun s => entries.lookup s) entries.length (first + last.1) := by
  have hmem := List.mem_of_getLast? hlast
  have hcount := length_slotEntries fun s => entries.lookup s
  rw [slotEntries_lookup hslots hsorted] at hcount
  refine ⟨hcount, ⟨last.1, hslots _ hmem, rfl, ?_⟩, ?_⟩
  · exact Option.isSome_iff_exists.2 ⟨last.2, (lookup_eq_some_iff hsorted).2 hmem⟩
  · rintro i ⟨s, -, rfl, hs⟩
    obtain ⟨blob, hblob⟩ := Option.isSome_iff_exists.1 hs
    exact Nat.add_le_add_left (slot_le_last hsorted hlast ((lookup_eq_some_iff hsorted).1 hblob)) _

/-- The summary of a page that passes its checks speaks of its slots. -/
theorem sums_of_summary {crypto : Crypto} {page : BlockMapPage} {limits : StorageLimits}
    {count highest : Nat} (hvalid : validatePage crypto page limits = .ok ())
    (h : page.summary = .ok (count, highest)) :
    Sums blockMapFanout PageRef.materializedBlockCount PageRef.highestMaterializedBlock
      page.firstBlock page.node count highest := by
  cases page with
  | leaf fileId firstBlock entries =>
    obtain ⟨-, ⟨-, hslots, hsorted⟩, -⟩ := validatePage_leaf.1 hvalid
    simp only [BlockMapPage.summary] at h
    split at h
    · cases h
    · rename_i last value hlast
      split at h
      · cases h
        exact sums_leaf hslots hsorted hlast
      · cases h
  | branch fileId level firstBlock entries =>
    obtain ⟨-, ⟨-, hslots, hsorted⟩, -⟩ := validatePage_branch.1 hvalid
    simp only [BlockMapPage.summary] at h
    split at h
    · split at h
      · cases h
      · rename_i top hmax
        cases h
        obtain ⟨hmem, hle⟩ := List.max?_eq_some_iff.1 hmax
        obtain ⟨e, he, htop⟩ := List.mem_map.1 hmem
        have hcount := sum_slotEntries (fun s => entries.lookup s) PageRef.materializedBlockCount
        rw [slotEntries_lookup hslots hsorted] at hcount
        refine ⟨hcount, ⟨e.1, hslots e he, e.2, (lookup_eq_some_iff hsorted).2 he, htop.symm⟩, ?_⟩
        rintro i ⟨s, -, child, hchild, rfl⟩
        exact hle _ (List.mem_map_of_mem ((lookup_eq_some_iff hsorted).1 hchild))
    · cases h

theorem exists_summary {crypto : Crypto} {page : BlockMapPage} {limits : StorageLimits}
    (h : validatePage crypto page limits = .ok ()) : ∃ count highest, page.summary = .ok (count, highest) := by
  cases page with
  | leaf fileId firstBlock entries =>
    obtain ⟨-, ⟨hne, -, -⟩, -⟩ := validatePage_leaf.1 h
    have hlast := List.getLast?_eq_some_getLast hne
    have hlt := leaf_index_lt h (List.getLast_mem hne)
    refine ⟨entries.length, firstBlock + (entries.getLast hne).1, ?_⟩
    simp only [BlockMapPage.summary, hlast, hlt, if_true]
  | branch fileId level firstBlock entries =>
    obtain ⟨⟨hlevel, hlevelNe, haligned, hdomain⟩, ⟨hne, hslots, hsorted⟩, hentries⟩ :=
      validatePage_branch.1 h
    obtain ⟨top, hmax⟩ := Option.ne_none_iff_exists'.1
      (show (entries.map fun e => e.2.highestMaterializedBlock).max? ≠ none by simpa using hne)
    obtain ⟨hmem, hle⟩ := List.max?_eq_some_iff.1 hmax
    obtain ⟨e, he, htop⟩ := List.mem_map.1 hmem
    have hsum := summarizes_of_slots Prod.fst (fun e => e.2.materializedBlockCount)
      (fun e => e.2.highestMaterializedBlock) hlevel haligned hdomain hslots hsorted
      (fun e he => child_span hlevelNe (hentries e he).1 (hentries e he).2.1 (hentries e he).2.2)
      (fun e he => hle _ (List.mem_map_of_mem he)) ⟨e, he, htop⟩
    have hcount : (entries.map fun e => e.2.materializedBlockCount).sum < 2 ^ 64 :=
      hsum.count_le.trans_lt ((Nat.le_add_left _ _).trans_lt (coverage_lt hdomain))
    refine ⟨(entries.map fun e => e.2.materializedBlockCount).sum, top, ?_⟩
    simp only [BlockMapPage.summary, hcount, if_true, hmax]

theorem MapScope.Sound.summarized {scope : MapScope} (h : scope.Sound pages) :
    Summarized blockMapFanout (opening pages)
      PageRef.materializedBlockCount PageRef.highestMaterializedBlock := by
  rintro level first reference node ⟨-, rfl, page, hpage, rfl⟩
  obtain ⟨bytes, hin⟩ := h _ _ hpage
  obtain ⟨-, hvalid, -, -, hfirst, hsummary⟩ := hin.facts
  exact hfirst ▸ sums_of_summary hvalid hsummary

/-! ## Whole maps -/

/-- The pages under `root` map block `i` to `m i`, under the lowest root that covers the blocks. -/
structure MapOf (pages : PageRef → BlockMapPage → Prop) (root : Option PageRef)
    (m : Nat → Option BlobRef) : Prop where
  maps : ∀ reference ∈ root, Maps blockMapFanout (opening pages) m reference.level 0 root
  blank : ∀ i, (∀ reference ∈ root, span blockMapFanout reference.level ≤ i) → m i = none
  lowest : ∀ reference ∈ root, minimumRootLevel reference.highestMaterializedBlock = .ok reference.level

theorem MapOf.mono {pages' : PageRef → BlockMapPage → Prop} {root : Option PageRef}
    {m : Nat → Option BlobRef} (h : ∀ reference page, pages reference page → pages' reference page)
    (hmap : MapOf pages root m) : MapOf pages' root m :=
  ⟨fun reference hmem => (hmap.maps reference hmem).mono (opening_mono h), hmap.blank, hmap.lowest⟩

/-- What the references say is right for the pages under them, and no page is empty. -/
def Exact (m : Nat → Option BlobRef) (level first : Nat) (reference : PageRef) : Prop :=
  reference.materializedBlockCount = occupied m first (span blockMapFanout level) ∧
    Greatest m first (span blockMapFanout level) reference.highestMaterializedBlock

section Exactness

variable {scope : MapScope} {pages : PageRef → BlockMapPage → Prop} {m : Nat → Option BlobRef}
  {level first : Nat} {reference : PageRef}

theorem exact_of_maps (sound : scope.Sound pages)
    (h : Maps blockMapFanout (opening pages) m level first (some reference)) :
    Exact m level first reference :=
  Maps.exact fanout_pos sound.summarized h

/-- A stored page maps at least one block. -/
theorem Exact.exists_block (h : Exact m level first reference) :
    ∃ i, first ≤ i ∧ i < first + span blockMapFanout level ∧ (m i).isSome = true :=
  ⟨_, h.2.1⟩

/-- References that open and map as `m` does. -/
theorem reference_of_maps (sound : scope.Sound pages)
    (h : Maps blockMapFanout (opening pages) m level first (some reference)) :
    reference.level = level ∧ reference.firstBlock = first ∧
      reference.Valid scope.repository.limits ∧
      scope.repository.NamesPage scope.context scope.fileId level first reference.key := by
  obtain ⟨node, ⟨rfl, rfl, page, hpage, -⟩, -⟩ := maps_some.1 h
  obtain ⟨bytes, hin⟩ := sound _ _ hpage
  exact ⟨rfl, rfl, hin.facts.1, hin.key.2⟩

/-- **Every page of a map is exact.** -/
theorem maps_exact (sound : scope.Sound pages) {root : Option PageRef}
    (h : Maps blockMapFanout (opening pages) m level first root) :
    Maps blockMapFanout (fun level first reference node =>
      opening pages level first reference node ∧ Exact m level first reference) m level first root := by
  induction level generalizing first root with
  | zero =>
    cases root with
    | none => exact h
    | some reference =>
      have hexact := exact_of_maps sound h
      obtain ⟨slots, hnode, hslots⟩ := h
      exact ⟨slots, ⟨hnode, hexact⟩, hslots⟩
  | succ level ih =>
    cases root with
    | none => exact h
    | some reference =>
      have hexact := exact_of_maps sound h
      obtain ⟨slots, hnode, hslots⟩ := h
      exact ⟨slots, ⟨hnode, hexact⟩, fun s hs => ih (hslots s hs)⟩

end Exactness

/-! ## Looking up a block -/

section Lookup

variable {scope : MapScope} {view : View} {m : Nat → Option BlobRef}

/-- A page on a path of the cursor. -/
structure OnPath (scope : MapScope) (view : View) (m : Nat → Option BlobRef)
    (entry : PageRef × BlockMapPage) : Prop where
  opens : scope.Opens view entry.1 entry.2
  maps : NodeMaps blockMapFanout (opening (scope.Opens view)) m entry.1.level entry.1.firstBlock
    entry.2.node

theorem onPath_of_maps {level first : Nat} {reference : PageRef} {page : BlockMapPage}
    (h : Maps blockMapFanout (opening (scope.Opens view)) m level first (some reference))
    (hopens : scope.Opens view reference page) : OnPath scope view m (reference, page) := by
  obtain ⟨node, ⟨rfl, rfl, page', hpage', rfl⟩, hmaps⟩ := maps_some.1 h
  cases hopens.unique hpage'
  exact ⟨hopens, hmaps⟩

theorem pageSlot_of_covers {level firstBlock i : Nat} (h : PageContains level firstBlock i) :
    (fromFormat (pageSlot level firstBlock i) : Except (StorageError E) Nat) =
      .ok ((i - firstBlock) / slotCoverage level) := by
  simp only [pageSlot, ensure_of h, ok_bind]
  rfl

/-- A page that opens covers its own range. -/
theorem covers_iff {reference : PageRef} {limits : StorageLimits} (h : reference.Valid limits) {i : Nat} :
    reference.Covers i ↔ reference.firstBlock ≤ i ∧
      i < reference.firstBlock + span blockMapFanout reference.level := by
  have hlevel := h.level
  have hword := coverage_lt h.domain
  rw [span_eq]
  exact ⟨fun hc => hc.2.2, fun hi => ⟨hlevel, hword, hi⟩⟩

/-- **The loop of `lookup` finds the block.** -/
theorem meets_descend (hscope : scope.Bound) {may : Policy} {ledger : Ledger} {i levels : Nat}
    {entry : PageRef × BlockMapPage} {path : CursorPath} (hlevels : entry.1.level < levels)
    (hcovers : entry.1.Covers i) (hpath : ∀ e ∈ entry :: path, OnPath scope ledger.view m e) :
    Meets (scope.repository.onMap may)
      (fun r l => l = ledger ∧ r.1 = m i ∧ ∀ e ∈ r.2, OnPath scope ledger.view m e)
      (fun e l => e.Refusal ∧ l = ledger)
      (scope.descend i levels (entry :: path) : MapProg E (Option BlobRef × CursorPath)) ledger := by
  induction levels generalizing entry path with
  | zero => exact absurd hlevels (Nat.not_lt_zero _)
  | succ levels ih =>
    obtain ⟨reference, page⟩ := entry
    obtain ⟨hopens, hmaps⟩ := hpath (reference, page) (by simp)
    dsimp only at hlevels hcovers hopens hmaps
    obtain ⟨bytes, -, hin⟩ := hopens
    obtain ⟨hvalid, hpage, -, hlevel, hfirst, -⟩ := hin.facts
    obtain ⟨hlow, hhigh⟩ := (covers_iff hvalid).1 hcovers
    cases page with
    | leaf file firstBlock entries =>
      obtain rfl : firstBlock = reference.firstBlock := hfirst
      have hzero : reference.level = 0 := hlevel.symm
      rw [PageRef.Covers, hzero] at hcovers
      rw [hzero] at hmaps hhigh
      rw [span_zero] at hhigh
      have hslot : entries.lookup (i - reference.firstBlock) = m i := by
        have hindex : reference.firstBlock + (i - reference.firstBlock) = i := by omega
        exact (hmaps (i - reference.firstBlock) (by omega)).symm.trans (congrArg m hindex)
      refine Meets.ok_bind (pageSlot_of_covers hcovers) ⟨rfl, ?_, hpath⟩
      simpa [slotCoverage] using hslot
    | branch file level firstBlock entries =>
      obtain rfl : firstBlock = reference.firstBlock := hfirst
      obtain ⟨⟨-, hne, -⟩, -, -⟩ := validatePage_branch.1 hpage
      obtain ⟨child, rfl⟩ := Nat.exists_eq_succ_of_ne_zero hne
      have hlevel' : reference.level = child + 1 := hlevel.symm
      rw [PageRef.Covers, hlevel'] at hcovers
      rw [hlevel'] at hmaps hhigh hlevels
      rw [span_succ] at hhigh
      obtain ⟨s, hs, hslot, hlow', hhigh'⟩ := exists_slot (span_pos fanout_pos child) hlow hhigh
      refine Meets.ok_bind (pageSlot_of_covers hcovers) ?_
      rw [slotCoverage_succ, ← hslot]
      have hsub := hmaps s hs
      dsimp only at hsub
      cases hchild : entries.lookup s with
      | none =>
        rw [hchild, maps_none] at hsub
        exact ⟨rfl, (hsub i hlow' hhigh').symm, hpath⟩
      | some next =>
        rw [hchild] at hsub
        obtain ⟨hnextLevel, hnextFirst, hnextValid, -⟩ :=
          reference_of_maps (scope.sound_opens ledger.view) hsub
        obtain ⟨node, ⟨-, -, page, hopens, -⟩, -⟩ := maps_some.1 hsub
        refine Meets.bind ((meets_loadPage hscope hopens).imp ?_)
        rintro page' l ⟨rfl, rfl⟩
        refine ih (by rw [hnextLevel]; omega) ?_ fun e he => ?_
        · rw [covers_iff hnextValid, hnextLevel, hnextFirst]
          exact ⟨hlow', hhigh'⟩
        · rcases List.mem_cons.1 he with rfl | he
          · exact onPath_of_maps hsub hopens
          · exact hpath e he

/-- **`lookup` finds what the map says**, from any path that it has walked before. -/
theorem meets_lookup (hscope : scope.Bound) {may : Policy} {ledger : Ledger} {root : Option PageRef}
    {path : CursorPath} (hmap : MapOf (scope.Opens ledger.view) root m)
    (hpath : ∀ e ∈ path, OnPath scope ledger.view m e) (i : Nat) :
    Meets (scope.repository.onMap may)
      (fun r l => l = ledger ∧ r.1 = m i ∧ ∀ e ∈ r.2, OnPath scope ledger.view m e)
      (fun e l => e.Refusal ∧ l = ledger)
      (scope.lookup root path i : MapProg E (Option BlobRef × CursorPath)) ledger := by
  have hlevels : ∀ {reference : PageRef}, reference.Valid scope.repository.limits →
      reference.level < mapLevels := fun h => Nat.lt_succ_of_le h.level
  unfold MapScope.lookup
  cases hdrop : path.dropWhile fun entry => ¬ entry.1.Covers i with
  | nil =>
    cases root with
    | none => exact ⟨rfl, (hmap.blank i (by simp)).symm, by simp⟩
    | some reference =>
      have hmaps := hmap.maps reference rfl
      obtain ⟨-, hfirst, hvalid, -⟩ := reference_of_maps (scope.sound_opens ledger.view) hmaps
      by_cases hcovers : reference.Covers i
      · obtain ⟨node, ⟨-, -, page, hopens, -⟩, -⟩ := maps_some.1 hmaps
        simp only [Option.filter_some, hcovers, decide_true, if_true]
        refine Meets.bind ((meets_loadPage hscope hopens).imp ?_)
        rintro page' l ⟨rfl, rfl⟩
        refine meets_descend hscope (hlevels hvalid) hcovers fun e he => ?_
        rw [List.mem_singleton.1 he]
        exact onPath_of_maps hmaps hopens
      · simp only [Option.filter_some, hcovers, decide_false, Bool.false_eq_true, if_false]
        refine ⟨rfl, (hmap.blank i fun r hr => ?_).symm, by simp⟩
        obtain rfl : reference = r := Option.some.inj hr
        rw [covers_iff hvalid, hfirst] at hcovers
        omega
  | cons entry rest =>
    have hmem : ∀ e ∈ entry :: rest, OnPath scope ledger.view m e := fun e he =>
      hpath e ((List.dropWhile_suffix _).subset (hdrop ▸ he))
    have hcovers : entry.1.Covers i := by
      have hhead := List.head_dropWhile_not (fun entry : PageRef × BlockMapPage => ¬ entry.1.Covers i)
        (l := path) (by rw [hdrop]; simp)
      simpa only [hdrop, List.head_cons, decide_eq_false_iff_not, not_not] using hhead
    obtain ⟨bytes, -, hin⟩ := (hmem entry (by simp)).opens
    exact meets_descend hscope (hlevels hin.facts.1) hcovers hmem

end Lookup

end W9pt.Storage

import W9pt.Storage.Tree

/-!
# Reusing the path of a cursor

A `MapCursor` keeps the pages from the root to the page it looked at last, and the next lookup starts at
the deepest of them that covers its block. Here the world answers each query in one way (`Prog.replay`):
a page always loads as the same page, or always fails. In every such world, whatever its pages hold, a
lookup with a used cursor ends as one with a fresh cursor, and it makes the last of the queries that the
fresh one makes.

| here | there |
|---|---|
| `MapScope.cursorAfter` | the `path` of a `MapCursor` after some lookups (layout/block_map.rs:143) |
| `MapScope.Chained` | each page of the path is an entry of the one above |
| `MapScope.OnWay` | the pages from the root along the slots of a block |
-/

namespace W9pt.Storage

open Lib Lib.Radix

variable {E : Type}

/-- A world in which each query is answered in one way. -/
abbrev MapWorld (E : Type) := (q : MapQuery) → Except (StorageError E) (MapAnswer q)

/-- The page loads at this depth. -/
def MapScope.Loads (scope : MapScope) (world : MapWorld E) (reference : PageRef) (depth : Nat)
    (page : BlockMapPage) : Prop :=
  ((scope.loadPage reference depth).replay world).2 = .ok page

/-- The path of a cursor after it has looked up these blocks. -/
def MapScope.cursorAfter (scope : MapScope) (root : Option PageRef) (world : MapWorld E)
    (indices : List Nat) : Except (StorageError E) CursorPath :=
  indices.foldlM (fun path i => ((scope.lookup root path i).replay world).2.map Prod.snd) []

/-- The pages from the root along the slots of block `i`. -/
inductive MapScope.OnWay (scope : MapScope) (root : Option PageRef) (world : MapWorld E) (i : Nat) :
    PageRef → Prop where
  | top {reference : PageRef} (first : root = some reference) (covers : reference.Covers i) :
      OnWay scope root world i reference
  | child {reference child : PageRef} {file : FileId} {level firstBlock depth slot : Nat}
      {entries : List (Nat × PageRef)} (above : OnWay scope root world i reference)
      (loads : scope.Loads world reference depth (.branch file level firstBlock entries))
      (selects : pageSlot level firstBlock i = .ok slot) (found : entries.lookup slot = some child) :
      OnWay scope root world i child

/-- The query concerns the budget of reads, or loads one of the pages. -/
def MapQuery.LoadsOnly (pages : PageRef → Prop) : MapQuery → Prop
  | .object (.load key _ _) => ∃ reference, pages reference ∧ key = reference.key
  | .object (.store ..) | .chargeWrite => False
  | .observeDepth _ | .chargeRead => True

/-- What it means that the reuse of a cursor cannot be seen. -/
structure CursorReuse (scope : MapScope) (root : Option PageRef) (world : MapWorld E) : Prop where
  /-- A used cursor finds what a fresh one finds, and ends at the same path. -/
  same : ∀ indices path, scope.cursorAfter root world indices = .ok path → ∀ i,
    ((scope.lookup root path i).replay world).2 = ((scope.lookup root [] i).replay world).2
  /-- It makes the last of the queries that a fresh one makes. -/
  fewer : ∀ indices path, scope.cursorAfter root world indices = .ok path → ∀ i,
    ((scope.lookup root path i).replay world).1 <:+ ((scope.lookup root [] i).replay world).1
  /-- Only pages on the way to the block are loaded. -/
  onWay : ∀ i, ∀ q ∈ ((scope.lookup root [] i).replay world).1, q.LoadsOnly (scope.OnWay root world i)

variable {scope : MapScope} {root : Option PageRef} {world : MapWorld E} {i n slot level firstBlock : Nat}
  {reference child : PageRef} {page : BlockMapPage} {path path' : CursorPath} {file : FileId}
  {entries : List (Nat × PageRef)} {entry : PageRef × BlockMapPage} {blob : Option BlobRef}

/-! ## Loaded pages -/

variable {depth : Nat}

theorem always_loadPage :
    (scope.loadPage reference depth : MapProg E BlockMapPage).Always
      fun page => ∃ bytes, scope.PageIn reference bytes page := by
  refine Prog.always_bind_of_forall fun _ => Prog.always_bind_of_forall fun _ => Prog.Always.handle ?_
  refine Prog.always_bind_of_forall fun _ => Prog.always_bind_of_forall fun bytes => ?_
  exact Prog.always_lift fun page hpage => ⟨bytes, openMapPage_eq_ok.1 hpage⟩

theorem asks_loadPage {pages : PageRef → Prop} (h : pages reference) :
    (scope.loadPage reference depth : MapProg E BlockMapPage).Asks (·.LoadsOnly pages) := by
  refine (Prog.asks_query trivial).bind fun _ => (Prog.asks_query trivial).bind fun _ => ?_
  have hload : (scope.repository.loadMapPage scope.context scope.fileId reference :
      ObjectProg E BlockMapPage).Asks fun q => (MapQuery.object q).LoadsOnly pages :=
    (Prog.asks_lift _).bind fun _ => (Prog.asks_query ⟨reference, h, rfl⟩).bind fun _ => Prog.asks_lift _
  unfold onObjects
  refine Prog.Asks.handle ?_ hload
  exact fun q hq => Prog.asks_query hq

/-- An entry of a page: it lies below the page, and a block that it covers is in its slot. -/
theorem child_of_pageIn {bytes : Bytes}
    (h : scope.PageIn reference bytes (.branch file level firstBlock entries))
    (found : entries.lookup slot = some child) :
    child.level < reference.level ∧
      (child.Covers i → reference.Covers i ∧ pageSlot level firstBlock i = .ok slot) := by
  obtain ⟨-, hpage, -, hlevel, hfirst, -⟩ := h.facts
  obtain ⟨⟨hmax, hne, -, hdomain⟩, ⟨-, hslots, hsorted⟩, hentries⟩ := validatePage_branch.1 hpage
  have hmem := (lookup_eq_some_iff hsorted).1 found
  obtain ⟨-, hchild, hstart⟩ := hentries _ hmem
  obtain ⟨below, rfl⟩ : ∃ below, level = below + 1 := ⟨level - 1, by omega⟩
  dsimp only [BlockMapPage.level, BlockMapPage.firstBlock] at hlevel hfirst hchild hstart
  rw [Nat.add_sub_cancel] at hchild
  refine ⟨by omega, ?_⟩
  rintro ⟨-, -, hlow, hhigh⟩
  rw [slotCoverage] at hstart
  rw [hchild] at hhigh
  have hwidth : 0 < 2 ^ (7 * (below + 1)) := Nat.two_pow_pos _
  have hslot : slot < blockMapFanout := hslots _ hmem
  have hend := slot_end_le firstBlock (2 ^ (7 * (below + 1))) hslot
  have hspan : blockMapFanout * 2 ^ (7 * (below + 1)) = 2 ^ (7 * (below + 1 + 1)) := by
    rw [show 7 * (below + 1 + 1) = 7 + 7 * (below + 1) by ring, pow_add]
    rfl
  rw [hspan] at hend
  have hcontains : PageContains (below + 1) firstBlock i :=
    ⟨hmax, coverage_lt hdomain, by omega, by omega⟩
  refine ⟨?_, ?_⟩
  · rwa [PageRef.Covers, ← hlevel, ← hfirst]
  · simp only [pageSlot, ensure_of hcontains, ok_bind, slotCoverage, pure_eq_ok]
    refine Nat.div_eq_of_lt_le ?_ ?_
    · omega
    · rw [Nat.succ_mul]
      omega

/-! ## The loop of a lookup -/

/-- What the loop does at a page, with whatever levels are left: it stops, or it goes on to an entry. -/
inductive LoopStep (scope : MapScope) (E : Type) (i : Nat) (reference : PageRef) (page : BlockMapPage)
    (path : CursorPath) : Prop where
  | stops (r : Except (StorageError E) (Option BlobRef × CursorPath))
      (stays : ∀ x, r = .ok x → x.2 = (reference, page) :: path)
      (eq : ∀ n, scope.descend i (n + 1) ((reference, page) :: path) = Prog.lift r)
  | enters {file : FileId} {level firstBlock slot : Nat} {entries : List (Nat × PageRef)} {child : PageRef}
      (branch : page = .branch file level firstBlock entries)
      (selects : pageSlot level firstBlock i = .ok slot) (found : entries.lookup slot = some child)
      (eq : ∀ n, (scope.descend i (n + 1) ((reference, page) :: path) : MapProg E _) =
        scope.loadPage child (path.length + 2) >>= fun next =>
          scope.descend i n ((child, next) :: (reference, page) :: path))

theorem loopStep (scope : MapScope) (E : Type) (i : Nat) (reference : PageRef) (page : BlockMapPage)
    (path : CursorPath) : LoopStep scope E i reference page path := by
  cases page with
  | leaf file firstBlock entries =>
    cases hslot : pageSlot 0 firstBlock i with
    | error e =>
      refine .stops (.error (.format e)) nofun fun n => ?_
      simp only [MapScope.descend, hslot]
      rfl
    | ok slot =>
      refine .stops (.ok (entries.lookup slot, _)) (by rintro _ ⟨⟩; rfl) fun n => ?_
      simp only [MapScope.descend, hslot]
      rfl
  | branch file level firstBlock entries =>
    cases hslot : pageSlot level firstBlock i with
    | error e =>
      refine .stops (.error (.format e)) nofun fun n => ?_
      simp only [MapScope.descend, hslot]
      rfl
    | ok slot =>
      cases hfound : entries.lookup slot with
      | none =>
        refine .stops (.ok (none, _)) (by rintro _ ⟨⟩; rfl) fun n => ?_
        simp only [MapScope.descend, hslot, fromFormat, mapErr, Prog.lift, Prog.done_bind, hfound]
        rfl
      | some child =>
        refine .enters rfl hslot hfound fun n => ?_
        simp only [MapScope.descend, hslot, fromFormat, mapErr, Prog.lift, Prog.done_bind, hfound]
        rfl

/-- The loop has levels enough. -/
theorem replay_descend_levels (n' : Nat) {bytes : Bytes} (h : scope.PageIn reference bytes page)
    (hn : reference.level < n) (hn' : reference.level < n') :
    (scope.descend i n ((reference, page) :: path)).replay world =
      (scope.descend i n' ((reference, page) :: path)).replay world := by
  induction n generalizing n' reference page path bytes with
  | zero => exact absurd hn (Nat.not_lt_zero _)
  | succ n ih =>
    obtain ⟨n', rfl⟩ := Nat.exists_eq_succ_of_ne_zero (Nat.ne_zero_of_lt hn')
    cases loopStep scope E i reference page path with
    | stops r _ eq => rw [eq, eq]
    | enters branch _ found eq =>
      rw [eq, eq, Prog.replay_bind, Prog.replay_bind]
      subst branch
      have hlevel := (child_of_pageIn (i := i) h found).1
      split
      · rename_i next hload
        obtain ⟨bytes', hnext⟩ := always_loadPage.replay hload
        rw [ih n' hnext (by omega) (by omega)]
      · rfl

/-! ## Paths of a cursor -/

/-- Each page of the path loads at its depth, and is an entry of the page above it. -/
inductive MapScope.Chained (scope : MapScope) (root : Option PageRef) (world : MapWorld E) :
    CursorPath → Prop where
  | nil : Chained scope root world []
  | top {reference : PageRef} {page : BlockMapPage} (first : root = some reference)
      (loads : scope.Loads world reference 1 page) : Chained scope root world [(reference, page)]
  | child {reference child : PageRef} {file : FileId} {level firstBlock slot : Nat}
      {entries : List (Nat × PageRef)} {page : BlockMapPage} {path : CursorPath}
      (above : Chained scope root world ((reference, .branch file level firstBlock entries) :: path))
      (found : entries.lookup slot = some child) (loads : scope.Loads world child (path.length + 2) page) :
      Chained scope root world
        ((child, page) :: (reference, .branch file level firstBlock entries) :: path)

theorem MapScope.Chained.pageIn (h : scope.Chained root world (entry :: path)) :
    ∃ bytes, scope.PageIn entry.1 bytes entry.2 := by
  cases h with
  | top _ loads => exact always_loadPage.replay loads
  | child _ _ loads => exact always_loadPage.replay loads

theorem MapScope.Chained.dropWhile (h : scope.Chained root world path) (p : PageRef × BlockMapPage → Bool) :
    scope.Chained root world (path.dropWhile p) := by
  induction h with
  | nil => exact .nil
  | top first loads =>
    rw [List.dropWhile_cons]
    split
    · exact .nil
    · exact .top first loads
  | child above found loads ih =>
    rw [List.dropWhile_cons]
    split
    · exact ih
    · exact .child above found loads

/-- A lookup leaves a path of this kind. -/
theorem MapScope.Chained.descend (h : scope.Chained root world ((reference, page) :: path))
    (hend : ((scope.descend i n ((reference, page) :: path)).replay world).2 = .ok (blob, path')) :
    scope.Chained root world path' := by
  induction n generalizing reference page path with
  | zero => cases hend
  | succ n ih =>
    cases loopStep scope E i reference page path with
    | stops r stays eq =>
      rw [eq, Prog.replay_lift] at hend
      rwa [← stays _ hend] at h
    | enters branch _ found eq =>
      rw [eq, Prog.replay_bind] at hend
      subst branch
      split at hend
      · rename_i next hload
        exact ih (.child h found hload) hend
      · cases hend

/-- **A fresh lookup comes to the page where a used cursor goes on.** By induction on the path: the page
covers the block, so the one above it does, and the loop selects the slot of the page. -/
theorem MapScope.Chained.resumes (h : scope.Chained root world (entry :: path))
    (covers : entry.1.Covers i) (levels : entry.1.level < n) :
    ∃ asked, (scope.lookup root [] i).replay world =
      (asked ++ ((scope.descend i n (entry :: path)).replay world).1,
        ((scope.descend i n (entry :: path)).replay world).2) := by
  generalize hpath : entry :: path = whole at h
  induction h generalizing entry path n with
  | nil => cases hpath
  | @top reference page first loads =>
    cases hpath
    obtain ⟨bytes, hpage⟩ := always_loadPage.replay loads
    have hmax : reference.level < mapLevels := Nat.lt_succ_of_le hpage.facts.1.level
    refine ⟨((scope.loadPage reference 1).replay world).1, ?_⟩
    have hlookup : (scope.lookup root [] i : MapProg E (Option BlobRef × CursorPath)) =
        (scope.loadPage reference 1 >>= fun page => scope.descend i mapLevels [(reference, page)]) := by
      simp only [MapScope.lookup, List.dropWhile_nil, first, Option.filter_some]
      rw [if_pos (by simpa using covers)]
    rw [hlookup, Prog.replay_bind_ok loads, replay_descend_levels n hpage hmax levels]
  | @child parent next file level firstBlock slot entries page above hchain found loads ih =>
    cases hpath
    obtain ⟨bytes, hpage⟩ := hchain.pageIn
    obtain ⟨hlevel, hcovers⟩ := child_of_pageIn (i := i) hpage found
    obtain ⟨hparent, hslot⟩ := hcovers covers
    obtain ⟨asked, hasked⟩ := ih (n := parent.level + n + 1) hparent (by dsimp only; omega) rfl
    have hstep : (scope.descend i (parent.level + n + 1)
        ((parent, .branch file level firstBlock entries) :: above) : MapProg E _) =
        scope.loadPage next (above.length + 2) >>= fun page => scope.descend i (parent.level + n)
          ((next, page) :: (parent, .branch file level firstBlock entries) :: above) := by
      simp only [MapScope.descend, hslot, fromFormat, mapErr, Prog.lift, Prog.done_bind, found]
      rfl
    rw [hstep, Prog.replay_bind_ok loads, ← List.append_assoc] at hasked
    obtain ⟨bytes', hpage'⟩ := always_loadPage.replay loads
    rw [replay_descend_levels (parent.level + n) hpage' levels (by dsimp only at levels; omega)]
    exact ⟨_, hasked⟩

/-- A lookup starts from what is left of the path, or from the root. -/
theorem lookup_eq (root : Option PageRef) (path : CursorPath) (i : Nat) :
    (scope.lookup root path i : MapProg E (Option BlobRef × CursorPath)) =
      match path.dropWhile fun entry => ¬ entry.1.Covers i with
      | [] => scope.lookup root [] i
      | entry :: rest => scope.descend i mapLevels (entry :: rest) := by
  unfold MapScope.lookup
  cases path.dropWhile fun entry => ¬ entry.1.Covers i <;> rfl

theorem MapScope.Chained.lookup (h : scope.Chained root world path) (i : Nat) :
    ∃ asked, (scope.lookup root [] i).replay world =
      (asked ++ ((scope.lookup root path i).replay world).1,
        ((scope.lookup root path i).replay world).2) := by
  rw [lookup_eq root path i]
  have hrest := h.dropWhile fun entry => ¬ entry.1.Covers i
  cases hdrop : path.dropWhile fun entry => ¬ entry.1.Covers i with
  | nil => exact ⟨[], rfl⟩
  | cons entry rest =>
    rw [hdrop] at hrest
    obtain ⟨bytes, hpage⟩ := hrest.pageIn
    have hcovers : entry.1.Covers i := by
      have hhead := List.head_dropWhile_not (fun entry : PageRef × BlockMapPage => ¬ entry.1.Covers i)
        (l := path) (by rw [hdrop]; simp)
      simpa only [hdrop, List.head_cons, decide_eq_false_iff_not, not_not] using hhead
    exact hrest.resumes hcovers (Nat.lt_succ_of_le hpage.facts.1.level)

theorem MapScope.Chained.lookup_path (h : scope.Chained root world path)
    (hend : ((scope.lookup root path i).replay world).2 = .ok (blob, path')) :
    scope.Chained root world path' := by
  have hfresh : ((scope.lookup root [] i).replay world).2 = .ok (blob, path') := by
    obtain ⟨asked, heq⟩ := h.lookup i
    rw [heq, hend]
  unfold MapScope.lookup at hfresh
  simp only [List.dropWhile_nil] at hfresh
  cases hroot : root.filter fun root => root.Covers i with
  | none =>
    rw [hroot] at hfresh
    cases hfresh
    exact .nil
  | some reference =>
    simp only [hroot] at hfresh
    cases hload : ((scope.loadPage reference 1).replay world).2 with
    | error e =>
      rw [Prog.replay_bind, hload] at hfresh
      cases hfresh
    | ok page =>
      rw [Prog.replay_bind_ok hload] at hfresh
      exact MapScope.Chained.descend (.top (Option.filter_eq_some_iff.1 hroot).1 hload) hfresh

theorem chained_of_cursorAfter {indices : List Nat}
    (h : scope.cursorAfter root world indices = .ok path) : scope.Chained root world path := by
  refine foldlM_ok_invariant (P := scope.Chained root world) ?_ h .nil
  intro path i path' hstep hpath
  obtain ⟨⟨blob, _⟩, hend, rfl⟩ := map_eq_ok.1 (show Prod.snd <$> _ = Except.ok path' from hstep)
  exact hpath.lookup_path hend

/-! ## Queries -/

theorem asked_descend (way : scope.OnWay root world i reference)
    (loads : scope.Loads world reference depth page) :
    ∀ q ∈ ((scope.descend i n ((reference, page) :: path)).replay world).1,
      q.LoadsOnly (scope.OnWay root world i) := by
  induction n generalizing reference page path depth with
  | zero => exact fun _ hq => nomatch hq
  | succ n ih =>
    cases loopStep scope E i reference page path with
    | stops r _ eq =>
      rw [eq, Prog.replay_lift]
      exact fun _ hq => nomatch hq
    | @enters file level firstBlock slot entries child branch selects found eq =>
      subst branch
      have hway : scope.OnWay root world i child := .child way loads selects found
      rw [eq]
      exact (asks_loadPage hway).replay_bind fun next hload => ih hway hload

theorem asked_lookup (i : Nat) :
    ∀ q ∈ ((scope.lookup root [] i).replay world).1, q.LoadsOnly (scope.OnWay root world i) := by
  unfold MapScope.lookup
  simp only [List.dropWhile_nil]
  cases hroot : root.filter fun root => root.Covers i with
  | none => exact fun _ hq => nomatch hq
  | some reference =>
    obtain ⟨hfirst, hcovers⟩ := Option.filter_eq_some_iff.1 hroot
    have hway : scope.OnWay root world i reference := .top hfirst (by simpa using hcovers)
    exact (asks_loadPage hway).replay_bind fun page hload => asked_descend hway hload

/-- **The reuse of a cursor cannot be seen**, in any order of the blocks. -/
theorem cursor_reuse_invisible (scope : MapScope) (root : Option PageRef) (world : MapWorld E) :
    CursorReuse scope root world where
  same indices path h i := by
    obtain ⟨asked, heq⟩ := (chained_of_cursorAfter h).lookup i
    rw [heq]
  fewer indices path h i := by
    obtain ⟨asked, heq⟩ := (chained_of_cursorAfter h).lookup i
    rw [heq]
    exact List.suffix_append _ _
  onWay := asked_lookup

end W9pt.Storage

import W9pt.Storage.Repository

/-!
# The block map (`layout/block_map.rs`)

A sparse file keeps its blocks in a radix tree of immutable pages, 128 entries a page. The code walks the
tree under a budget of page reads, page writes and memory, and rewrites it by copying the pages on the
changed paths.

The budget is threaded through every function as `&mut MapBudget`. Here its three methods are queries
beside those of the objects (`MapQuery`), and `metered` runs a program with a budget.

A `BTreeMap` of updates is the list of its entries in increasing order, a map of slots a function. The
recursions on pages take the number of levels as fuel: a page at level `n` has children at level
`n - 1` only, as `load_map_page` checks.
-/

namespace W9pt.Storage

open Lib

variable {E α : Type}

/-! ## Budgets -/

def saturatingAdd32 (a b : Nat) : Nat := min (a + b) (2 ^ 32 - 1)

/-- Work done so far (block_map.rs:24). -/
structure MapWork where
  pageReads : Nat := 0
  pageWrites : Nat := 0
  peakWorkingBytes : Nat := 0

/-- block_map.rs:30. -/
structure MapBudget where
  limits : StorageLimits
  work : MapWork := {}
  frontierBytes : Nat
  prepaidReads : Nat := 0
  prepaidWrites : Nat := 0

/-- block_map.rs:14. -/
def pageRepresentationsPerRewriteLevel : Nat := 4

/-- One charge: a prepaid one is used up first (`charge_read` and `charge_write`). -/
def chargeCounter (kind : LimitKind) (limit prepaid used : Nat) : Except LimitError (Nat × Nat) :=
  if prepaid ≠ 0 then .ok (prepaid - 1, used)
  else do
    requireWithin kind (saturatingAdd32 used 1) limit
    return (0, saturatingAdd32 used 1)

namespace MapBudget

variable (budget : MapBudget)

/-- block_map.rs:55. -/
def chargeRead : Except LimitError MapBudget := do
  let (prepaid, reads) ← chargeCounter .mapPageReads budget.limits.maxMapPageReads
    budget.prepaidReads budget.work.pageReads
  return { budget with prepaidReads := prepaid, work := { budget.work with pageReads := reads } }

/-- block_map.rs:72. -/
def chargeWrite : Except LimitError MapBudget := do
  let (prepaid, writes) ← chargeCounter .mapPageWrites budget.limits.maxMapPageWrites
    budget.prepaidWrites budget.work.pageWrites
  return { budget with prepaidWrites := prepaid, work := { budget.work with pageWrites := writes } }

/-- block_map.rs:120. -/
def observeDepth (pages : Nat) : Except LimitError MapBudget := do
  let pageBytes := saturatingMul
    (saturatingMul budget.limits.maxMapPageBytes pageRepresentationsPerRewriteLevel) pages
  let actual := saturatingAdd pageBytes budget.frontierBytes
  requireWithin .mapWorkingBytes actual budget.limits.maxMapWorkingBytes
  return { budget with
    work := { budget.work with peakWorkingBytes := max budget.work.peakWorkingBytes actual } }

end MapBudget

/-! ## Programs with a budget -/

/-- An operation on objects or on the budget. -/
inductive MapQuery where
  | object (query : ObjectQuery)
  | observeDepth (pages : Nat)
  | chargeRead
  | chargeWrite

def MapAnswer : MapQuery → Type
  | .object query => ObjectAnswer query
  | .observeDepth _ | .chargeRead | .chargeWrite => Unit

abbrev MapProg (E α : Type) := Prog MapQuery MapAnswer (StorageError E) α

/-- Code over objects, within a budget that it does not touch. -/
def onObjects (p : ObjectProg E α) : MapProg E α :=
  p.handle fun q => Prog.query (MapQuery.object q)

def observeDepth (pages : Nat) : MapProg E Unit := Prog.query (MapQuery.observeDepth pages)

def chargeRead : MapProg E Unit := Prog.query MapQuery.chargeRead

def chargeWrite : MapProg E Unit := Prog.query MapQuery.chargeWrite

/-- A program run with a budget; what is left of the budget is returned. -/
def metered : MapProg E α → MapBudget → ObjectProg E (α × MapBudget)
  | .done a, budget => .done (a, budget)
  | .fail e, _ => .fail e
  | .ask (.object q) k, budget => .ask q fun x => metered (k x) budget
  | .ask (.observeDepth pages) k, budget =>
    Prog.lift (fromLimit (budget.observeDepth pages)) >>= metered (k ())
  | .ask .chargeRead k, budget => Prog.lift (fromLimit budget.chargeRead) >>= metered (k ())
  | .ask .chargeWrite k, budget => Prog.lift (fromLimit budget.chargeWrite) >>= metered (k ())

/-! ## Walking the map -/

/-- Where a map belongs: the parameters that every function of the walk shares. -/
structure MapScope where
  repository : Repository
  context : FileCryptoContext
  fileId : FileId

/-- block_map.rs:221. -/
def MapScope.loadPage (scope : MapScope) (reference : PageRef) (depth : Nat) :
    MapProg E BlockMapPage := do
  observeDepth depth
  chargeRead
  onObjects (scope.repository.loadMapPage scope.context scope.fileId reference)

/-- The pages from the last one looked at up to the root (block_map.rs:148). -/
abbrev CursorPath := List (PageRef × BlockMapPage)

/-- How many levels a map can have. -/
def mapLevels : Nat := blockMapMaxLevel + 1

/-- The loop of `lookup`. -/
def MapScope.descend (scope : MapScope) (blockIndex : Nat) :
    Nat → CursorPath → MapProg E (Option BlobRef × CursorPath)
  | 0, _ | _, [] => .fail (.format (.nonCanonical "page level"))
  | _ + 1, path@((_, .leaf _ firstBlock entries) :: _) => do
    let slot ← Prog.lift (fromFormat (pageSlot 0 firstBlock blockIndex))
    return (entries.lookup slot, path)
  | levels + 1, path@((_, .branch _ level firstBlock entries) :: _) => do
    let slot ← Prog.lift (fromFormat (pageSlot level firstBlock blockIndex))
    match entries.lookup slot with
    | none => return (none, path)
    | some child => do
      let page ← scope.loadPage child (path.length + 1)
      scope.descend blockIndex levels ((child, page) :: path)

/-- `lookup` (block_map.rs:167): the blob of a block and the path to resume from. -/
def MapScope.lookup (scope : MapScope) (root : Option PageRef) (path : CursorPath) (blockIndex : Nat) :
    MapProg E (Option BlobRef × CursorPath) :=
  match path.dropWhile fun entry => ¬ entry.1.Covers blockIndex with
  | [] =>
    match root.filter fun root => root.Covers blockIndex with
    | none => return (none, [])
    | some root => do
      let page ← scope.loadPage root 1
      scope.descend blockIndex mapLevels [(root, page)]
  | path => scope.descend blockIndex mapLevels path

/-- Replaced blocks in increasing order; `none` removes a block (`BTreeMap<u64, Option<BlobRef>>`). -/
abbrev Updates := List (Nat × Option BlobRef)

def Updates.range (updates : Updates) (first finish : Nat) : Updates :=
  updates.filter fun update => first ≤ update.1 ∧ update.1 < finish

/-! ## Rewriting the map -/

/-- block_map.rs:18. -/
inductive RewriteMode where
  | preflight | store

/-- The parameters that one rewrite passes down (`rewrite_node`). -/
structure Rewrite where
  scope : MapScope
  updates : Updates
  cutoff : Option Nat
  identity : PreparationIdentity
  attempt : UInt32
  mode : RewriteMode

/-- The loop of `root_at_level`. -/
def MapScope.rootAtLevel (scope : MapScope) (desiredLevel : Nat) :
    Nat → PageRef → Nat → MapProg E (Option PageRef)
  | 0, _, _ => .fail (.format (.nonCanonical "page level"))
  | levels + 1, current, depth =>
    if current.level ≤ desiredLevel then return some current
    else do
      match ← scope.loadPage current depth with
      | .branch _ _ _ ((0, child) :: _) => scope.rootAtLevel desiredLevel levels child (depth + 1)
      | _ => return none

def slotEntries {β : Type} (slots : Nat → Option β) : List (Nat × β) :=
  (List.range blockMapFanout).filterMap fun slot => (slots slot).map (slot, ·)

namespace Rewrite

variable (r : Rewrite)

/-- `old.filter(..)`: the old page if it is the one at this place (`rewrite_node`). -/
def samePlace (level firstBlock : Nat) (old : Option PageRef) : Option PageRef :=
  old.filter fun old => old.level = level ∧ old.firstBlock = firstBlock

/-- What is returned without looking at a page (`rewrite_node`). -/
def shortcut (level firstBlock finish : Nat) (old : Option PageRef) : Option (Option PageRef) :=
  if r.cutoff.any (· ≤ firstBlock) then some none
  else if r.updates.range firstBlock finish = [] ∧ r.cutoff.all (finish ≤ ·) then
    match samePlace level firstBlock old, old with
    | some old, _ => some (some old)
    | none, none => some none
    | none, some _ => none
  else none

/-- The old page at this place (`rewrite_node`). -/
def oldPage (level firstBlock : Nat) (old : Option PageRef) (depth : Nat) :
    MapProg E (Option BlockMapPage) :=
  match samePlace level firstBlock old with
  | none => return none
  | some reference => do return some (← r.scope.loadPage reference depth)

/-- The blobs of the new leaf by slot (`rewrite_node`). -/
def leafSlots (firstBlock finish : Nat) (oldPage : Option BlockMapPage) :
    Except (StorageError E) (Nat → Option BlobRef) := do
  let entries ← match oldPage with
    | none => .ok []
    | some (.leaf _ _ entries) => .ok entries
    | some (.branch ..) => .error (.format (.nonCanonical "leaf page"))
  let kept := fun slot => if r.cutoff.all (firstBlock + slot < ·) then entries.lookup slot else none
  (r.updates.range firstBlock finish).foldlM (fun slots update => do
    let slot ← fromFormat (pageSlot 0 firstBlock update.1)
    return Function.update slots slot update.2) kept

/-- The children of the old page by slot; a lower root becomes the first child
(`rewrite_node`). -/
def oldChildren (level : Nat) (old : Option PageRef) (oldPage : Option BlockMapPage) :
    Except (StorageError E) (Nat → Option PageRef) :=
  match oldPage with
  | some (.branch _ _ _ entries) => .ok fun slot => entries.lookup slot
  | some (.leaf ..) => .error (.format (.nonCanonical "branch page"))
  | none =>
    match old.filter fun old => old.level < level with
    | some reference => .ok (Function.update (fun _ => none) 0 (some reference))
    | none => .ok fun _ => none

/-- One iteration over the slots (`rewrite_node`); `level` is that of the children. -/
def rewriteSlot (level firstBlock childCoverage : Nat)
    (rewriteChild : Nat → Option PageRef → MapProg E (Option PageRef))
    (children : Nat → Option PageRef) (slot : Nat) : MapProg E (Nat → Option PageRef) := do
  let childFirst ← Prog.lift (fromFormat (addWord firstBlock (slot * childCoverage) "child page range"))
  let childEnd ← Prog.lift (fromFormat (addWord childFirst childCoverage "child page range"))
  if r.cutoff.any (· ≤ childFirst) then return Function.update children slot none
  else if r.updates.range childFirst childEnd ≠ [] ∨
      r.cutoff.any (fun cutoff => childFirst < cutoff ∧ cutoff < childEnd) ∨
      (children slot).any (fun child => child.level ≠ level) then do
    let replacement ← rewriteChild childFirst (children slot)
    return Function.update children slot replacement
  else return children

/-- The end of `rewrite_node`: an equal page is kept, another one is stored. -/
def emit (old : Option PageRef) (oldPage : Option BlockMapPage) (page : BlockMapPage) :
    MapProg E (Option PageRef) :=
  if oldPage = some page then return old
  else do
    chargeWrite
    match r.mode with
    | .preflight => do
      let (reference, _) ← Prog.lift
        (r.scope.repository.expectedMapPage r.scope.context page r.identity r.attempt)
      return some reference
    | .store => do
      return some (← onObjects
        (r.scope.repository.storeMapPage r.scope.context page r.identity r.attempt))

/-- block_map.rs:442. -/
def rewriteNode : Nat → Nat → Option PageRef → Nat → MapProg E (Option PageRef)
  | 0, firstBlock, old, depth => do
    observeDepth depth
    let coverage ← Prog.lift (fromFormat (pageCoverage 0))
    let finish ← Prog.lift (fromFormat (addWord firstBlock coverage "mapping page range"))
    match r.shortcut 0 firstBlock finish old with
    | some result => return result
    | none => do
      let oldPage ← r.oldPage 0 firstBlock old depth
      let slots ← Prog.lift (r.leafSlots firstBlock finish oldPage)
      if slotEntries slots = [] then return none
      else r.emit old oldPage (.leaf r.scope.fileId firstBlock (slotEntries slots))
  | level + 1, firstBlock, old, depth => do
    observeDepth depth
    let coverage ← Prog.lift (fromFormat (pageCoverage (level + 1)))
    let finish ← Prog.lift (fromFormat (addWord firstBlock coverage "mapping page range"))
    match r.shortcut (level + 1) firstBlock finish old with
    | some result => return result
    | none => do
      let oldPage ← r.oldPage (level + 1) firstBlock old depth
      let childCoverage ← Prog.lift (fromFormat (pageCoverage level))
      let children ← Prog.lift (oldChildren (level + 1) old oldPage)
      let children ← (List.range blockMapFanout).foldlM
        (r.rewriteSlot level firstBlock childCoverage fun childFirst child =>
          rewriteNode level childFirst child (depth + 1)) children
      if slotEntries children = [] then return none
      else
        r.emit old oldPage (.branch r.scope.fileId (level + 1) firstBlock (slotEntries children))

/-- `root_at_level` (block_map.rs:413). -/
def lowered (root : Option PageRef) (desiredLevel : Nat) : MapProg E (Option PageRef) :=
  match root with
  | none => return none
  | some root => r.scope.rootAtLevel desiredLevel mapLevels root 1

/-- block_map.rs:373. -/
def rewriteTree (root : Option PageRef) (desiredLevel : Nat) : MapProg E (Option PageRef) := do
  let old ← r.lowered root desiredLevel
  r.rewriteNode desiredLevel 0 old 1

end Rewrite

end W9pt.Storage

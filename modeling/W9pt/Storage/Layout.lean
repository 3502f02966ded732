import W9pt.Storage.BlockMap

/-!
# Ranges of a file and the summary of its map (`layout/range.rs`, `layout/block_split.rs`)

A range of a file is read and written block by block. `BlockSpans` walks the range; its steps check
every addition and conversion and end the walk where one fails. **Main result**: none of them fails,
and the spans partition the range (`blockSpans_partition`). A `usize` has 64 bits.
-/

namespace W9pt.Storage

open Lib

variable {E : Type}

/-! ## Ranges -/

/-- Half-open range of a file (range.rs:7); its fields are private, and every constructor orders them. -/
structure LogicalRange where
  start : Nat
  finish : Nat
  ordered : start ≤ finish
  word : finish < 2 ^ 64

namespace LogicalRange

/-- range.rs:38. -/
def len (range : LogicalRange) : Nat := range.finish - range.start

end LogicalRange

/-! ## Spans -/

/-- The part of a range within one block (range.rs:67). -/
structure BlockSpan where
  blockIndex : Nat
  withinBlock : Nat
  bufferOffset : Nat
  len : Nat

namespace BlockSpan

/-- The bytes of the file that a span covers, from here.. -/
def start (span : BlockSpan) : Nat := span.blockIndex * blockSize + span.withinBlock

/-- ..to here. -/
def finish (span : BlockSpan) : Nat := span.start + span.len

end BlockSpan

/-- range.rs:111. -/
structure BlockSpans where
  absolute : Nat
  remaining : Nat
  bufferOffset : Nat

namespace BlockSpans

/-- range.rs:119. -/
def new (range : LogicalRange) : Except RangeError BlockSpans := do
  ensure (range.len < 2 ^ 64) .lengthConversion
  return ⟨range.start, range.len, 0⟩

/-- How many bytes the next span takes (range.rs:139). -/
def len (it : BlockSpans) : Nat := min it.remaining (blockSize - it.absolute % blockSize)

/-- `next` (range.rs:132). Each `?` ends the walk where it stands. -/
def next (it : BlockSpans) : Option BlockSpan × BlockSpans :=
  let within := it.absolute % blockSize
  if it.remaining = 0 then (none, it)
  else if 2 ^ 32 ≤ within ∨ 2 ^ 32 ≤ it.len ∨ 2 ^ 64 ≤ it.absolute + it.len then (none, it)
  else
    let moved := { it with absolute := it.absolute + it.len, remaining := it.remaining - it.len }
    if 2 ^ 64 ≤ it.bufferOffset + it.len then (none, moved)
    else (some ⟨it.absolute / blockSize, within, it.bufferOffset, it.len⟩,
      { moved with bufferOffset := it.bufferOffset + it.len })

theorem len_pos {it : BlockSpans} (h : it.remaining ≠ 0) : 0 < it.len := by
  have hwithin := Nat.mod_lt it.absolute (show 0 < blockSize by decide)
  unfold len
  omega

theorem remaining_next {it it' : BlockSpans} {span : BlockSpan} (h : it.next = (some span, it')) :
    it'.remaining < it.remaining := by
  simp only [next] at h
  split at h
  · cases h
  rename_i hmore
  have hpos := len_pos hmore
  split at h
  · cases h
  split at h
  · cases h
  cases h
  exact Nat.sub_lt (Nat.pos_of_ne_zero hmore) hpos

def spans (it : BlockSpans) : List BlockSpan :=
  match _h : it.next with
  | (some span, it') => span :: spans it'
  | (none, _) => []
termination_by it.remaining
decreasing_by exact remaining_next ‹_›

end BlockSpans

/-- The spans from `absolute` to `finish`, where the buffer has reached `offset`. -/
inductive Tiles (finish : Nat) : Nat → Nat → List BlockSpan → Prop where
  | done (offset : Nat) : Tiles finish finish offset []
  | step {absolute offset : Nat} {span : BlockSpan} {spans : List BlockSpan}
      (starts : span.start = absolute) (buffer : span.bufferOffset = offset) (nonempty : 0 < span.len)
      (within : span.withinBlock + span.len ≤ blockSize)
      (full : span.finish < finish → span.withinBlock + span.len = blockSize)
      (rest : Tiles finish span.finish (offset + span.len) spans) :
      Tiles finish absolute offset (span :: spans)

/-- No check of a step fails while the walk ends within the domain. -/
theorem BlockSpans.next_eq {it : BlockSpans} (hword : it.absolute + it.remaining < 2 ^ 64)
    (hoffset : it.bufferOffset ≤ it.absolute) (hmore : it.remaining ≠ 0) :
    it.next = (some ⟨it.absolute / blockSize, it.absolute % blockSize, it.bufferOffset, it.len⟩,
      ⟨it.absolute + it.len, it.remaining - it.len, it.bufferOffset + it.len⟩) := by
  have hsize : blockSize = 32768 := rfl
  have hwithin := Nat.mod_lt it.absolute (show 0 < blockSize by decide)
  have hlen : it.len ≤ it.remaining := Nat.min_le_left _ _
  have hblock : it.len ≤ blockSize - it.absolute % blockSize := Nat.min_le_right _ _
  rw [next, if_neg hmore, if_neg (by omega), if_neg (by omega)]

theorem BlockSpans.tiles {it : BlockSpans} (hword : it.absolute + it.remaining < 2 ^ 64)
    (hoffset : it.bufferOffset ≤ it.absolute) :
    Tiles (it.absolute + it.remaining) it.absolute it.bufferOffset it.spans := by
  fun_induction spans it with
  | case1 it span it' hnext ih =>
    have hmore : it.remaining ≠ 0 := Nat.ne_zero_of_lt (remaining_next hnext)
    have hwithin := Nat.mod_lt it.absolute (show 0 < blockSize by decide)
    have hlen : it.len = min it.remaining (blockSize - it.absolute % blockSize) := rfl
    have hstart : it.absolute / blockSize * blockSize + it.absolute % blockSize = it.absolute :=
      Nat.div_add_mod' _ _
    have hend : it.absolute + it.len + (it.remaining - it.len) = it.absolute + it.remaining := by omega
    cases hnext.symm.trans (next_eq hword hoffset hmore)
    dsimp only at ih
    rw [hend] at ih
    have hrest := ih hword (by omega)
    refine .step hstart rfl (len_pos hmore) ?_ ?_ ?_
    all_goals dsimp only [BlockSpan.finish, BlockSpan.start]
    · omega
    · omega
    · rwa [hstart]
  | case2 it it' hnext =>
    have hdone : it.remaining = 0 := by
      by_contra hmore
      cases hnext.symm.trans (next_eq hword hoffset hmore)
    rw [hdone]
    exact .done _

/-- What the spans of a range are for. -/
structure Partitions (range : LogicalRange) (spans : List BlockSpan) : Prop where
  increasing : spans.Pairwise fun a b => a.blockIndex < b.blockIndex
  inBlock : ∀ span ∈ spans, 0 < span.len ∧ span.withinBlock + span.len ≤ blockSize
  adjacent : spans.IsChain fun a b => a.finish = b.start
  covers : ∀ i, range.start ≤ i ∧ i < range.finish ↔ ∃ span ∈ spans, span.start ≤ i ∧ i < span.finish
  offsets : ∀ before span after, spans = before ++ span :: after →
    span.bufferOffset = (before.map BlockSpan.len).sum

section Tiles

variable {finish absolute offset : Nat} {spans : List BlockSpan}

section

variable (h : Tiles finish absolute offset spans)

include h

theorem Tiles.le : absolute ≤ finish := by
  induction h with
  | done => exact le_rfl
  | step starts _ _ _ _ _ ih =>
    rw [← starts]
    exact (Nat.le_add_right _ _).trans ih

theorem Tiles.inBlock :
    ∀ span ∈ spans, 0 < span.len ∧ span.withinBlock + span.len ≤ blockSize := by
  induction h with
  | done => simp
  | step _ _ nonempty within _ _ ih => exact List.forall_mem_cons.2 ⟨⟨nonempty, within⟩, ih⟩

theorem Tiles.adjacent :
    spans.IsChain fun a b => a.finish = b.start ∧ a.blockIndex < b.blockIndex := by
  induction h with
  | done => exact .nil
  | @step _ _ span _ _ _ _ _ full rest ih =>
    cases rest with
    | done => exact .singleton _
    | @step _ _ next _ starts _ nonempty _ _ rest =>
      refine .cons_cons ⟨starts.symm, ?_⟩ ih
      have hle := rest.le
      unfold BlockSpan.finish BlockSpan.start at *
      have hfull := full (by omega)
      by_contra hback
      have := Nat.mul_le_mul_right blockSize (Nat.le_of_not_lt hback)
      omega

theorem Tiles.covers (i : Nat) :
    absolute ≤ i ∧ i < finish ↔ ∃ span ∈ spans, span.start ≤ i ∧ i < span.finish := by
  induction h with
  | done => simp
  | step starts _ _ _ _ rest ih =>
    have hle := rest.le
    rw [List.exists_mem_cons_iff, ← ih]
    unfold BlockSpan.finish at *
    omega

theorem Tiles.offsets {before after : List BlockSpan} {span : BlockSpan}
    (hspans : spans = before ++ span :: after) :
    span.bufferOffset = offset + (before.map BlockSpan.len).sum := by
  induction h generalizing before with
  | done => simp at hspans
  | step _ buffer _ _ _ _ ih =>
    cases before with
    | nil =>
      cases hspans
      exact buffer
    | cons first before =>
      cases hspans
      rw [ih rfl, List.map_cons, List.sum_cons, Nat.add_assoc]

end

end Tiles

/-- **The spans partition the range**: in the order of their blocks, each within its block, one behind
the other, and no walk ends early, at the end of the domain neither. -/
theorem blockSpans_partition (range : LogicalRange) :
    ∃ it, BlockSpans.new range = .ok it ∧ Partitions range it.spans := by
  have hend : range.start + range.len = range.finish := Nat.add_sub_cancel' range.ordered
  have htiles := @BlockSpans.tiles ⟨range.start, range.len, 0⟩ (hend ▸ range.word) (Nat.zero_le _)
  rw [hend] at htiles
  have hlen : range.len < 2 ^ 64 := (Nat.sub_le _ _).trans_lt range.word
  refine ⟨⟨range.start, range.len, 0⟩, ?_, ?_, htiles.inBlock, ?_, htiles.covers, ?_⟩
  · rw [BlockSpans.new, ensure_of hlen]
    rfl
  · have hchain := htiles.adjacent.imp fun _ _ h => h.2
    exact (List.isChain_iff_pairwise (R := fun a b : BlockSpan => a.blockIndex < b.blockIndex)).1 hchain
  · exact htiles.adjacent.imp fun _ _ h => h.1
  · intro before span after hspans
    rw [htiles.offsets hspans, Nat.zero_add]

/-! ## The summary of the root -/

/-- block_split.rs:799. -/
def validateRootSummary (root : Option PageRef) (count : Nat) (highest : Option Nat) :
    Except (StorageError E) Unit :=
  ensure (root.map (fun root => (root.materializedBlockCount, root.highestMaterializedBlock)) =
      highest.map (fun highest => (count, highest)) ∧ (highest = none → count = 0))
    (.corruption (.identityMismatch "map root summary"))

end W9pt.Storage

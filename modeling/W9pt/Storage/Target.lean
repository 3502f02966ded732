import W9pt.Lib.Handler
import W9pt.Storage.Object

/-!
# The target store (`object_store.rs`)

The repository reads and writes whole objects of a store that the caller provides. A call is a query
of the program that makes it; `Target.Answers` is the contract of `object_store.rs:1-8, 163-214`: reads
return what is stored, immutable creation and compare-and-swap are atomic for one key, a version is
never handed out twice, an error of a mutation is definitive, and `Ambiguous` leaves open whether the
mutation happened.

`get_range` is not called by the repository and has no query.
-/

namespace W9pt.Storage

open Lib

/-- Opaque revision of a stored object (ids.rs:124). -/
structure ObjectVersion where
  token : Bytes
deriving DecidableEq

/-- Stored bytes and their revision (object_store.rs:15). -/
structure TargetObject where
  bytes : Bytes
  version : ObjectVersion
deriving DecidableEq

/-- Outcome of immutable creation (object_store.rs:82). -/
inductive PutIfAbsent where
  | created (version : ObjectVersion)
  | alreadyExists (version : ObjectVersion)
  | ambiguous

/-- Outcome of compare-and-swap (object_store.rs:102). -/
inductive CompareExchange where
  | replaced (version : ObjectVersion)
  | conflict (current : Option ObjectVersion)
  | ambiguous

inductive TargetQuery where
  | get (key : ObjectKey) (maxBytes : Nat)
  | putIfAbsent (key : ObjectKey) (bytes : Bytes)
  | compareExchange (key : ObjectKey) (expected : Option ObjectVersion) (bytes : Bytes)

/-- What a call returns; `E` is the adapter's own error. -/
def TargetAnswer (E : Type) : TargetQuery → Type
  | .get .. => Except E (Option TargetObject)
  | .putIfAbsent .. => Except E PutIfAbsent
  | .compareExchange .. => Except E CompareExchange

abbrev TargetProg (E α : Type) := Prog TargetQuery (TargetAnswer E) (StorageError E) α

/-- The state of a target: its objects, and all that was ever stored under a key. A key's revisions
differ. -/
structure Target where
  objects : ObjectKey → Option TargetObject
  written : ObjectKey → Set TargetObject
  current : ∀ {key object}, objects key = some object → object ∈ written key
  distinct : ∀ {key a b}, a ∈ written key → b ∈ written key → a.version = b.version → a = b

namespace Target

def empty : Target := ⟨fun _ => none, fun _ => ∅, fun h => by simp at h, fun h => h.elim⟩

def version? (target : Target) (key : ObjectKey) : Option ObjectVersion :=
  (target.objects key).map TargetObject.version

/-- No object under `key` ever had this revision. -/
def Fresh (target : Target) (key : ObjectKey) (version : ObjectVersion) : Prop :=
  ∀ object ∈ target.written key, object.version ≠ version

theorem empty_fresh (key : ObjectKey) (version : ObjectVersion) : empty.Fresh key version :=
  fun _ h => h.elim

def write (target : Target) (key : ObjectKey) (bytes : Bytes) (version : ObjectVersion)
    (fresh : target.Fresh key version) : Target where
  objects := Function.update target.objects key (some ⟨bytes, version⟩)
  written := Function.update target.written key (insert ⟨bytes, version⟩ (target.written key))
  current := by
    intro other object h
    by_cases hother : other = key
    · subst hother
      rw [Function.update_self] at h ⊢
      exact .inl (Option.some.inj h).symm
    · rw [Function.update_of_ne hother] at h ⊢
      exact target.current h
  distinct := by
    intro other a b ha hb hversion
    by_cases hother : other = key
    · subst hother
      rw [Function.update_self] at ha hb
      rcases ha with rfl | ha <;> rcases hb with rfl | hb
      · rfl
      · exact absurd hversion.symm (fresh b hb)
      · exact absurd hversion (fresh a ha)
      · exact target.distinct ha hb hversion
    · rw [Function.update_of_ne hother] at ha hb
      exact target.distinct ha hb hversion

/-- What a target may answer and how the call changes it. -/
inductive Answers {E : Type} : Target → (q : TargetQuery) → TargetAnswer E q → Target → Prop where
  | getFailed {s : Target} {key : ObjectKey} {maxBytes : Nat} {e : E} :
      Answers s (.get key maxBytes) (.error e) s
  | got {s : Target} {key : ObjectKey} {maxBytes : Nat} :
      (∀ object ∈ s.objects key, object.bytes.length ≤ maxBytes) →
      Answers s (.get key maxBytes) (.ok (s.objects key)) s
  | putFailed {s : Target} {key : ObjectKey} {bytes : Bytes} {e : E} :
      Answers s (.putIfAbsent key bytes) (.error e) s
  | created {s : Target} {key : ObjectKey} {bytes : Bytes} {version : ObjectVersion} :
      s.objects key = none → (fresh : s.Fresh key version) →
      Answers s (.putIfAbsent key bytes) (.ok (.created version)) (s.write key bytes version fresh)
  | alreadyExists {s : Target} {key : ObjectKey} {bytes : Bytes} {object : TargetObject} :
      s.objects key = some object →
      Answers s (.putIfAbsent key bytes) (.ok (.alreadyExists object.version)) s
  | putLost {s : Target} {key : ObjectKey} {bytes : Bytes} :
      Answers s (.putIfAbsent key bytes) (.ok .ambiguous) s
  | putUnknown {s : Target} {key : ObjectKey} {bytes : Bytes} {version : ObjectVersion} :
      s.objects key = none → (fresh : s.Fresh key version) →
      Answers s (.putIfAbsent key bytes) (.ok .ambiguous) (s.write key bytes version fresh)
  | swapFailed {s : Target} {key : ObjectKey} {expected : Option ObjectVersion} {bytes : Bytes}
      {e : E} : Answers s (.compareExchange key expected bytes) (.error e) s
  | replaced {s : Target} {key : ObjectKey} {expected : Option ObjectVersion} {bytes : Bytes}
      {version : ObjectVersion} : s.version? key = expected → (fresh : s.Fresh key version) →
      Answers s (.compareExchange key expected bytes) (.ok (.replaced version))
        (s.write key bytes version fresh)
  | conflict {s : Target} {key : ObjectKey} {expected : Option ObjectVersion} {bytes : Bytes} :
      s.version? key ≠ expected →
      Answers s (.compareExchange key expected bytes) (.ok (.conflict (s.version? key))) s
  | swapLost {s : Target} {key : ObjectKey} {expected : Option ObjectVersion} {bytes : Bytes} :
      Answers s (.compareExchange key expected bytes) (.ok .ambiguous) s
  | swapUnknown {s : Target} {key : ObjectKey} {expected : Option ObjectVersion} {bytes : Bytes}
      {version : ObjectVersion} : s.version? key = expected → (fresh : s.Fresh key version) →
      Answers s (.compareExchange key expected bytes) (.ok .ambiguous)
        (s.write key bytes version fresh)

/-! ## Growth -/

def view (target : Target) (key : ObjectKey) : Option Bytes :=
  (target.objects key).map TargetObject.bytes

def Grows (s s' : Target) : Prop := ∀ key object, s.objects key = some object →
  s'.objects key = some object

theorem Grows.refl (s : Target) : Grows s s := fun _ _ h => h

theorem Grows.trans (a b c : Target) (hab : Grows a b) (hbc : Grows b c) : Grows a c :=
  fun key object h => hbc key object (hab key object h)

theorem Grows.view {s s' : Target} (h : Grows s s') {key : ObjectKey} {bytes : Bytes}
    (hkey : s.view key = some bytes) : s'.view key = some bytes := by
  obtain ⟨object, hobject, rfl⟩ := Option.map_eq_some_iff.1 hkey
  exact Option.map_eq_some_iff.2 ⟨object, h key object hobject, rfl⟩

section Write

variable {s : Target} {key : ObjectKey} {bytes : Bytes} {version : ObjectVersion}
  {fresh : s.Fresh key version}

@[simp] theorem objects_write_self :
    (s.write key bytes version fresh).objects key = some ⟨bytes, version⟩ := by
  simp [write]

variable {other : ObjectKey}

theorem objects_write_of_ne (h : other ≠ key) :
    (s.write key bytes version fresh).objects other = s.objects other := by
  simp [write, Function.update_of_ne h]

@[simp] theorem written_write_self : (s.write key bytes version fresh).written key =
    insert ⟨bytes, version⟩ (s.written key) := by
  simp [write]

theorem written_write_of_ne (h : other ≠ key) :
    (s.write key bytes version fresh).written other = s.written other := by
  simp [write, Function.update_of_ne h]

theorem view_write_self : (s.write key bytes version fresh).view key = some bytes := by
  simp [view]

theorem view_write_of_ne (h : other ≠ key) :
    (s.write key bytes version fresh).view other = s.view other := by
  simp [view, objects_write_of_ne h]

theorem grows_write (h : s.objects key = none) : Grows s (s.write key bytes version fresh) := by
  intro other object hobject
  have hne : other ≠ key := by
    rintro rfl
    rw [h] at hobject
    cases hobject
  rw [objects_write_of_ne hne]
  exact hobject

end Write

end Target

end W9pt.Storage

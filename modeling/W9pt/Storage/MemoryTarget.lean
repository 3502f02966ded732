import W9pt.Storage.Target

/-!
# The in-memory target (`testing/memory_store.rs`)

`MemoryTarget` keeps its objects in a map and numbers its revisions. `answer` is what one call does
where no failure is injected; it is one of the answers that the contract of a target permits
(`MemoryTarget.answers`) until the counter of revisions reaches its end and stays there.
-/

namespace W9pt.Storage

open Lib

/-- memory_store.rs:47; the failures that a test injects are left out. -/
inductive MemoryTargetError where
  | objectTooLarge (objectLen maxBytes : Nat)
deriving DecidableEq

/-- memory_store.rs:117; the latest object under a key is the first. -/
structure MemoryTarget where
  objects : List (ObjectKey × TargetObject)
  nextVersion : Nat

/-- memory_store.rs:474. -/
def versionToken (version : Nat) : ObjectVersion := ⟨beBytes 8 version⟩

namespace MemoryTarget

/-- memory_store.rs:195. -/
def new : MemoryTarget := ⟨[], 1⟩

variable (target : MemoryTarget)

/-- An object under the next revision, whose number saturates (`allocate_version`). -/
def insert (key : ObjectKey) (bytes : Bytes) : MemoryTarget where
  objects := (key, ⟨bytes, versionToken target.nextVersion⟩) :: target.objects
  nextVersion := saturatingAdd target.nextVersion 1

/-- memory_store.rs:294. -/
def get (key : ObjectKey) (maxBytes : Nat) : Except MemoryTargetError (Option TargetObject) :=
  match target.objects.lookup key with
  | some object =>
    if maxBytes < object.bytes.length then .error (.objectTooLarge object.bytes.length maxBytes)
    else .ok (some object)
  | none => .ok none

/-- memory_store.rs:389. -/
def putIfAbsent (key : ObjectKey) (bytes : Bytes) : PutIfAbsent × MemoryTarget :=
  match target.objects.lookup key with
  | some object => (.alreadyExists object.version, target)
  | none => (.created (versionToken target.nextVersion), target.insert key bytes)

/-- memory_store.rs:429. -/
def compareExchange (key : ObjectKey) (expected : Option ObjectVersion) (bytes : Bytes) :
    CompareExchange × MemoryTarget :=
  let current := (target.objects.lookup key).map TargetObject.version
  if current = expected then
    (.replaced (versionToken target.nextVersion), target.insert key bytes)
  else (.conflict current, target)

def answer : (q : TargetQuery) → TargetAnswer MemoryTargetError q × MemoryTarget
  | .get key maxBytes => (target.get key maxBytes, target)
  | .putIfAbsent key bytes =>
    (.ok (target.putIfAbsent key bytes).1, (target.putIfAbsent key bytes).2)
  | .compareExchange key expected bytes =>
    (.ok (target.compareExchange key expected bytes).1, (target.compareExchange key expected bytes).2)

variable {target} {s : Target}

/-- The target whose objects these are, all of them stored under earlier revisions. -/
structure Models (target : MemoryTarget) (s : Target) : Prop where
  objects : ∀ key, s.objects key = target.objects.lookup key
  written : ∀ key, ∀ object ∈ s.written key, (key, object) ∈ target.objects
  earlier : ∀ x ∈ target.objects, ∃ v < target.nextVersion, x.2.version = versionToken v

theorem models_new : new.Models Target.empty :=
  ⟨fun _ => rfl, fun _ _ h => h.elim, fun _ h => absurd h List.not_mem_nil⟩

/-- The counter has not reached its end. -/
def Counting (target : MemoryTarget) : Prop := target.nextVersion < wordMax

instance (target : MemoryTarget) : Decidable target.Counting := inferInstanceAs (Decidable (_ < _))

theorem Models.fresh (h : target.Models s) (hcounting : target.Counting) (key : ObjectKey) :
    s.Fresh key (versionToken target.nextVersion) := by
  intro object hobject heq
  obtain ⟨v, hv, hversion⟩ := h.earlier _ (h.written key object hobject)
  unfold Counting wordMax at hcounting
  have hsame := (beBytes_inj (by omega) (by omega)).1
    (congrArg ObjectVersion.token (hversion.symm.trans heq))
  exact hv.ne hsame

theorem Models.insert (h : target.Models s) (hcounting : target.Counting) (key : ObjectKey)
    (bytes : Bytes) :
    (target.insert key bytes).Models (s.write key bytes _ (h.fresh hcounting key)) := by
  have hnext : (target.insert key bytes).nextVersion = target.nextVersion + 1 :=
    Nat.min_eq_left hcounting
  refine ⟨fun other => ?_, fun other object hobject => ?_, fun x hx => ?_⟩
  · by_cases hother : other = key
    · subst hother
      simp [Target.write, MemoryTarget.insert]
    · rw [Target.objects_write_of_ne hother, h.objects]
      simp [MemoryTarget.insert, List.lookup_cons, beq_false_of_ne hother]
  · by_cases hother : other = key
    · subst hother
      rw [Target.written_write_self] at hobject
      rcases hobject with rfl | hobject
      · exact List.mem_cons_self
      · exact List.mem_cons_of_mem _ (h.written other object hobject)
    · rw [Target.written_write_of_ne hother] at hobject
      exact List.mem_cons_of_mem _ (h.written other object hobject)
  · rw [hnext]
    rcases List.mem_cons.1 hx with rfl | hx
    · exact ⟨_, Nat.lt_succ_self _, rfl⟩
    · obtain ⟨v, hv, hversion⟩ := h.earlier x hx
      exact ⟨v, hv.trans (Nat.lt_succ_self _), hversion⟩

/-- **The in-memory target keeps the contract.** -/
theorem answers (h : target.Models s) (hcounting : target.Counting) (q : TargetQuery) :
    ∃ s', Target.Answers s q (target.answer q).1 s' ∧ (target.answer q).2.Models s' := by
  cases q with
  | get key maxBytes =>
    have hget : target.get key maxBytes = .ok (s.objects key) ∧
        (∀ object ∈ s.objects key, object.bytes.length ≤ maxBytes) ∨
          ∃ e, target.get key maxBytes = .error e := by
      rw [h.objects, get]
      cases target.objects.lookup key with
      | none => exact .inl ⟨rfl, by simp⟩
      | some object =>
        dsimp only
        split
        · exact .inr ⟨_, rfl⟩
        · rename_i hlength
          exact .inl ⟨rfl, by simpa using hlength⟩
    refine ⟨s, ?_, h⟩
    rcases hget with ⟨hget, hlength⟩ | ⟨e, hget⟩
    · rw [answer, hget]
      exact .got hlength
    · rw [answer, hget]
      exact .getFailed
  | putIfAbsent key bytes =>
    cases hobject : target.objects.lookup key with
    | none =>
      refine ⟨s.write key bytes _ (h.fresh hcounting key), ?_⟩
      simp only [answer, putIfAbsent, hobject]
      exact ⟨.created ((h.objects key).trans hobject) _, h.insert hcounting key bytes⟩
    | some object =>
      refine ⟨s, ?_⟩
      simp only [answer, putIfAbsent, hobject]
      exact ⟨.alreadyExists ((h.objects key).trans hobject), h⟩
  | compareExchange key expected bytes =>
    have hcurrent : s.version? key = (target.objects.lookup key).map TargetObject.version := by
      rw [Target.version?, h.objects]
    by_cases hexpected : s.version? key = expected
    · refine ⟨s.write key bytes _ (h.fresh hcounting key), ?_⟩
      simp only [answer, compareExchange, ← hcurrent, if_pos hexpected]
      exact ⟨.replaced hexpected _, h.insert hcounting key bytes⟩
    · refine ⟨s, ?_⟩
      simp only [answer, compareExchange, ← hcurrent, if_neg hexpected]
      exact ⟨.conflict hexpected, h⟩

theorem counting_of_answer (target : MemoryTarget) (q : TargetQuery)
    (h : (target.answer q).2.Counting) : target.Counting := by
  have hinsert : ∀ key bytes, (target.insert key bytes).Counting → target.Counting := by
    intro key bytes hcounting
    simp only [Counting, MemoryTarget.insert, saturatingAdd] at hcounting ⊢
    omega
  cases q with
  | get => exact h
  | putIfAbsent key bytes =>
    simp only [answer, putIfAbsent] at h
    split at h
    · exact h
    · exact hinsert key bytes h
  | compareExchange key expected bytes =>
    simp only [answer, compareExchange] at h
    split at h
    · exact hinsert key bytes h
    · exact h

end MemoryTarget

end W9pt.Storage

import W9pt.Lib.Contract
import W9pt.Storage.BlockMap
import W9pt.Storage.MemoryTarget

/-!
# What code over immutable objects may rely on

While a preparation runs, others may add objects to the target but nobody changes one. What the code
knows is a `Ledger`: objects that are in the target for good, and the puts it has issued. The contract of
the two operations on objects (`Repository.objects`) says that a load of a known object returns it, that
a store which succeeds makes its object known, and that both fail only for reasons of the world
(`StorageError.Worldly`). `Repository.runs_objects` connects it with the calls of the target.

| here | there |
|---|---|
| `Ledger` | the objects behind `get_required` and `put_immutable` |
| `Target.Logged` | the calls of the target with the record of those that were made |
| `Repository.onMap` | the same contract under a budget |
-/

namespace W9pt.Storage

open Lib

variable {E α β : Type}

/-! ## Failures of the world -/

/-- The target refused or lost the call, or holds other bytes under the key. -/
def StorageError.Worldly : StorageError E → Prop
  | .target _ | .ambiguous _ _ | .corruption .immutableCollision => True
  | _ => False

def StorageError.FromTarget (e : StorageError E) : Prop := ∃ error, e = .target error

theorem StorageError.FromTarget.worldly {e : StorageError E} (h : e.FromTarget) : e.Worldly := by
  obtain ⟨error, rfl⟩ := h
  trivial

/-! ## Ledgers -/

/-- The bytes known under each key. -/
abbrev View := ObjectKey → Option Bytes

def View.Extends (view view' : View) : Prop := ∀ key bytes, view key = some bytes → view' key = some bytes

theorem View.Extends.refl (view : View) : View.Extends view view := fun _ _ h => h

theorem View.Extends.trans {a b c : View} (hab : View.Extends a b) (hbc : View.Extends b c) :
    View.Extends a c := fun key bytes h => hbc key bytes (hab key bytes h)

/-- What is known to be stored, and the puts issued so far. -/
structure Ledger where
  view : View
  puts : List (ObjectKey × Bytes)

namespace Ledger

def put (ledger : Ledger) (key : ObjectKey) (bytes : Bytes) : Ledger :=
  ⟨Function.update ledger.view key (some bytes), ledger.puts ++ [(key, bytes)]⟩

def tried (ledger : Ledger) (key : ObjectKey) (bytes : Bytes) : Ledger :=
  ⟨ledger.view, ledger.puts ++ [(key, bytes)]⟩

/-- Later: more is known and more was put. -/
structure Later (ledger ledger' : Ledger) : Prop where
  view : View.Extends ledger.view ledger'.view
  puts : ledger.puts <+: ledger'.puts

theorem Later.refl (ledger : Ledger) : Later ledger ledger := ⟨View.Extends.refl _, List.prefix_rfl⟩

theorem Later.trans (a b c : Ledger) (hab : Later a b) (hbc : Later b c) : Later a c :=
  ⟨hab.view.trans hbc.view, hab.puts.trans hbc.puts⟩

theorem view_put_self (ledger : Ledger) (key : ObjectKey) (bytes : Bytes) :
    (ledger.put key bytes).view key = some bytes := by
  simp [put]

/-- A store over the same bytes, or over none, keeps what is known. -/
theorem later_put {ledger : Ledger} {key : ObjectKey} {bytes : Bytes}
    (h : ∀ b, ledger.view key = some b → b = bytes) : Later ledger (ledger.put key bytes) := by
  refine ⟨fun other b hb => ?_, List.prefix_append _ _⟩
  by_cases hother : other = key
  · subst hother
    rw [h b hb, view_put_self]
  · simp only [put, Function.update_of_ne hother]
    exact hb

end Ledger

/-! ## The contracts -/

/-- The code may store `bytes` under `key` given what is in the target. -/
abbrev Policy := View → ObjectKey → Bytes → Prop

def Policy.Monotone (may : Policy) : Prop :=
  ∀ view view' key bytes, View.Extends view view' → may view key bytes → may view' key bytes

def Policy.free : Policy := fun _ _ _ => True

/-- The contract of loads and stores: only known objects are loaded, only permitted ones are stored. -/
def Repository.objects (repository : Repository) (may : Policy) :
    Contract ObjectQuery ObjectAnswer (StorageError E) Ledger where
  permits ledger
    | .load key _ maxBytes => ∃ bytes, ledger.view key = some bytes ∧ bytes.length ≤ maxBytes ∧
        bytes.length ≤ repository.limits.maxObjectBytes
    | .store key bytes _ => may ledger.view key bytes ∧
        bytes.length ≤ repository.limits.maxObjectBytes
  answers ledger
    | .load key _ _, bytes, ledger' => ledger.view key = some bytes ∧ ledger' = ledger
    | .store key bytes _, _, ledger' => (∀ b, ledger.view key = some b → b = bytes) ∧
        ledger' = ledger.put key bytes
  fails ledger
    | .load _ _ _, e, ledger' => e.FromTarget ∧ ledger' = ledger
    | .store key bytes _, e, ledger' => e.Worldly ∧ ledger' = ledger.tried key bytes

/-- The same with a budget, which can end at any of its queries. -/
def Repository.onMap (repository : Repository) (may : Policy) :
    Contract MapQuery MapAnswer (StorageError E) Ledger where
  permits ledger
    | .object q => (repository.objects (E := E) may).permits ledger q
    | .observeDepth _ | .chargeRead | .chargeWrite => True
  answers ledger
    | .object q, x, ledger' => (repository.objects (E := E) may).answers ledger q x ledger'
    | .observeDepth _, _, ledger' | .chargeRead, _, ledger' | .chargeWrite, _, ledger' =>
      ledger' = ledger
  fails ledger
    | .object q, e, ledger' => (repository.objects may).fails ledger q e ledger'
    | .observeDepth _, e, ledger' | .chargeRead, e, ledger' | .chargeWrite, e, ledger' =>
      (∃ error, e = .limit error) ∧ ledger' = ledger

section Contracts

variable {repository : Repository} {may : Policy} {ledger : Ledger} {R : α → Ledger → Prop}
  {F : StorageError E → Ledger → Prop}

/-- Code over objects does the same within a budget. -/
theorem meets_onObjects {p : ObjectProg E α} (h : Meets (repository.objects may) R F p ledger) :
    Meets (repository.onMap may) R F (onObjects p) ledger := by
  induction p generalizing ledger with
  | done a => exact h
  | fail e => exact h
  | ask q k ih => exact ⟨h.1, fun x l hx => ih x (h.2.1 x l hx), h.2.2⟩

section

variable {R : Unit → Ledger → Prop} (hok : R () ledger)

include hok

theorem meets_observeDepth {pages : Nat} (hlimit : ∀ error, F (.limit error) ledger) :
    Meets (repository.onMap may) R F (observeDepth pages) ledger :=
  ⟨trivial, fun _ _ hl => hl ▸ hok, fun _ _ he => by
    obtain ⟨⟨error, rfl⟩, rfl⟩ := he
    exact hlimit error⟩

theorem meets_chargeRead (hlimit : ∀ error, F (.limit error) ledger) :
    Meets (repository.onMap may) R F chargeRead ledger :=
  ⟨trivial, fun _ _ hl => hl ▸ hok, fun _ _ he => by
    obtain ⟨⟨error, rfl⟩, rfl⟩ := he
    exact hlimit error⟩

theorem meets_chargeWrite (hlimit : ∀ error, F (.limit error) ledger) :
    Meets (repository.onMap may) R F chargeWrite ledger :=
  ⟨trivial, fun _ _ hl => hl ▸ hok, fun _ _ he => by
    obtain ⟨⟨error, rfl⟩, rfl⟩ := he
    exact hlimit error⟩

end

/-- A charge before the rest. -/
theorem meets_charged {charged : Except LimitError MapBudget} {k : MapProg E α}
    (hlimit : ∀ error, F (.limit error) ledger)
    (hk : ∀ budget, Meets (repository.objects may) (fun r l => R r.1 l) F (metered k budget) ledger) :
    Meets (repository.objects may) (fun r l => R r.1 l) F
      (Prog.lift (fromLimit charged) >>= metered k) ledger := by
  cases charged with
  | ok budget => exact hk budget
  | error error => exact hlimit error

/-- A charge is one of the failures that the contract of the map allows for. -/
theorem meets_metered {p : MapProg E α} {budget : MapBudget}
    (h : Meets (repository.onMap may) R F p ledger) :
    Meets (repository.objects may) (fun r l => R r.1 l) F (metered p budget) ledger := by
  induction p generalizing ledger budget with
  | done a => exact h
  | fail e => exact h
  | ask q k ih =>
    obtain ⟨hpermits, hanswers, hfails⟩ := h
    cases q with
    | object q => exact ⟨hpermits, fun x l hx => ih x (hanswers x l hx), hfails⟩
    | observeDepth pages =>
      exact meets_charged (fun error => hfails _ _ ⟨⟨error, rfl⟩, rfl⟩) fun budget =>
        ih () (hanswers () ledger rfl)
    | chargeRead =>
      exact meets_charged (fun error => hfails _ _ ⟨⟨error, rfl⟩, rfl⟩) fun budget =>
        ih () (hanswers () ledger rfl)
    | chargeWrite =>
      exact meets_charged (fun error => hfails _ _ ⟨⟨error, rfl⟩, rfl⟩) fun budget =>
        ih () (hanswers () ledger rfl)

end Contracts

/-! ## The contract on the target -/

def TargetQuery.put? : TargetQuery → Option (ObjectKey × Bytes)
  | .putIfAbsent key bytes => some (key, bytes)
  | _ => none

theorem filterMap_get (log : List TargetQuery) (key : ObjectKey) (maxBytes : Nat) :
    (log ++ [TargetQuery.get key maxBytes]).filterMap TargetQuery.put? = log.filterMap TargetQuery.put? := by
  rw [List.filterMap_append]
  exact List.append_nil _

theorem filterMap_putIfAbsent (log : List TargetQuery) (key : ObjectKey) (bytes : Bytes) :
    (log ++ [TargetQuery.putIfAbsent key bytes]).filterMap TargetQuery.put? =
      log.filterMap TargetQuery.put? ++ [(key, bytes)] := by
  rw [List.filterMap_append]
  rfl

namespace Target

/-- A target with the record of the calls that one program made. -/
abbrev Recorded := Target × List TargetQuery

def Logged (x : Recorded) (q : TargetQuery) (answer : TargetAnswer E q) (y : Recorded) : Prop :=
  Answers x.1 q answer y.1 ∧ y.2 = x.2 ++ [q]

def Others (x y : Recorded) : Prop := Grows x.1 y.1 ∧ y.2 = x.2

/-- Objects are added, each one permitted by what was there before. -/
def Adds (may : Policy) (s s' : Target) : Prop :=
  Grows s s' ∧ ∀ key bytes, s'.view key = some bytes → s.view key = some bytes ∨ may s.view key bytes

theorem Others.refl (x : Recorded) : Others x x := ⟨Grows.refl _, rfl⟩

theorem Others.trans (x y z : Recorded) (hxy : Others x y) (hyz : Others y z) : Others x z :=
  ⟨hxy.1.trans _ _ _ hyz.1, hyz.2.trans hxy.2⟩

theorem Adds.refl (may : Policy) (s : Target) : Adds may s s := ⟨Grows.refl s, fun _ _ h => .inl h⟩

theorem adds_write {may : Policy} {s : Target} {key : ObjectKey} {bytes : Bytes}
    {version : ObjectVersion} (fresh : s.Fresh key version) (hnone : s.objects key = none)
    (h : may s.view key bytes) : Adds may s (s.write key bytes version fresh) := by
  refine ⟨grows_write hnone, fun other b hb => ?_⟩
  by_cases hother : other = key
  · subst hother
    rw [view_write_self] at hb
    exact .inr (Option.some.inj hb ▸ h)
  · rw [view_write_of_ne hother] at hb
    exact .inl hb

end Target

/-- What is known is in the target, and the recorded puts are those of the ledger. -/
structure Ledger.Agrees (ledger : Ledger) (x : Target.Recorded) : Prop where
  known : View.Extends ledger.view x.1.view
  puts : x.2.filterMap TargetQuery.put? = ledger.puts

/-- All that is in the target, and the puts so far. -/
def Ledger.of (x : Target.Recorded) : Ledger := ⟨x.1.view, x.2.filterMap TargetQuery.put?⟩

theorem Ledger.of_agrees (x : Target.Recorded) : (Ledger.of x).Agrees x := ⟨View.Extends.refl _, rfl⟩

namespace Repository

open Target

variable {repository : Repository} {may : Policy} {ledger : Ledger} {x : Recorded}

theorem agrees_others {y : Recorded} (h : ledger.Agrees x) (hxy : Others x y) :
    ledger.Agrees y :=
  ⟨fun key bytes hkey => hxy.1.view (h.known key bytes hkey), hxy.2 ▸ h.puts⟩

variable {key : ObjectKey} {bytes : Bytes}

theorem agrees_get {maxBytes : Nat} {y : Recorded}
    {answer : TargetAnswer E (.get key maxBytes)} (h : ledger.Agrees x)
    (hanswer : Logged x (.get key maxBytes) answer y) :
    ledger.Agrees y ∧ y.1 = x.1 ∧
      (answer = .ok (x.1.objects key) ∧ (∀ object ∈ x.1.objects key, object.bytes.length ≤ maxBytes) ∨
        ∃ e, answer = .error e) := by
  obtain ⟨s, log⟩ := x
  obtain ⟨s', log'⟩ := y
  obtain ⟨hget, rfl⟩ := hanswer
  dsimp only at hget
  have hputs := (filterMap_get log key maxBytes).trans h.puts
  cases hget with
  | getFailed => exact ⟨⟨h.known, hputs⟩, rfl, .inr ⟨_, rfl⟩⟩
  | got hlength => exact ⟨⟨h.known, hputs⟩, rfl, .inl ⟨rfl, hlength⟩⟩

variable {kind : MissingObjectKind}

/-- `get_required` of a stored object returns it, or the target fails. -/
theorem ensures_getRequiredBounded {maxBytes : Nat} (hkey : x.1.view key = some bytes)
    (hobject : bytes.length ≤ maxBytes → bytes.length ≤ repository.limits.maxObjectBytes)
    (h : ledger.Agrees x) :
    Ensures Logged Others (fun a b => Adds may a.1 b.1) (fun r y => ledger.Agrees y ∧
        y.1.view key = some bytes ∧ EndsWith (· = bytes) StorageError.FromTarget r)
      (repository.getRequiredBounded key kind maxBytes : TargetProg E Bytes) x := by
  refine Ensures.query_bind fun y hxy answer z hanswer => ?_
  have hview : y.1.view key = some bytes := hxy.1.view hkey
  obtain ⟨hagrees, hz, hcases⟩ := agrees_get (agrees_others h hxy) hanswer
  refine ⟨hz ▸ Adds.refl may y.1, ?_⟩
  rcases hcases with ⟨rfl, hlength⟩ | ⟨e, rfl⟩
  · obtain ⟨object, hobj, rfl⟩ := Option.map_eq_some_iff.1 hview
    have hfits := hobject (hlength object hobj)
    simp only [hobj, fromLimit, requireWithin, ensure_of hfits]
    exact fun w hw => ⟨agrees_others hagrees hw, hw.1.view (hz ▸ hview), rfl⟩
  · exact fun w hw => ⟨agrees_others hagrees hw, hw.1.view (hz ▸ hview), _, rfl⟩

/-- What a put leaves, as `resolve_ambiguous_immutable` and the end of `put_immutable` report it. -/
def PutReports (ledger : Ledger) (key : ObjectKey) (bytes : Bytes) :
    Except (StorageError E) Unit → Recorded → Prop :=
  EndsIn Ledger.Agrees
    (fun _ l => (∀ b, ledger.view key = some b → b = bytes) ∧ l = ledger.put key bytes)
    fun e l => e.Worldly ∧ l = ledger.tried key bytes

section

variable (h : (ledger.tried key bytes).Agrees x)

include h

theorem putReports_ok (hkey : x.1.view key = some bytes) :
    PutReports (E := E) ledger key bytes (.ok ()) x := by
  have hsame : ∀ b, ledger.view key = some b → b = bytes := fun b hb =>
    Option.some.inj ((h.known key b hb).symm.trans hkey)
  refine ⟨ledger.put key bytes, ⟨hsame, rfl⟩, fun other b hb => ?_, h.puts⟩
  by_cases hother : other = key
  · subst hother
    rw [Ledger.view_put_self] at hb
    rwa [← Option.some.inj hb]
  · simp only [Ledger.put, Function.update_of_ne hother] at hb
    exact h.known other b hb

theorem putReports_error {e : StorageError E} (he : e.Worldly) :
    PutReports ledger key bytes (.error e) x :=
  ⟨ledger.tried key bytes, ⟨he, rfl⟩, h⟩

/-- An ambiguous put is resolved by what is read. -/
theorem ensures_resolveAmbiguousImmutable {kind : MissingObjectKind} :
    Ensures Logged Others (fun a b => Adds may a.1 b.1) (PutReports ledger key bytes)
      (repository.resolveAmbiguousImmutable key bytes kind : TargetProg E Unit) x := by
  refine Ensures.query_bind fun y hxy answer z hanswer => ?_
  obtain ⟨hagrees, hz, hcases⟩ := agrees_get (agrees_others h hxy) hanswer
  refine ⟨hz ▸ Adds.refl may y.1, ?_⟩
  rcases hcases with ⟨rfl, -⟩ | ⟨e, rfl⟩
  · cases hobj : y.1.objects key with
    | none => exact fun w hw => putReports_error (agrees_others hagrees hw) trivial
    | some object =>
      dsimp only
      split
      · rename_i hsame
        have hview : z.1.view key = some bytes := by
          rw [hz, Target.view, hobj, Option.map_some, hsame]
        exact fun w hw => putReports_ok (agrees_others hagrees hw) (hw.1.view hview)
      · exact fun w hw => putReports_error (agrees_others hagrees hw) trivial
  · exact fun w hw => putReports_error (agrees_others hagrees hw) trivial

end

theorem existingBound_le (h : bytes.length ≤ repository.limits.maxObjectBytes) :
    repository.existingBound kind bytes ≤ repository.limits.maxObjectBytes := by
  obtain ⟨hmanifest, hpage, -⟩ := repository.limits.consistent
  unfold existingBound maxBytesOf
  split
  · exact h
  · cases kind <;> first | exact hmanifest | exact hpage | exact le_rfl

/-- `put_immutable` of permitted bytes leaves them in the target, or the world fails it. -/
theorem ensures_putImmutable (mono : may.Monotone) (hmay : may ledger.view key bytes)
    (hlength : bytes.length ≤ repository.limits.maxObjectBytes) (h : ledger.Agrees x) :
    Ensures Logged Others (fun a b => Adds may a.1 b.1) (PutReports ledger key bytes)
      (repository.putImmutable key bytes kind : TargetProg E Unit) x := by
  refine Ensures.query_bind fun y hxy answer z hanswer => ?_
  have hy := agrees_others h hxy
  have hmayNow : may y.1.view key bytes := mono _ _ _ _ hy.known hmay
  obtain ⟨s, log⟩ := y
  obtain ⟨s', log'⟩ := z
  obtain ⟨hput, rfl⟩ := hanswer
  dsimp only at hput hmayNow
  have hputs := (filterMap_putIfAbsent log key bytes).trans (congrArg (· ++ [(key, bytes)]) hy.puts)
  have hsame : (ledger.tried key bytes).Agrees (s, log ++ [.putIfAbsent key bytes]) := ⟨hy.known, hputs⟩
  have hwritten : ∀ (version : ObjectVersion) (fresh : s.Fresh key version), s.objects key = none →
      (ledger.tried key bytes).Agrees (s.write key bytes version fresh, log ++ [.putIfAbsent key bytes]) :=
    fun version fresh hnone => by
      have hgrows : Grows s (s.write key bytes version fresh) := grows_write hnone
      exact ⟨fun other b hb => hgrows.view (hy.known other b hb), hputs⟩
  cases hput with
  | putFailed => exact ⟨Adds.refl may s, fun w hw => putReports_error (agrees_others hsame hw) trivial⟩
  | created hnone fresh =>
    exact ⟨adds_write fresh hnone hmayNow, fun w hw =>
      putReports_ok (agrees_others (hwritten _ fresh hnone) hw)
        (hw.1.view (@view_write_self s key bytes _ fresh))⟩
  | @alreadyExists _ _ object hobject =>
    have hview : s.view key = some object.bytes := by rw [Target.view, hobject, Option.map_some]
    refine ⟨Adds.refl may s, Ensures.bind Others.refl
      ((ensures_getRequiredBounded hview (fun hle => hle.trans (existingBound_le hlength)) hsame).mono ?_)⟩
    rintro (e | existing) w ⟨hw, hkey, hend⟩
    · exact putReports_error hw hend.worldly
    · obtain rfl : existing = object.bytes := hend
      dsimp only
      split
      · rename_i heq
        exact fun w' hw' => putReports_ok (agrees_others hw hw') (hw'.1.view (heq ▸ hkey))
      · exact fun w' hw' => putReports_error (agrees_others hw hw') trivial
  | putLost => exact ⟨Adds.refl may s, ensures_resolveAmbiguousImmutable hsame⟩
  | putUnknown hnone fresh =>
    exact ⟨adds_write fresh hnone hmayNow, ensures_resolveAmbiguousImmutable (hwritten _ fresh hnone)⟩

/-- **The calls of the target keep to the contract of objects.** A program over objects that meets its
postconditions keeps them when its loads and stores are calls of a target to which others add objects;
every object it adds itself is permitted. -/
theorem runs_objects (mono : may.Monotone) {p : ObjectProg E α} {R : α → Ledger → Prop}
    {F : StorageError E → Ledger → Prop} (hp : Meets (repository.objects may) R F p ledger)
    (h : ledger.Agrees x) :
    Ensures Logged Others (fun a b => Adds may a.1 b.1) (EndsIn Ledger.Agrees R F)
      (p.handle repository.serve) x := by
  refine hp.handle Ledger.Agrees Others.refl agrees_others (fun {ledger x q} hpermits hagrees => ?_) h
  cases q with
  | load key kind maxBytes =>
    obtain ⟨bytes, hkey, -, hobject⟩ := hpermits
    refine (ensures_getRequiredBounded (hagrees.known key bytes hkey) (fun _ => hobject) hagrees).mono ?_
    rintro (e | b) y ⟨hy, -, hend⟩
    · exact ⟨ledger, ⟨hend, rfl⟩, hy⟩
    · obtain rfl : b = bytes := hend
      exact ⟨ledger, ⟨hkey, rfl⟩, hy⟩
  | store key bytes kind =>
    exact ensures_putImmutable mono hpermits.1 hpermits.2 hagrees

/-- How a run ended of a program over the objects of a target to which others add. -/
def Runs (repository : Repository) (x : Recorded) (p : ObjectProg E α)
    (result : Except (StorageError E) α) (y : Recorded) : Prop :=
  Exec Logged Others x (p.handle repository.serve) result y

/-- What a program over objects meets, its runs end with. -/
theorem Runs.ends {p : ObjectProg E α} {R : α → Ledger → Prop} {F : StorageError E → Ledger → Prop}
    {result : Except (StorageError E) α} {y : Recorded}
    (hp : Meets (repository.objects Policy.free) R F p (Ledger.of x))
    (hrun : repository.Runs x p result y) : EndsIn Ledger.Agrees R F result y :=
  Ensures.of_exec Others.refl Others.trans (fun _ _ h => h) hrun
    (runs_objects (fun _ _ _ _ _ _ => trivial) hp (Ledger.of_agrees x))

def evalOn (repository : Repository) (p : ObjectProg MemoryTargetError α) (target : MemoryTarget) :
    Except (StorageError MemoryTargetError) α × MemoryTarget :=
  (p.handle repository.serve).eval MemoryTarget.answer target

theorem runs_evalOn {target : MemoryTarget} (p : ObjectProg MemoryTargetError α)
    (h : target.Models x.1) (hcounting : (repository.evalOn p target).2.Counting) :
    ∃ y, repository.Runs x p (repository.evalOn p target).1 y ∧
      (repository.evalOn p target).2.Models y.1 := by
  refine Exec.of_eval (R := fun target (x : Recorded) => target.Models x.1) MemoryTarget.counting_of_answer ?_
    hcounting h
  intro t x q hcounting h
  obtain ⟨s', hanswer, h'⟩ := MemoryTarget.answers h hcounting q
  exact ⟨(s', x.2 ++ [q]), ⟨hanswer, rfl⟩, h'⟩

end Repository

end W9pt.Storage

import W9pt.Lib.Pool
import W9pt.Storage.Binding
import W9pt.Storage.Ledger
import W9pt.Storage.Publisher

/-!
# Concurrent publication

Any number of publishers create, replace and rebase the head of one file at the same time. A swap whose
answer is lost may have happened or not; a call may stop at any of its queries.

`publication_steps` says what such a run does to the head: it changes only by going one generation on,
to what the contributing call's mutation makes of the version before; a call contributes at most once;
one that reports a conflict, or fails otherwise than by an ambiguous publication, contributed nothing;
and one that reports a version without having published it reports either the version that carries its
own mutation, which another call published, or a version that its mutation leaves as it is
(`replace_already_published` is a run of the first kind). A mutation that no other call carries is
published by its own call.

What a mutation makes of a version is the caller's: `applies` is any relation between versions that the
preparations handed to the publisher satisfy.
-/

namespace W9pt.Storage

open Lib

variable {E : Type}

/-! ## Heads of stored objects -/

theorem readKey_agree (limits limits' : StorageLimits) : Agree (readKey limits) (readKey limits') :=
  (Agree.refl _).bind fun _ => Agree.lift.bind fun _ => Agree.refl _

theorem readHead_agree (limits limits' : StorageLimits) :
    Agree (readHead limits) (readHead limits') :=
  (Agree.refl _).bind fun _ => (Agree.refl _).bind fun _ =>
    (readKey_agree limits limits').bind fun _ => Agree.refl _

/-- The head that an object holds. -/
def HeadOf (crypto : Crypto) (object : TargetObject) (head : FileHead) : Prop :=
  ∃ limits, decodeHead crypto object.bytes limits = .ok head

/-- The limits decide whether a head is read, not what is read. -/
theorem HeadOf.unique {crypto : Crypto} {object : TargetObject} {head head' : FileHead}
    (h : HeadOf crypto object head) (h' : HeadOf crypto object head') : head = head' := by
  obtain ⟨limits, h⟩ := h
  obtain ⟨limits', h'⟩ := h'
  simp only [decodeHead, decodeEnvelope, bind_eq_ok, mapErr_eq_ok, requireWithin_eq_ok, pure_eq_ok]
    at h h'
  obtain ⟨_, ⟨_, -, payload, hpayload, rfl⟩, read, hread, _, -, rfl⟩ := h
  obtain ⟨_, ⟨_, -, payload', hpayload', rfl⟩, read', hread', _, -, rfl⟩ := h'
  rw [hpayload] at hpayload'
  cases hpayload'
  rw [readHead_agree limits limits' _ _ _ hread hread']

def FileHead.selected (head : FileHead) : BaseContentIdentity :=
  ⟨head.generation, head.manifestDigest⟩

structure PublishedContent.IsHead (content : PublishedContent) (head : FileHead) : Prop where
  selected : head.selected = .fromContent content.content
  manifestKey : head.manifestKey = content.content.manifestKey
  mutationId : head.mutationId = content.mutationId

/-! ## Reading versions -/

def TargetQuery.IsGet : TargetQuery → Prop
  | .get .. => True
  | _ => False

namespace Publisher

variable {publisher : Publisher} {head : FileHead}

theorem contentOf_eq_ok {context : FileCryptoContext} {preparation : PreparationKey}
    {canonical : Bytes} {r : ContentRef × PreparationKey}
    (h : publisher.contentOf head context preparation canonical = (.ok r : Except (StorageError E) _)) :
    head.selected = .fromContent r.1 ∧ head.manifestKey = r.1.manifestKey := by
  simp only [contentOf, bind_eq_ok, ensure_eq_ok] at h
  obtain ⟨manifest, -, _, -, _, -, _, hgeneration, _, -, h⟩ := h
  split at h
  · cases h
    simp [FileHead.selected, BaseContentIdentity.fromContent, hgeneration]
  · cases h

theorem openContent_eq_ok {bytes : Bytes} {r : ContentRef × PreparationKey}
    (h : publisher.openContent head bytes = (.ok r : Except (StorageError E) _)) :
    head.selected = .fromContent r.1 ∧ head.manifestKey = r.1.manifestKey := by
  simp only [openContent, bind_eq_ok, ensure_eq_ok] at h
  obtain ⟨_, -, h⟩ := h
  split at h
  · simp only [bind_eq_ok] at h
    obtain ⟨_, -, ⟨_, decoded⟩, -, h⟩ := h
    dsimp only at h
    split at h
    · simp only [bind_eq_ok, ensure_eq_ok] at h
      obtain ⟨_, -, _, -, h⟩ := h
      exact contentOf_eq_ok h
    · cases h
  · simp only [bind_eq_ok] at h
    obtain ⟨decoded, -, h⟩ := h
    split at h
    · simp only [bind_eq_ok, ensure_eq_ok] at h
      obtain ⟨_, -, _, -, _, -, h⟩ := h
      exact contentOf_eq_ok h
    · cases h

theorem always_loadContent : (publisher.loadContent head : TargetProg E _).Always fun r =>
    head.selected = .fromContent r.1 ∧ head.manifestKey = r.1.manifestKey := by
  refine Prog.always_bind_of_forall fun _ => Prog.always_bind_of_forall fun answer => ?_
  match answer with
  | .error _ => trivial
  | .ok none => trivial
  | .ok (some object) => exact Prog.always_lift fun r => openContent_eq_ok

theorem asks_loadContent : (publisher.loadContent head : TargetProg E _).Asks TargetQuery.IsGet := by
  refine (Prog.asks_lift _).bind fun _ => (Prog.asks_query trivial).bind fun answer => ?_
  match answer with
  | .error _ => trivial
  | .ok none => trivial
  | .ok (some object) => exact Prog.asks_lift _

theorem always_decodePublished {object : TargetObject} :
    (publisher.decodePublished object : TargetProg E _).Always fun content =>
      content.version = object.version ∧
      ∃ head, HeadOf publisher.repository.crypto object head ∧ content.IsHead head := by
  refine Prog.always_bind (R := fun head => HeadOf publisher.repository.crypto object head)
    (Prog.always_lift fun head h => ?_) fun head hhead => ?_
  · rw [fromPersistent, mapErr_eq_ok] at h
    exact ⟨_, h⟩
  · refine Prog.always_bind_of_forall fun _ =>
      Prog.always_bind always_loadContent fun r hr => ⟨rfl, head, hhead, ?_⟩
    exact ⟨hr.1, hr.2, rfl⟩

theorem asks_decodePublished {object : TargetObject} :
    (publisher.decodePublished object : TargetProg E _).Asks TargetQuery.IsGet :=
  (Prog.asks_lift _).bind fun _ => (Prog.asks_lift _).bind fun _ => asks_loadContent.bind fun _ => trivial

end Publisher

/-! ## Calls -/

/-- What a call does to the head. -/
inductive PublisherOperation (E : Type) where
  | create (prepared : PreparedContent)
  | replace (expected : PublishedContent) (prepared : PreparedContent)
  | mutateRebased (prepare : ContentRef → UInt32 → TargetProg E PreparedContent)

structure PublisherCall (E : Type) where
  publisher : Publisher
  mutation : MutationId
  operation : PublisherOperation E

/-- The program of a call; the version that `mutate_rebased` returns is one that it reports as
published. -/
def PublisherCall.program (call : PublisherCall E) : TargetProg E Publication :=
  match call.operation with
  | .create prepared => call.publisher.create call.mutation prepared
  | .replace expected prepared => call.publisher.replace expected call.mutation prepared
  | .mutateRebased prepare => do
    let published ← call.publisher.mutateRebased call.mutation prepare
    return .published published

/-! ## What a run does to the head -/

/-- One head, and what mutations make of versions. -/
structure HeadSpec where
  crypto : Crypto
  key : ObjectKey
  applies : MutationId → BaseContentIdentity → BaseContentIdentity → Prop

namespace HeadSpec

/-- The objects before and after each change of the head. -/
abbrev Changes := List (Option TargetObject × Option TargetObject)

variable (spec : HeadSpec)

/-- The head goes one generation on, to what the mutation makes of the version before. -/
def Advances (mutation : MutationId) (before after : Option TargetObject) : Prop :=
  ∃ head object head', Option.Rel (HeadOf spec.crypto) before head ∧ after = some object ∧
    HeadOf spec.crypto object head' ∧
    head'.generation.toNat = (head.elim 0 fun head => head.generation.toNat) + 1 ∧
    head'.mutationId = mutation ∧
    spec.applies mutation (head.elim .newFile FileHead.selected) head'.selected

/-- A version that was published, under the revision it is guarded by. -/
def Stored (s : Target) (content : PublishedContent) : Prop :=
  ∃ object ∈ s.written spec.key, object.version = content.version ∧
    ∃ head, HeadOf spec.crypto object head ∧ content.IsHead head

/-- A preparation holds what its mutation makes of its base. -/
def Applied (prepared : PreparedContent) : Prop :=
  spec.applies prepared.identity.mutationId prepared.identity.base (.fromContent prepared.content)

/-- A move that leaves the head alone. -/
def Quiet (s s' : Target) : Prop :=
  s'.objects spec.key = s.objects spec.key ∧ s'.written spec.key = s.written spec.key

/-- What others do to the head: what was published stays on record. -/
def Rely (s s' : Target) : Prop := s.written spec.key ⊆ s'.written spec.key

/-- The preparations of `mutate_rebased` leave the head alone and apply the mutation. -/
def Prepares (prepare : ContentRef → UInt32 → TargetProg E PreparedContent) : Prop :=
  ∀ base conflicts s, Ensures Target.Answers spec.Rely spec.Quiet
    (fun r _ => ∀ prepared, r = .ok prepared → spec.Applied prepared) (prepare base conflicts) s

/-- A call that may start: it is about this head, its preparations apply its mutation, and the version
that it replaces is one that was published. -/
def Starts (s : Target) (call : PublisherCall E) : Prop :=
  call.publisher.headKey = spec.key ∧ call.publisher.repository.crypto = spec.crypto ∧
  match call.operation with
  | .create prepared => spec.Applied prepared
  | .replace expected prepared => spec.Stored s expected ∧ spec.Applied prepared
  | .mutateRebased prepare => spec.Prepares prepare

/-- Runs of any number of calls, while others use the rest of the target. -/
abbrev Run (s₀ : Target) (history : History Target)
    (pool : Pool Target (PublisherCall E) (TargetProg E Publication)) : Prop :=
  PoolRun Target.Answers spec.Quiet PublisherCall.program spec.Starts (Pool.idle s₀) history pool

def note (s s' : Target) (changes : Changes) : Changes :=
  if s'.objects spec.key = s.objects spec.key then changes
  else changes ++ [(s.objects spec.key, s'.objects spec.key)]

/-- The changes of the head that a call made. -/
def contribution (i : Nat) (history : History Target) : Changes := ownLog spec.note [] i history

/-- What a call has contributed: nothing, or one step. -/
def Contributed (mutation : MutationId) (changes : Changes) : Prop :=
  changes = [] ∨ ∃ before after, changes = [(before, after)] ∧ spec.Advances mutation before after

/-- A version that a call reports as published. Without a contribution of the call, another call has
published it with the same mutation, or the mutation leaves it as it is. -/
def Reports (mutation : MutationId) (content : PublishedContent) (s : Target) (changes : Changes) :
    Prop :=
  spec.Stored s content ∧
  (content.mutationId = mutation ∧ (changes = [] ∨ ∃ before object head,
      changes = [(before, some object)] ∧ HeadOf spec.crypto object head ∧ content.IsHead head) ∨
    changes = [] ∧ spec.applies mutation (.fromContent content.content) (.fromContent content.content))

/-- Only an ambiguous publication leaves open whether the call contributed. -/
def Fails (error : StorageError E) (changes : Changes) : Prop :=
  (∀ key, error ≠ .ambiguous .headPublication key) → changes = []

/-- What the end of a call says of its contribution. -/
def Settles (mutation : MutationId) : Except (StorageError E) Publication → Target × Changes → Prop
  | .ok (.published content), x => spec.Reports mutation content x.1 x.2
  | .ok .conflict, x => x.2 = []
  | .error error, x => Fails error x.2

/-- What a call guarantees the others of each of its moves. -/
def Guarantee (mutation : MutationId) (x y : Target × Changes) : Prop :=
  spec.Contributed mutation y.2 ∧ spec.Rely x.1 y.1 ∧
  (spec.Quiet x.1 y.1 ∨ spec.Advances mutation (x.1.objects spec.key) (y.1.objects spec.key))

/-- The condition of a program of a call that has contributed `changes`. -/
def Ends {α : Type} (mutation : MutationId) (post : Except (StorageError E) α → Target × Changes → Prop)
    (p : TargetProg E α) (s : Target) (changes : Changes) : Prop :=
  Ensures (Noting spec.note Target.Answers) (Apart spec.Rely) (spec.Guarantee mutation) post p
    (s, changes)

/-! ## Moves -/

theorem rely_refl (s : Target) : spec.Rely s s := Set.Subset.refl _

theorem rely_trans (a b c : Target) (hab : spec.Rely a b) (hbc : spec.Rely b c) : spec.Rely a c :=
  Set.Subset.trans hab hbc

variable {spec}

theorem Quiet.refl (s : Target) : spec.Quiet s s := ⟨rfl, rfl⟩

variable {s s' : Target} {mutation : MutationId} {prepared : PreparedContent}

theorem Quiet.rely (h : spec.Quiet s s') : spec.Rely s s' := h.2.symm.subset

variable {content : PublishedContent}

theorem Stored.of_rely (h : spec.Stored s content) (hs : spec.Rely s s') :
    spec.Stored s' content := by
  obtain ⟨object, hobject, rest⟩ := h
  exact ⟨object, hs hobject, rest⟩

theorem note_of_quiet (h : spec.Quiet s s') (changes : Changes) :
    spec.note s s' changes = changes := if_pos h.1

/-- Every answer leaves the head alone or stores an object that was never there. -/
theorem records {q : TargetQuery} {x : TargetAnswer E q}
    (h : Target.Answers s q x s') : spec.Quiet s s' ∨ ∃ object, s'.objects spec.key = some object ∧
      s.objects spec.key ≠ some object ∧
      s'.written spec.key = insert object (s.written spec.key) := by
  have hwrite : ∀ {key : ObjectKey} {bytes : Bytes} {version : ObjectVersion}
      {fresh : s.Fresh key version}, spec.Quiet s (s.write key bytes version fresh) ∨
      ∃ object, (s.write key bytes version fresh).objects spec.key = some object ∧
        s.objects spec.key ≠ some object ∧
        (s.write key bytes version fresh).written spec.key = insert object (s.written spec.key) := by
    intro key bytes version fresh
    by_cases hkey : spec.key = key
    · subst hkey
      refine .inr ⟨⟨bytes, version⟩, Target.objects_write_self, fun hold => ?_,
        Target.written_write_self⟩
      exact fresh _ (s.current hold) rfl
    · exact .inl ⟨Target.objects_write_of_ne hkey, Target.written_write_of_ne hkey⟩
  cases h with
  | created | putUnknown | replaced | swapUnknown => exact hwrite
  | _ => exact .inl (Quiet.refl _)

variable {changes : Changes}

/-- A program that leaves the head alone adds nothing to the contribution. -/
theorem Ends.quietly {α : Type} (hchanges : spec.Contributed mutation changes)
    {post : Except (StorageError E) α → Target → Prop} {p : TargetProg E α}
    (h : Ensures Target.Answers spec.Rely spec.Quiet post p s) :
    spec.Ends mutation (fun r x => spec.Rely s x.1 ∧ post r x.1 ∧ x.2 = changes) p s changes := by
  have hsince := h.since spec.rely_trans fun _ _ => Quiet.rely
  refine (Ensures.noting (fun s s' hquiet => note_of_quiet hquiet changes) (fun s s' hquiet => ?_)
    hsince).mono fun r x hx => ⟨hx.1.1, hx.1.2, hx.2⟩
  exact ⟨hchanges, hquiet.rely, .inl hquiet⟩

theorem Ends.bind {α β : Type} {mid : Except (StorageError E) α → Target × Changes → Prop}
    {post : Except (StorageError E) β → Target × Changes → Prop} {p : TargetProg E α}
    {f : α → TargetProg E β} (hp : spec.Ends mutation mid p s changes)
    (hok : ∀ a s' changes', mid (.ok a) (s', changes') → spec.Ends mutation post (f a) s' changes')
    (herror : ∀ e x, mid (.error e) x → post (.error e) x) :
    spec.Ends mutation post (p >>= f) s changes := by
  refine Ensures.bind (Apart.refl spec.rely_refl) (Ensures.mono ?_ hp)
  rintro (e | a) ⟨s', changes'⟩ hmid
  · exact herror e _ hmid
  · exact hok a s' changes' hmid

theorem Ends.lift_bind {α β : Type}
    {post : Except (StorageError E) β → Target × Changes → Prop} {x : Except (StorageError E) α}
    {f : α → TargetProg E β} (hfails : ∀ e s', post (.error e) (s', []))
    (hok : ∀ a, x = .ok a → spec.Ends mutation post (f a) s []) :
    spec.Ends mutation post (Prog.lift x >>= f) s [] := by
  refine Ensures.lift_bind hok fun e _ x hx => ?_
  obtain ⟨s', changes⟩ := x
  obtain ⟨-, rfl⟩ := hx
  exact hfails e s'

/-! ## Reading the head -/

theorem quiet_of_isGet {q : TargetQuery} {x : TargetAnswer E q} (hq : q.IsGet)
    (h : Target.Answers s q x s') : spec.Quiet s s' := by
  cases h with
  | getFailed | got => exact Quiet.refl _
  | _ => exact hq.elim

/-- A publisher of this head. -/
structure Publishes (spec : HeadSpec) (publisher : Publisher) : Prop where
  headKey : publisher.headKey = spec.key
  crypto : publisher.repository.crypto = spec.crypto

theorem ensures_reads (spec : HeadSpec) {α : Type} {p : TargetProg E α} {R : α → Prop}
    {F : StorageError E → Prop} (hp : p.Asks TargetQuery.IsGet) (hr : p.Always R) (hf : p.Fails F)
    (s : Target) : Ensures Target.Answers spec.Rely spec.Quiet
      (fun r s' => spec.Rely s s' ∧ EndsWith R F r) p s := by
  refine Ensures.since spec.rely_trans (fun _ _ => Quiet.rely) (Ensures.of_asks ?_ hp hr hf s)
  exact fun _ _ _ _ => quiet_of_isGet

/-- The object that a read of the head returns is on record. -/
theorem ensures_getHead {α : Type} {post : Except (StorageError E) α → Target → Prop} {maxBytes : Nat}
    {f : Except E (Option TargetObject) → TargetProg E α}
    (h : ∀ s₁ answer, (∀ object, answer = .ok (some object) → object ∈ s₁.written spec.key) →
      Ensures Target.Answers spec.Rely spec.Quiet post (f answer) s₁) :
    Ensures Target.Answers spec.Rely spec.Quiet post (getObject spec.key maxBytes >>= f) s := by
  refine Ensures.query_bind fun s₁ _ x s₂ hx => ?_
  cases hx with
  | getFailed => exact ⟨Quiet.refl _, h _ _ fun _ hobject => nomatch hobject⟩
  | got => exact ⟨Quiet.refl _, h _ _ fun _ hobject => s₁.current (Except.ok.inj hobject)⟩

variable {publisher : Publisher}

/-- A version that was loaded was published. -/
theorem ensures_load (hp : spec.Publishes publisher) (s : Target) :
    Ensures Target.Answers spec.Rely spec.Quiet
      (fun r s' => ∀ content, r = .ok (some content) → spec.Stored s' content)
      (publisher.load : TargetProg E _) s := by
  refine Ensures.lift_bind (fun _ _ => ?_) fun e _ s' _ content hcontent => nomatch hcontent
  rw [hp.headKey]
  refine ensures_getHead fun s₁ answer hanswer => ?_
  match answer with
  | .error _ => exact fun s' _ content hcontent => nomatch hcontent
  | .ok none => exact fun s' _ content hcontent => nomatch hcontent
  | .ok (some object) =>
    refine Ensures.bind spec.rely_refl ((spec.ensures_reads Publisher.asks_decodePublished
      Publisher.always_decodePublished (Prog.fails_true _) s₁).mono ?_)
    rintro (e | content) s' ⟨hrely, hr⟩
    · exact fun content hcontent => nomatch hcontent
    · obtain ⟨hversion, head, hhead, his⟩ := hr
      rw [hp.crypto] at hhead
      have hstored : spec.Stored s' content :=
        ⟨object, hrely (hanswer object rfl), hversion.symm, head, hhead, his⟩
      intro s'' hrely' content' hcontent'
      cases hcontent'
      exact hstored.of_rely hrely'

/-! ## Publishing -/

variable (spec) in

/-- A lost answer is resolved to the desired head or stays ambiguous. -/
def Resolves (desired : FileHead) : Except (StorageError E) Publication → Target → Prop
  | .ok (.published content), s => spec.Stored s content ∧ content.IsHead desired
  | .ok .conflict, _ => False
  | .error e, _ => ∃ key, e = .ambiguous .headPublication key

theorem ensures_resolveAmbiguous (hp : spec.Publishes publisher) (desired : FileHead) (s : Target) :
    Ensures Target.Answers spec.Rely spec.Quiet
      (spec.Resolves desired) (publisher.resolveAmbiguous desired : TargetProg E _) s := by
  unfold Publisher.resolveAmbiguous
  rw [hp.headKey]
  refine ensures_getHead fun s₁ answer hanswer => ?_
  match answer with
  | .error _ => exact fun s' _ => ⟨_, rfl⟩
  | .ok none => exact fun s' _ => ⟨_, rfl⟩
  | .ok (some object) =>
    dsimp only
    cases hdecode : decodeHead publisher.repository.crypto object.bytes publisher.repository.limits with
    | error e => exact fun s' _ => ⟨_, rfl⟩
    | ok head =>
      dsimp only
      split
      · rename_i hdesired
        subst hdesired
        refine Ensures.bind spec.rely_refl ((spec.ensures_reads Publisher.asks_loadContent.mapErr
          Publisher.always_loadContent.mapErr (Prog.fails_mapErr (fun _ => rfl) _) s₁).mono ?_)
        rintro (e | r) s' ⟨hrely, hr⟩
        · exact ⟨_, Eq.symm hr⟩
        · intro s'' hrely'
          refine ⟨⟨object, hrely' (hrely (hanswer object rfl)), rfl, head, ?_, hr.1, hr.2, rfl⟩,
            hr.1, hr.2, rfl⟩
          exact ⟨_, hp.crypto ▸ hdecode⟩
      · exact fun s' _ => ⟨_, rfl⟩

variable (spec) in
/-- What a swap against `expected` replaces is the version that the preparation started from. -/
def Fits (mutation : MutationId) (prepared : PreparedContent) (expected : Option ObjectVersion)
    (s : Target) : Prop :=
  ∀ s₁, spec.Rely s s₁ → s₁.version? spec.key = expected →
    ∃ head, Option.Rel (HeadOf spec.crypto) (s₁.objects spec.key) head ∧
      prepared.content.generation.toNat = (head.elim 0 fun head => head.generation.toNat) + 1 ∧
      spec.applies mutation (head.elim .newFile FileHead.selected) (.fromContent prepared.content)

variable {expected : Option ObjectVersion}

theorem Fits.of_rely (h : spec.Fits mutation prepared expected s) (hs : spec.Rely s s') :
    spec.Fits mutation prepared expected s' :=
  fun s₁ hs₁ => h s₁ (spec.rely_trans _ _ _ hs hs₁)

/-- A swap happened or it did not. -/
theorem swap_cases {key : ObjectKey} {bytes : Bytes} {x : Except E CompareExchange}
    (h : Target.Answers s (.compareExchange key expected bytes) x s') :
    s' = s ∧ (∀ version, x ≠ .ok (.replaced version)) ∨
    ∃ version, ∃ fresh : s.Fresh key version, s.version? key = expected ∧
      s' = s.write key bytes version fresh ∧
      (x = .ok (.replaced version) ∨ x = .ok .ambiguous) := by
  cases h with
  | swapFailed | conflict | swapLost => exact .inl ⟨rfl, fun _ => nofun⟩
  | replaced hexpected fresh => exact .inr ⟨_, fresh, hexpected, rfl, .inl rfl⟩
  | swapUnknown hexpected fresh => exact .inr ⟨_, fresh, hexpected, rfl, .inr rfl⟩

theorem asks_loadManifest (repository : Repository) (content : ContentRef) (context : FileCryptoContext) :
    ((repository.loadManifest content context).handle repository.serve :
      TargetProg E FileManifest).Asks TargetQuery.IsGet := by
  refine Prog.Asks.handle (P := fun q => ∃ key kind maxBytes, q = .load key kind maxBytes) ?_
    ((Prog.asks_lift _).bind fun _ => (Prog.asks_query ⟨_, _, _, rfl⟩).bind fun _ => Prog.asks_lift _)
  rintro _ ⟨key, kind, maxBytes, rfl⟩
  refine (Prog.asks_query trivial).bind fun answer => ?_
  match answer with
  | .error _ => trivial
  | .ok none => trivial
  | .ok (some object) => exact (Prog.asks_lift _).bind fun _ => trivial

/-- What the call has stored before it resolves a lost answer is the head that it looks for. -/
theorem ends_resolveAmbiguous (hp : spec.Publishes publisher) {desired : FileHead}
    (hmutation : desired.mutationId = mutation)
    (hchanges : changes = [] ∨ ∃ before object, changes = [(before, some object)] ∧
      HeadOf spec.crypto object desired ∧ spec.Advances mutation before (some object)) :
    spec.Ends mutation (spec.Settles mutation)
      (publisher.resolveAmbiguous desired : TargetProg E _) s changes := by
  have hcontributed : spec.Contributed mutation changes := by
    refine hchanges.imp_right ?_
    rintro ⟨before, object, rfl, -, hadvances⟩
    exact ⟨before, some object, rfl, hadvances⟩
  refine (Ends.quietly hcontributed (ensures_resolveAmbiguous hp desired s)).mono ?_
  rintro (e | _ | _) ⟨s', _⟩ ⟨-, hr, rfl⟩
  · obtain ⟨key, rfl⟩ := hr
    exact fun hother => absurd rfl (hother key)
  · obtain ⟨hstored, his⟩ := hr
    refine ⟨hstored, .inl ⟨his.mutationId.symm.trans hmutation, hchanges.imp_right ?_⟩⟩
    rintro ⟨before, object, hchanged, hhead, -⟩
    exact ⟨before, object, desired, hchanged, hhead, his⟩
  · exact hr.elim

/-- One swap, at most one step. -/
theorem ends_publishHead (hp : spec.Publishes publisher)
    (hfits : spec.Fits mutation prepared expected s) :
    spec.Ends mutation (spec.Settles mutation)
      (publisher.publishHead mutation prepared expected : TargetProg E _) s [] := by
  have hfails : ∀ (e : StorageError E) (s' : Target), spec.Settles mutation (.error e) (s', []) :=
    fun e s' _ => rfl
  refine Ends.bind (Ends.quietly (.inl rfl) (spec.ensures_reads (asks_loadManifest _ _ _)
    (Prog.always_true _) (Prog.fails_true _) s)) (fun _ s₁ changes hs₁ => ?_) fun e x hx => ?_
  · obtain ⟨hrely, -, rfl⟩ := hs₁
    replace hfits := hfits.of_rely hrely
    refine Ends.lift_bind hfails fun bytes hbytes => ?_
    rw [fromPersistent, mapErr_eq_ok] at hbytes
    have hread := decodeHead_eq_ok.2 hbytes
    rw [hp.headKey]
    refine Ensures.query_bind ?_
    rintro ⟨s₂, _⟩ ⟨hrely₂, rfl⟩ answer ⟨s₃, changes⟩ ⟨hanswer, hchanges⟩
    dsimp only at hanswer hchanges hrely₂
    rcases swap_cases hanswer with ⟨rfl, hlost⟩ | ⟨version, fresh, hexpected, rfl, hwon⟩
    · rw [note_of_quiet (Quiet.refl _)] at hchanges
      subst hchanges
      refine ⟨⟨.inl rfl, spec.rely_refl _, .inl (Quiet.refl _)⟩, ?_⟩
      match answer with
      | .error source =>
        rintro ⟨s', _⟩ ⟨-, rfl⟩
        exact hfails _ s'
      | .ok (.replaced version) => exact absurd rfl (hlost version)
      | .ok (.conflict _) =>
        rintro ⟨s', _⟩ ⟨-, rfl⟩
        exact rfl
      | .ok .ambiguous =>
        refine ends_resolveAmbiguous hp ?_ (.inl rfl)
        rfl
    · obtain ⟨head, hhead, hgeneration, happlies⟩ := hfits s₂ hrely₂ hexpected
      have hstored : HeadOf spec.crypto ⟨bytes, version⟩ _ := ⟨_, hp.crypto ▸ hread⟩
      have hadvances : spec.Advances mutation (s₂.objects spec.key) (some ⟨bytes, version⟩) :=
        ⟨head, _, _, hhead, rfl, hstored, hgeneration, rfl, happlies⟩
      have hnoted : changes = [(s₂.objects spec.key, some ⟨bytes, version⟩)] := by
        rw [hchanges, note, Target.objects_write_self, if_neg, List.nil_append]
        exact fun hsame => fresh _ (s₂.current hsame.symm) rfl
      subst hnoted
      refine ⟨⟨.inr ⟨_, _, rfl, hadvances⟩, ?_, .inr ?_⟩, ?_⟩
      · rw [Rely, Target.written_write_self]
        exact Set.subset_insert _ _
      · rw [Target.objects_write_self]
        exact hadvances
      · rcases hwon with rfl | rfl
        · rintro ⟨s', _⟩ ⟨hrely', rfl⟩
          refine ⟨⟨⟨bytes, version⟩, hrely' ?_, rfl, _, hstored, rfl, rfl, rfl⟩,
            .inl ⟨rfl, .inr ⟨_, _, _, rfl, hstored, rfl, rfl, rfl⟩⟩⟩
          rw [Target.written_write_self]
          exact Set.mem_insert _ _
        · refine ends_resolveAmbiguous hp ?_ (.inr ⟨_, _, rfl, hstored, hadvances⟩)
          rfl
  · obtain ⟨-, -, hx⟩ := hx
    exact fun _ => hx

/-- What a preparation that passes `validate_preparation` says of its base. -/
theorem validatePreparation_eq_ok {base : Option ContentRef} {u : Unit}
    (h : publisher.validatePreparation mutation prepared base = (.ok u : Except (StorageError E) _)) :
    prepared.identity.mutationId = mutation ∧ prepared.identity.base = base.elim .newFile .fromContent := by
  simp only [Publisher.validatePreparation, bind_eq_ok, ensure_eq_ok] at h
  obtain ⟨_, hmutation, _, hbase, -⟩ := h
  exact ⟨hmutation, hbase⟩

theorem Applied.of_validate (h : spec.Applied prepared) {base : BaseContentIdentity}
    (hmutation : prepared.identity.mutationId = mutation) (hbase : prepared.identity.base = base) :
    spec.applies mutation base (.fromContent prepared.content) := by
  rw [← hmutation, ← hbase]
  exact h

theorem ends_create (hp : spec.Publishes publisher) (happlied : spec.Applied prepared) (s : Target) :
    spec.Ends mutation (spec.Settles mutation)
      (publisher.create mutation prepared : TargetProg E _) s [] := by
  have hfails : ∀ (e : StorageError E) (s' : Target), spec.Settles mutation (.error e) (s', []) :=
    fun e s' _ => rfl
  refine Ends.lift_bind hfails fun _ _ => Ends.lift_bind hfails fun _ hgeneration =>
    Ends.lift_bind hfails fun _ hvalid => ends_publishHead hp fun s₁ _ habsent => ?_
  obtain ⟨hmutation, hbase⟩ := validatePreparation_eq_ok hvalid
  refine ⟨none, ?_, ?_, happlied.of_validate hmutation hbase⟩
  · rw [Option.map_eq_none_iff.1 habsent]
    exact .none
  · rw [ensure_eq_ok.1 hgeneration]
    rfl

/-- A version that is replaced is the one whose revision the swap expects. -/
theorem fits_of_stored {expected : PublishedContent} (hstored : spec.Stored s expected)
    (hgeneration : prepared.content.generation.toNat = expected.content.generation.toNat + 1)
    (happlies : spec.applies mutation (.fromContent expected.content)
      (.fromContent prepared.content)) :
    spec.Fits mutation prepared (some expected.version) s := by
  intro s₁ hrely hversion
  obtain ⟨object, hobject, hsame, head, hhead, his⟩ := hstored
  obtain ⟨current, hcurrent, hcurrentVersion⟩ := Option.map_eq_some_iff.1 hversion
  have heq : current = object :=
    s₁.distinct (s₁.current hcurrent) (hrely hobject) (hcurrentVersion.trans hsame.symm)
  subst heq
  refine ⟨some head, hcurrent ▸ .some hhead, ?_, ?_⟩
  · have hselected := congrArg BaseContentIdentity.generation his.selected
    rw [hgeneration]
    exact congrArg (fun g : UInt64 => g.toNat + 1) hselected.symm
  · show spec.applies mutation head.selected _
    rw [his.selected]
    exact happlies

theorem Reports.of_rely (h : spec.Reports mutation content s changes) (hs : spec.Rely s s') :
    spec.Reports mutation content s' changes :=
  ⟨h.1.of_rely hs, h.2⟩

theorem ends_replace (hp : spec.Publishes publisher) {expected : PublishedContent}
    (hstored : spec.Stored s expected) (happlied : spec.Applied prepared) :
    spec.Ends mutation (spec.Settles mutation)
      (publisher.replace expected mutation prepared : TargetProg E _) s [] := by
  have hfails : ∀ (e : StorageError E) (s' : Target), spec.Settles mutation (.error e) (s', []) :=
    fun e s' _ => rfl
  refine Ends.lift_bind hfails fun _ _ => Ends.lift_bind hfails fun _ hvalid => ?_
  obtain ⟨hmutation, hbase⟩ := validatePreparation_eq_ok hvalid
  split
  · rename_i hown
    split
    · rintro ⟨s', _⟩ ⟨hrely, rfl⟩
      exact ⟨hstored.of_rely hrely, .inl ⟨hown, .inl rfl⟩⟩
    · rintro ⟨s', _⟩ ⟨-, rfl⟩
      exact hfails _ s'
  · refine Ends.lift_bind hfails fun next hnext => Ends.lift_bind hfails fun _ hgeneration =>
      Ends.lift_bind hfails fun _ _ => ends_publishHead hp (fits_of_stored hstored ?_
        (happlied.of_validate hmutation hbase))
    rw [ensure_eq_ok.1 hgeneration]
    exact checkedAdd_eq_some.1 (okOr_eq_ok.1 hnext)

theorem ensures_loadRequired (hp : spec.Publishes publisher) (s : Target) :
    Ensures Target.Answers spec.Rely spec.Quiet
      (fun r s' => ∀ content, r = .ok content → spec.Stored s' content)
      (publisher.loadRequired : TargetProg E _) s := by
  refine Ensures.bind spec.rely_refl ((ensures_load hp s).mono ?_)
  rintro (e | _ | content) s' hr
  · exact fun content hcontent => nomatch hcontent
  · exact fun s'' _ content hcontent => nomatch hcontent
  · intro s'' hrely content' hcontent
    cases hcontent
    exact (hr content rfl).of_rely hrely

variable {current : PublishedContent}

theorem validateRound_eq_ok {u : Unit}
    (h : publisher.validateRound mutation current prepared = (.ok u : Except (StorageError E) _)) :
    prepared.identity.mutationId = mutation ∧
      prepared.identity.base = .fromContent current.content := by
  unfold Publisher.validateRound at h
  split at h
  · obtain ⟨_, -, h⟩ := bind_eq_ok.1 h
    exact validatePreparation_eq_ok h
  · exact validatePreparation_eq_ok h

/-- What the end of `mutate_rebased` says of its contribution. -/
def Rebased (spec : HeadSpec) (mutation : MutationId) (r : Except (StorageError E) PublishedContent)
    (x : Target × Changes) : Prop :=
  EndsWith (fun content => spec.Reports mutation content x.1 x.2) (fun e => Fails e x.2) r

/-- A round that has to be repeated contributed nothing. -/
def Round (spec : HeadSpec) (mutation : MutationId)
    (r : Except (StorageError E) (PublishedContent ⊕ Digest)) (x : Target × Changes) : Prop :=
  EndsWith (Sum.elim (fun content => spec.Reports mutation content x.1 x.2) fun _ => x.2 = [])
    (fun e => Fails e x.2) r

variable {prepare : ContentRef → UInt32 → TargetProg E PreparedContent}

theorem ends_rebaseRound (hp : spec.Publishes publisher) (hprepare : spec.Prepares prepare)
    (conflicts : UInt32) (fingerprint : Option Digest) (hstored : spec.Stored s current) :
    spec.Ends mutation (spec.Round mutation)
      (publisher.rebaseRound mutation prepare conflicts fingerprint current) s [] := by
  have hfails : ∀ (e : StorageError E) (s' : Target), spec.Round mutation (.error e) (s', []) :=
    fun e s' _ => rfl
  refine Ends.bind (Ends.quietly (.inl rfl) (hprepare current.content conflicts s))
    (fun prepared s₁ _ hs₁ => ?_) fun e x hx => fun _ => hx.2.2
  obtain ⟨hrely, happlied, rfl⟩ := hs₁
  replace happlied := happlied prepared rfl
  replace hstored := hstored.of_rely hrely
  refine Ends.lift_bind hfails fun _ hround => ?_
  obtain ⟨hmutation, hbase⟩ := validateRound_eq_ok hround
  split
  · rename_i hown
    split
    · rintro ⟨s', _⟩ ⟨hrely, rfl⟩
      exact ⟨hstored.of_rely hrely, .inl ⟨hown, .inl rfl⟩⟩
    · rintro ⟨s', _⟩ ⟨-, rfl⟩
      exact hfails _ s'
  · refine Ends.lift_bind hfails fun _ _ => ?_
    split
    · rename_i hunchanged
      rintro ⟨s', _⟩ ⟨hrely, rfl⟩
      refine ⟨hstored.of_rely hrely, .inr ⟨rfl, ?_⟩⟩
      have happlies := happlied.of_validate hmutation hbase
      rwa [prepared.fromContent_unchanged hunchanged, hbase] at happlies
    · refine Ends.bind (ends_replace hp hstored happlied) (fun publication s₂ changes hs₂ => ?_)
        fun e x hx => hx
      cases publication with
      | published content =>
        rintro ⟨s', _⟩ ⟨hrely, rfl⟩
        exact Reports.of_rely hs₂ hrely
      | conflict =>
        rintro ⟨s', _⟩ ⟨-, rfl⟩
        exact hs₂

/-- Every round of the loop starts without a contribution, from a version that was published. -/
theorem ends_rebase (hp : spec.Publishes publisher) (hprepare : spec.Prepares prepare)
    (rounds : Nat) (conflicts : UInt32) (fingerprint : Option Digest)
    (hstored : spec.Stored s current) :
    spec.Ends mutation (spec.Rebased mutation)
      (publisher.rebase mutation prepare rounds conflicts fingerprint current) s [] := by
  induction rounds generalizing conflicts fingerprint current s with
  | zero =>
    refine Ends.bind (ends_rebaseRound hp hprepare conflicts fingerprint hstored)
      (fun outcome s₁ changes hs₁ => ?_) fun e x hx => hx
    cases outcome with
    | inl published =>
      rintro ⟨s', _⟩ ⟨hrely, rfl⟩
      exact Reports.of_rely hs₁ hrely
    | inr repeated =>
      rintro ⟨s', _⟩ ⟨-, rfl⟩
      exact fun _ => hs₁
  | succ rounds ih =>
    refine Ends.bind (ends_rebaseRound hp hprepare conflicts fingerprint hstored)
      (fun outcome s₁ changes hs₁ => ?_) fun e x hx => hx
    cases outcome with
    | inl published =>
      rintro ⟨s', _⟩ ⟨hrely, rfl⟩
      exact Reports.of_rely hs₁ hrely
    | inr repeated =>
      obtain rfl : changes = [] := hs₁
      refine Ends.bind (Ends.quietly (.inl rfl) (ensures_loadRequired hp s₁))
        (fun current' s₂ _ hs₂ => ?_) fun e x hx => fun _ => hx.2.2
      obtain ⟨-, hstored', rfl⟩ := hs₂
      exact ih _ _ (hstored' current' rfl)

/-- Every call that may start settles. -/
theorem ends_call {call : PublisherCall E} (h : spec.Starts s call) :
    spec.Ends call.mutation (spec.Settles call.mutation) call.program s [] := by
  obtain ⟨hkey, hcrypto, hoperation⟩ := h
  have hp : spec.Publishes call.publisher := ⟨hkey, hcrypto⟩
  unfold PublisherCall.program
  cases hcall : call.operation with
  | create prepared =>
    rw [hcall] at hoperation
    exact ends_create hp hoperation s
  | replace expected prepared =>
    rw [hcall] at hoperation
    exact ends_replace hp hoperation.1 hoperation.2
  | mutateRebased prepare =>
    rw [hcall] at hoperation
    refine Ends.bind (show spec.Ends call.mutation (spec.Rebased call.mutation) _ s [] from ?_)
      (fun published s₁ changes hs₁ => ?_)
      fun e x hx => hx
    · refine Ends.bind (Ends.quietly (.inl rfl) (ensures_loadRequired hp s))
        (fun current s₁ _ hs₁ => ?_) fun e x hx => fun _ => hx.2.2
      obtain ⟨-, hstored, rfl⟩ := hs₁
      exact ends_rebase hp hoperation _ 0 none (hstored current rfl)
    · rintro ⟨s', _⟩ ⟨hrely, rfl⟩
      exact Reports.of_rely hs₁ hrely

/-! ## Runs -/

variable {s₀ : Target} {history : History Target}
  {pool : Pool Target (PublisherCall E) (TargetProg E Publication)}

/-- The parallel rule at the guarantees of the calls. -/
theorem keeping (h : spec.Run s₀ history pool) :
    Keeping Target.Answers spec.Quiet spec.Rely (fun call => spec.Guarantee call.mutation) spec.note []
      (fun call => spec.Settles call.mutation) history pool :=
  PoolRun.ensures spec.rely_refl spec.rely_trans (fun _ _ => Quiet.rely) (fun _ _ _ hg => hg.2.1)
    (fun _ changes => note_of_quiet (Quiet.refl _) changes) (fun _ _ => ends_call) h

/-- What is on record was there at the start or was stored by a move of the run. -/
theorem recorded (h : spec.Run s₀ history pool) {object : TargetObject}
    (hobject : object ∈ pool.state.written spec.key) : object ∈ s₀.written spec.key ∨
      ∃ who s s', (who, s, s') ∈ history ∧ s'.objects spec.key = some object ∧
        s.objects spec.key ≠ some object := by
  induction h with
  | refl => exact .inl hobject
  | @step history pool pool' who hrun hstep ih =>
    have hold : object ∈ pool.state.written spec.key → object ∈ s₀.written spec.key ∨
        ∃ who' s s', (who', s, s') ∈ history ++ [(who, pool.state, pool'.state)] ∧
          s'.objects spec.key = some object ∧ s.objects spec.key ≠ some object := by
      intro hmem
      refine (ih hmem).imp_right ?_
      rintro ⟨who', s, s', hmove, hnew⟩
      exact ⟨who', s, s', List.mem_append_left _ hmove, hnew⟩
    cases hstep with
    | env hquiet => exact hold (hquiet.2 ▸ hobject)
    | start => exact hold hobject
    | move _ hanswer =>
      rcases records hanswer with hquiet | ⟨stored, hstored, hnew, hwritten⟩
      · exact hold (hquiet.2 ▸ hobject)
      · rcases (hwritten ▸ hobject : object ∈ insert stored _) with rfl | hmem
        · exact .inr ⟨_, _, _, List.mem_append_right _ (List.mem_singleton_self _), hstored, hnew⟩
        · exact hold hmem

theorem contribution_ne_nil {i : Nat} (hmove : (some i, s, s') ∈ history)
    (hchanged : s'.objects spec.key ≠ s.objects spec.key) : spec.contribution i history ≠ [] := by
  induction history using List.reverseRecOn with
  | nil => cases hmove
  | append_singleton history move ih =>
    obtain ⟨who, t, t'⟩ := move
    rw [contribution, ownLog_append]
    rcases List.mem_append.1 hmove with hearlier | hlast
    · have hkept := ih hearlier
      split
      · unfold note
        split
        · exact hkept
        · exact List.append_ne_nil_of_right_ne_nil _ (List.cons_ne_nil _ _)
      · exact hkept
    · obtain ⟨rfl, rfl, rfl⟩ := by simpa using hlast
      rw [if_pos rfl, note, if_neg hchanged]
      exact List.append_ne_nil_of_right_ne_nil _ (List.cons_ne_nil _ _)

/-- A change of the head is a step of the call that made it. -/
theorem advances_of_change (h : spec.Run s₀ history pool) {who : Option Nat}
    (hmove : (who, s, s') ∈ history) (hchanged : s'.objects spec.key ≠ s.objects spec.key) :
    ∃ i call p, who = some i ∧ pool.calls i = some (call, p) ∧
      spec.Advances call.mutation (s.objects spec.key) (s'.objects spec.key) := by
  rcases (keeping h).moves hmove with rfl | hmoved
  · exact absurd rfl hchanged
  · cases who with
    | none => exact absurd hmoved.1 hchanged
    | some i =>
      obtain ⟨call, p, log, log', hcall, -, -, hquiet | hadvances⟩ := hmoved
      · exact absurd hquiet.1 hchanged
      · exact ⟨i, call, p, rfl, hcall, hadvances⟩

/-- The mutation of a published version is that of the call that stored it. -/
theorem contributed_of_unshared (h : spec.Run s₀ history pool) {i : Nat} {call : PublisherCall E}
    (hstored : spec.Stored pool.state content) (hown : content.mutationId = call.mutation)
    (hfirst : ∀ object ∈ s₀.written spec.key, ∀ head, HeadOf spec.crypto object head →
      head.mutationId ≠ call.mutation)
    (hunshared : ∀ j call' p, pool.calls j = some (call', p) → call'.mutation = call.mutation →
      j = i) : spec.contribution i history ≠ [] := by
  obtain ⟨object, hobject, -, head, hhead, his⟩ := hstored
  have hmutation : head.mutationId = call.mutation := his.mutationId.trans hown
  rcases recorded h hobject with hinitial | ⟨who, s, s', hmove, hnew, hold⟩
  · exact absurd hmutation (hfirst object hinitial head hhead)
  · have hchanged : s'.objects spec.key ≠ s.objects spec.key := fun hsame => hold (hsame ▸ hnew)
    obtain ⟨j, call', p, rfl, hj, hadvances⟩ := advances_of_change h hmove hchanged
    obtain ⟨_, object', head', -, hobject', hhead', -, hmutation', -⟩ := hadvances
    obtain rfl : object = object' := Option.some.inj (hnew.symm.trans hobject')
    obtain rfl := hhead.unique hhead'
    obtain rfl := hunshared j call' p hj (hmutation'.symm.trans hmutation)
    exact contribution_ne_nil hmove hchanged

/-- **Publication under concurrency.** In every run the head changes only by steps of calls; each call
contributes at most one step, and its result says what it contributed; a call whose mutation no other
call and no earlier head carries, and which reports that mutation as published, contributed it. -/
theorem publication_steps (spec : HeadSpec) {s₀ : Target} {history : History Target}
    {pool : Pool Target (PublisherCall E) (TargetProg E Publication)} (h : spec.Run s₀ history pool) :
    (∀ who s s', (who, s, s') ∈ history → s'.objects spec.key = s.objects spec.key ∨
      ∃ i call p, who = some i ∧ pool.calls i = some (call, p) ∧
        spec.Advances call.mutation (s.objects spec.key) (s'.objects spec.key)) ∧
    (∀ i call p, pool.calls i = some (call, p) →
      spec.Contributed call.mutation (spec.contribution i history) ∧
      ∀ r, p.result? = some r →
        spec.Settles call.mutation r (pool.state, spec.contribution i history)) ∧
    (∀ i call content, pool.calls i = some (call, .done (.published content)) →
      content.mutationId = call.mutation →
      (∀ object ∈ s₀.written spec.key, ∀ head, HeadOf spec.crypto object head →
        head.mutationId ≠ call.mutation) →
      (∀ j call' p, pool.calls j = some (call', p) → call'.mutation = call.mutation → j = i) →
      (spec.contribution i history).length = 1) := by
  have hcontributed : ∀ i call p, pool.calls i = some (call, p) →
      spec.Contributed call.mutation (spec.contribution i history) := by
    intro i call p hcall
    rcases (keeping h).logs hcall with hblank | ⟨x, s, hguarantee⟩
    · exact .inl hblank
    · exact hguarantee.1
  have hsettles : ∀ i call p, pool.calls i = some (call, p) → ∀ r, p.result? = some r →
      spec.Settles call.mutation r (pool.state, spec.contribution i history) := by
    intro i call p hcall r hr
    have hends := (keeping h).calls hcall
    rw [Prog.result?_eq_some.1 hr] at hends
    cases r with
    | ok publication => exact hends _ (Apart.refl spec.rely_refl _)
    | error e => exact hends _ (Apart.refl spec.rely_refl _)
  refine ⟨fun who s s' hmove => ?_, fun i call p hcall => ⟨hcontributed i call p hcall,
    hsettles i call p hcall⟩, fun i call content hcall hown hfirst hunshared => ?_⟩
  · by_cases hsame : s'.objects spec.key = s.objects spec.key
    · exact .inl hsame
    · exact .inr (advances_of_change h hmove hsame)
  · have hstored : spec.Stored pool.state content := (hsettles i call _ hcall _ rfl).1
    have hne := contributed_of_unshared h hstored hown hfirst hunshared
    rcases hcontributed i call _ hcall with hnil | ⟨before, after, hone, -⟩
    · exact absurd hnil hne
    · rw [hone]
      rfl

end HeadSpec

/-! ## A mutation that was published before -/

def samplePublisher : Publisher := ⟨sampleRepository, ⟨1⟩, none⟩

/-- The second version of the file, published by mutation 7. -/
def sampleHead : FileHead where
  fileId := ⟨1⟩
  generation := 2
  manifestKey := sampleRepository.keys.manifest ⟨1⟩ ⟨⟨7⟩, ⟨1, 0⟩, 5⟩ 0
  manifestDigest := 3
  mutationId := ⟨7⟩

theorem generation_sampleHead : sampleHead.generation ≠ 0 := by decide

def samplePublished : PublishedContent where
  content := ⟨⟨1⟩, 2, 4, sampleHead.manifestKey, 3, .raw, generation_sampleHead⟩
  mutationId := ⟨7⟩
  fingerprint := 5
  attempt := 0
  version := ⟨[1]⟩

/-- The same operation of mutation 7, prepared again from the version that it made: nothing changes. -/
def sampleAgain : PreparedContent where
  content := samplePublished.content
  contentChanged := false
  identity := ⟨⟨7⟩, ⟨2, 3⟩, 5⟩
  attempt := 0
  contextBinding := sampleContext.binding
  base := samplePublished.content
  unchanged := fun _ => rfl
  base_identity := fun _ h => by cases h; rfl

/-- The head of the sample file; a mutation leaves a version as it is or makes the next one of it. -/
def sampleSpec : HeadSpec where
  crypto := sampleCrypto
  key := samplePublisher.headKey
  applies := fun _ before after => after = before ∨ after.generation = before.generation + 1

def sampleReplace : PublisherCall Unit := ⟨samplePublisher, ⟨7⟩, .replace samplePublished sampleAgain⟩

theorem encodeHead_sampleHead : ∃ bytes,
    encodeHead sampleCrypto sampleHead .standard = .ok bytes := by
  have h : (encodeHead sampleCrypto sampleHead .standard).toOption.isSome = true := by decide +kernel
  cases hencoded : encodeHead sampleCrypto sampleHead .standard with
  | ok bytes => exact ⟨bytes, rfl⟩
  | error e =>
    rw [hencoded] at h
    cases h

theorem program_sampleReplace : sampleReplace.program = .done (.published samplePublished) := by
  have h : (match sampleReplace.program with
      | .done publication => decide (publication = .published samplePublished)
      | _ => false) = true := by decide +kernel
  split at h
  · rename_i publication hdone
    rw [hdone, of_decide_eq_true h]
  · cases h

def sampleTarget (bytes : Bytes) : Target :=
  Target.empty.write sampleSpec.key bytes ⟨[1]⟩ (Target.empty_fresh _ _)

theorem starts_sampleReplace {bytes : Bytes}
    (h : encodeHead sampleCrypto sampleHead .standard = .ok bytes) :
    sampleSpec.Starts (sampleTarget bytes) sampleReplace := by
  refine ⟨rfl, rfl, ⟨⟨bytes, ⟨[1]⟩⟩, ?_, rfl, sampleHead, ⟨_, decodeHead_eq_ok.2 h⟩, rfl, rfl, rfl⟩,
    .inl rfl⟩
  rw [sampleTarget, Target.written_write_self]
  exact Set.mem_insert _ _

/-- A call that reports its mutation as published although it contributed nothing: it returns at
once. -/
theorem replace_already_published : ∃ (s₀ : Target) (history : History Target)
    (pool : Pool Target (PublisherCall Unit) (TargetProg Unit Publication)),
    sampleSpec.Run s₀ history pool ∧
    pool.calls 0 = some (sampleReplace, .done (.published samplePublished)) ∧
    sampleSpec.contribution 0 history = [] := by
  obtain ⟨bytes, hbytes⟩ := encodeHead_sampleHead
  have hrun : sampleSpec.Run (sampleTarget bytes) _ _ :=
    PoolRun.refl.step (.start (i := 0) rfl (starts_sampleReplace hbytes))
  refine ⟨sampleTarget bytes, _, _, hrun, ?_, HeadSpec.note_of_quiet (HeadSpec.Quiet.refl _) []⟩
  rw [← program_sampleReplace]
  dsimp only
  rw [Function.update_self]

/-! ## Two mutations of one version -/

/-- The version with one byte that a mutation makes of a base. -/
def prepareByte (mutation : MutationId) (base : BaseContentIdentity) (byte : UInt8) :
    ObjectProg MemoryTargetError PreparedContent := do
  let identity : PreparationIdentity := ⟨mutation, base, 5⟩
  let blob ← sampleRepository.storeRawPayload sampleContext ⟨1⟩ identity 0 [byte]
  sampleRepository.prepareManifest sampleContext ⟨⟨1⟩, base.generation + 1, 1, .raw (some blob)⟩ identity 0

/-- Mutation 6 makes the file, mutations 7 and 8 each make the next version of it. -/
def preparations : ObjectProg MemoryTargetError (PreparedContent × PreparedContent × PreparedContent) := do
  let created ← prepareByte ⟨6⟩ .newFile 1
  let left ← prepareByte ⟨7⟩ (.fromContent created.content) 2
  let right ← prepareByte ⟨8⟩ (.fromContent created.content) 3
  return (created, left, right)

instance (prepared : PreparedContent) : Decidable (sampleSpec.Applied prepared) :=
  inferInstanceAs (Decidable (_ ∨ _))

def sampleCall (mutation : MutationId) (operation : PublisherOperation MemoryTargetError) :
    PublisherCall MemoryTargetError := ⟨samplePublisher, mutation, operation⟩

/-- One after another on an in-memory target, the file is created, its version is replaced and the
second replacement of the same version is a conflict. -/
def races : Bool :=
  match sampleRepository.evalOn preparations .new with
  | (.ok (created, left, right), t₀) =>
    match (sampleCall ⟨6⟩ (.create created)).program.eval MemoryTarget.answer t₀ with
    | (.ok (.published base), t₁) =>
      match (sampleCall ⟨7⟩ (.replace base left)).program.eval MemoryTarget.answer t₁ with
      | (.ok (.published next), t₂) =>
        match (sampleCall ⟨8⟩ (.replace base right)).program.eval MemoryTarget.answer t₂ with
        | (.ok .conflict, t₃) => decide ((t₀.Counting ∧ t₁.Counting ∧ t₂.Counting ∧ t₃.Counting) ∧
            (∀ x ∈ t₀.objects, x.1 ≠ sampleSpec.key) ∧
            sampleSpec.Applied created ∧ sampleSpec.Applied left ∧ sampleSpec.Applied right ∧
            base.mutationId = ⟨6⟩ ∧ next.mutationId = ⟨7⟩)
        | _ => false
      | _ => false
    | _ => false
  | _ => false

theorem races_eq_true : races = true := by decide +kernel

section Racing

variable {s₀ : Target} {history : History Target}
  {pool : Pool Target (PublisherCall MemoryTargetError) (TargetProg MemoryTargetError Publication)}

/-- A call of the pool runs on to its end as on an in-memory target. -/
theorem HeadSpec.Run.eval {spec : HeadSpec} (h : spec.Run s₀ history pool) {i : Nat}
    {call : PublisherCall MemoryTargetError} {p : TargetProg MemoryTargetError Publication}
    (hcall : pool.calls i = some (call, p)) {t : MemoryTarget} (hmodels : t.Models pool.state)
    {r : Except (StorageError MemoryTargetError) Publication} {t' : MemoryTarget}
    (heval : p.eval MemoryTarget.answer t = (r, t')) (hcounting : t'.Counting) :
    ∃ history' pool', spec.Run s₀ history' pool' ∧
      pool'.calls = Function.update pool.calls i (some (call, .lift r)) ∧ t'.Models pool'.state := by
  have hrun := PoolRun.of_eval (R := MemoryTarget.Models) MemoryTarget.counting_of_answer
    (fun _ _ q hcounting hmodels => MemoryTarget.answers hmodels hcounting q) h hcall
    (by rwa [heval]) hmodels
  rwa [heval] at hrun

end Racing

theorem publication_steps_race : ∃ (s₀ : Target) (history : History Target)
    (pool : Pool Target (PublisherCall MemoryTargetError) (TargetProg MemoryTargetError Publication))
    (created left right : PreparedContent) (base next : PublishedContent),
    sampleSpec.Run s₀ history pool ∧
    pool.calls 0 = some (sampleCall ⟨6⟩ (.create created), .done (.published base)) ∧
    pool.calls 1 = some (sampleCall ⟨7⟩ (.replace base left), .done (.published next)) ∧
    pool.calls 2 = some (sampleCall ⟨8⟩ (.replace base right), .done .conflict) ∧
    (sampleSpec.contribution 0 history).length = 1 ∧ (sampleSpec.contribution 1 history).length = 1 ∧
    sampleSpec.contribution 2 history = [] := by
  have h := races_eq_true
  unfold races at h
  split at h
  case h_2 => cases h
  rename_i created left right t₀ hprepared
  split at h
  case h_2 => cases h
  rename_i base t₁ hcreated
  split at h
  case h_2 => cases h
  rename_i next t₂ hleft
  split at h
  case h_2 => cases h
  rename_i t₃ hright
  obtain ⟨⟨hcounting₀, hcounting₁, hcounting₂, hcounting₃⟩, hother, happlies₆, happlies₇, happlies₈,
    hbase, hnext⟩ := of_decide_eq_true h
  obtain ⟨y, -, hmodels₀⟩ := Repository.runs_evalOn (x := (Target.empty, [])) preparations
    MemoryTarget.models_new (by rwa [hprepared])
  rw [hprepared] at hmodels₀
  have hfirst : ∀ object ∈ y.1.written sampleSpec.key, False := fun object hobject =>
    hother _ (hmodels₀.written _ _ hobject) rfl
  -- the file is created
  have hstarts₆ : sampleSpec.Starts y.1 (sampleCall ⟨6⟩ (.create created)) := ⟨rfl, rfl, happlies₆⟩
  obtain ⟨history₁, pool₁, hrun₁, hcalls₁, hmodels₁⟩ := HeadSpec.Run.eval
    (PoolRun.refl.step (.start (i := 0) rfl hstarts₆)) (Function.update_self ..) hmodels₀ hcreated hcounting₁
  have hstored : sampleSpec.Stored pool₁.state base :=
    (((HeadSpec.publication_steps sampleSpec hrun₁).2.1 0 _ _ (congrFun hcalls₁ 0)).2 _ rfl).1
  -- both replacements start before one of them goes on
  have hstarts₇ : sampleSpec.Starts pool₁.state (sampleCall ⟨7⟩ (.replace base left)) :=
    ⟨rfl, rfl, hstored, happlies₇⟩
  have hstarts₈ : sampleSpec.Starts pool₁.state (sampleCall ⟨8⟩ (.replace base right)) :=
    ⟨rfl, rfl, hstored, happlies₈⟩
  obtain ⟨history₂, pool₂, hrun₂, hcalls₂, hmodels₂⟩ := HeadSpec.Run.eval
    ((hrun₁.step (.start (i := 1) (congrFun hcalls₁ 1) hstarts₇)).step
      (.start (i := 2) (congrFun hcalls₁ 2) hstarts₈)) (i := 1) rfl hmodels₁ hleft hcounting₂
  obtain ⟨history₃, pool₃, hrun₃, hcalls₃, -⟩ := hrun₂.eval (congrFun hcalls₂ 2) hmodels₂ hright hcounting₃
  have hcall₆ := (congrFun hcalls₃ 0).trans ((congrFun hcalls₂ 0).trans (congrFun hcalls₁ 0))
  have hcall₇ := (congrFun hcalls₃ 1).trans (congrFun hcalls₂ 1)
  have hcall₈ := congrFun hcalls₃ 2
  have hmutation : ∀ j call p, pool₃.calls j = some (call, p) →
      j = 0 ∧ call.mutation = ⟨6⟩ ∨ j = 1 ∧ call.mutation = ⟨7⟩ ∨ j = 2 ∧ call.mutation = ⟨8⟩ := by
    intro j call p hj
    match j with
    | 0 =>
      cases hcall₆.symm.trans hj
      exact .inl ⟨rfl, rfl⟩
    | 1 =>
      cases hcall₇.symm.trans hj
      exact .inr (.inl ⟨rfl, rfl⟩)
    | 2 =>
      cases hcall₈.symm.trans hj
      exact .inr (.inr ⟨rfl, rfl⟩)
    | j + 3 =>
      rw [hcalls₃, hcalls₂, hcalls₁] at hj
      cases hj
  obtain ⟨-, hsettles, honce⟩ := HeadSpec.publication_steps sampleSpec hrun₃
  refine ⟨y.1, history₃, pool₃, created, left, right, base, next, hrun₃, hcall₆, hcall₇, hcall₈,
    honce 0 _ base hcall₆ hbase (fun object hobject => (hfirst object hobject).elim)
      fun j call p hj hsame => ?_,
    honce 1 _ next hcall₇ hnext (fun object hobject => (hfirst object hobject).elim)
      fun j call p hj hsame => ?_,
    (hsettles 2 _ _ hcall₈).2 _ rfl⟩
  · rcases hmutation j call p hj with ⟨rfl, hm⟩ | ⟨rfl, hm⟩ | ⟨rfl, hm⟩
    · rfl
    · cases hm.symm.trans hsame
    · cases hm.symm.trans hsame
  · rcases hmutation j call p hj with ⟨rfl, hm⟩ | ⟨rfl, hm⟩ | ⟨rfl, hm⟩
    · cases hm.symm.trans hsame
    · rfl
    · cases hm.symm.trans hsame

end W9pt.Storage

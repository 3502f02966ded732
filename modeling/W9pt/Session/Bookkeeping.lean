import W9pt.Session.Finish

/-!
# The indexes and counters of a session

The session keeps several indexes of the same outstanding work and counts everything it retains.
The counters are adjusted by separate saturating calls in some thirty handlers. `Indexed`, `Counted`,
`Bounded` and `Owning` say what they mean; each is preserved by every update a call is made of, so
they hold in every reachable state (`bookkeeping_of_reachable`).
-/

namespace W9pt.Connection

open Lib Protocol Session

/-- The indexes of outstanding operations agree, and identifiers are never reused. -/
structure Indexed (s : Session) : Prop where
  inverse : ∀ (id : OperationId) (tag : Tag), s.tagByOperation[id]? = some tag ↔
    ∃ p : PendingOperation, s.pendingByTag[tag]? = some p ∧ p.operationId = id
  apart : ∀ (tag : Tag) (p : PendingOperation), s.pendingByTag[tag]? = some p →
    p.operationId ∉ s.abandonedOperations
  pendingIssued : ∀ (tag : Tag) (p : PendingOperation), s.pendingByTag[tag]? = some p →
    p.operationId ≤ s.lastIssuedOperationId
  abandonedIssued : ∀ id, id ∈ s.abandonedOperations → id ≤ s.lastIssuedOperationId
  next : s.operationIds = checkedAdd s.lastIssuedOperationId 1
  disjoint : ∀ tag, tag ∈ s.pendingByTag → tag ∉ s.flushes

/-- Every counter is the size of what it counts. -/
structure Counted (s : Session) : Prop where
  tags : s.accounting.inFlightTags = s.pendingByTag.size + s.flushes.size
  fids : s.accounting.fids = s.fids.size
  effects : s.accounting.queuedEffects = s.effects.length
  effectBytes : s.accounting.queuedEffectBytes = (s.effects.map Effect.retainedBytes).sum
  writes : s.accounting.pendingWriteBytes = FinMap.total (·.writeBytes) s.pendingByTag

/-- Every counter is within its limit. -/
structure Bounded (s : Session) : Prop where
  tags : s.accounting.inFlightTags ≤ s.limits.maxInFlightTags
  fids : s.accounting.fids ≤ s.limits.maxFids
  effects : s.accounting.queuedEffects ≤ s.limits.maxQueuedEffects
  effectBytes : s.accounting.queuedEffectBytes ≤ s.limits.maxQueuedEffectBytes
  writes : s.accounting.pendingWriteBytes ≤ s.limits.maxPendingWriteBytes

/-- Reserved fids and outstanding operations that own a fid correspond one to one. -/
structure Owning (s : Session) : Prop where
  owned : ∀ (tag : Tag) (p : PendingOperation) (fid : Fid), s.pendingByTag[tag]? = some p →
    p.continuation.owned = some fid → s.fids[fid]? = some FidState.pending
  owner : ∀ fid : Fid, s.fids[fid]? = some FidState.pending →
    ∃ (tag : Tag) (p : PendingOperation), s.pendingByTag[tag]? = some p ∧
      p.continuation.owned = some fid
  unique : ∀ (tag₁ tag₂ : Tag) (p₁ p₂ : PendingOperation) (fid : Fid),
    s.pendingByTag[tag₁]? = some p₁ → s.pendingByTag[tag₂]? = some p₂ →
    p₁.continuation.owned = some fid → p₂.continuation.owned = some fid → tag₁ = tag₂

/-- **What the bookkeeping of a session means.** -/
structure Bookkeeping (s : Session) : Prop where
  indexed : Indexed s
  counted : Counted s
  bounded : Bounded s
  owning : s.terminalReason = none → Owning s
  closing : s.cleanupStarted = true → s.terminalReason.isSome = true
  drained : s.cleanupStarted = true → s.fids = ∅

variable {order : HashOrder} {s s' : Session} {tag : Tag}

/-! ## Identifiers -/

variable {id : OperationId}

/-- An identifier the allocator hands out is newer than every issued one. -/
theorem Indexed.fresh (h : Indexed s) (hid : s.operationIds = some id) :
    s.lastIssuedOperationId < id := by
  have hnext := h.next
  rw [hid] at hnext
  have hvalue := checkedAdd_eq_some.1 hnext.symm
  rw [UInt64.lt_iff_toNat_lt, hvalue]
  exact Nat.lt_succ_self _

theorem Indexed.issue (h : Indexed s) (hid : s.operationIds = some id) :
    Indexed (s.issue id) := by
  have hfresh := h.fresh hid
  have hle : s.lastIssuedOperationId ≤ id := UInt64.le_of_lt hfresh
  exact { h with
    pendingIssued := fun tag p hp => UInt64.le_trans (h.pendingIssued tag p hp) hle
    abandonedIssued := fun a ha => UInt64.le_trans (h.abandonedIssued a ha) hle
    next := rfl }

theorem Indexed.track (h : Indexed s) {p : PendingOperation} (inactive : s.Inactive tag)
    (hissued : p.operationId = s.lastIssuedOperationId)
    (hnew : ∀ (t : Tag) (q : PendingOperation), s.pendingByTag[t]? = some q →
      q.operationId ≠ p.operationId)
    (habandoned : p.operationId ∉ s.abandonedOperations) : Indexed (s.track tag p) := by
  have hfree : s.pendingByTag[tag]? = none := Std.ExtTreeMap.getElem?_eq_none inactive.1
  have hpending : ∀ t, (s.track tag p).pendingByTag[t]? =
      if tag = t then some p else s.pendingByTag[t]? := by
    intro t
    simp only [Session.track, Std.ExtTreeMap.getElem?_insert, Std.compare_eq_iff_eq]
  refine { h with inverse := ?_, apart := ?_, pendingIssued := ?_, disjoint := ?_ }
  · intro id t
    rw [hpending]
    simp only [Session.track, Std.ExtTreeMap.getElem?_insert, Std.compare_eq_iff_eq]
    by_cases hid : p.operationId = id
    · rw [if_pos hid]
      constructor
      · intro ht
        cases ht
        exact ⟨p, if_pos rfl, hid⟩
      · rintro ⟨q, hq, hqid⟩
        by_cases ht : tag = t
        · rw [ht]
        · rw [if_neg ht] at hq
          exact absurd (hqid.trans hid.symm) (hnew t q hq)
    · rw [if_neg hid, h.inverse]
      constructor
      · rintro ⟨q, hq, hqid⟩
        have ht : tag ≠ t := by
          rintro rfl
          rw [hfree] at hq
          cases hq
        exact ⟨q, by rw [if_neg ht]; exact hq, hqid⟩
      · rintro ⟨q, hq, hqid⟩
        by_cases ht : tag = t
        · rw [if_pos ht] at hq
          cases hq
          exact absurd hqid hid
        · rw [if_neg ht] at hq
          exact ⟨q, hq, hqid⟩
  · intro t q hq
    rw [hpending] at hq
    split at hq
    · cases hq
      exact habandoned
    · exact h.apart t q hq
  · intro t q hq
    rw [hpending] at hq
    split at hq
    · cases hq
      rw [hissued]
      exact UInt64.le_refl _
    · exact h.pendingIssued t q hq
  · intro t ht
    simp only [Session.track, Std.ExtTreeMap.mem_insert, Std.compare_eq_iff_eq] at ht
    rcases ht with rfl | ht
    · exact inactive.2
    · exact h.disjoint t ht

theorem Indexed.tag_unique (h : Indexed s) {t₁ t₂ : Tag} {p₁ p₂ : PendingOperation}
    (h₁ : s.pendingByTag[t₁]? = some p₁) (h₂ : s.pendingByTag[t₂]? = some p₂)
    (hid : p₁.operationId = p₂.operationId) : t₁ = t₂ := by
  have e₁ := (h.inverse p₁.operationId t₁).2 ⟨p₁, h₁, rfl⟩
  have e₂ := (h.inverse p₁.operationId t₂).2 ⟨p₂, h₂, hid.symm⟩
  rw [e₁] at e₂
  exact Option.some.inj e₂

theorem Indexed.untrack (h : Indexed s) {p : PendingOperation}
    (htag : s.tagByOperation[id]? = some tag) (hp : s.pendingByTag[tag]? = some p) :
    Indexed (s.untrack id tag p) := by
  have hid : p.operationId = id := by
    obtain ⟨q, hq, hqid⟩ := (h.inverse id tag).1 htag
    rw [hp] at hq
    cases hq
    exact hqid
  have hpending : ∀ t, (s.untrack id tag p).pendingByTag[t]? =
      if tag = t then none else s.pendingByTag[t]? := by
    intro t
    simp only [Session.untrack, Std.ExtTreeMap.getElem?_erase, Std.compare_eq_iff_eq]
  have hback : ∀ t q, (s.untrack id tag p).pendingByTag[t]? = some q →
      tag ≠ t ∧ s.pendingByTag[t]? = some q := by
    intro t q hq
    rw [hpending] at hq
    split at hq
    · cases hq
    · rename_i hne
      exact ⟨hne, hq⟩
  refine { h with inverse := ?_, apart := ?_, pendingIssued := ?_, disjoint := ?_ }
  · intro a t
    simp only [Session.untrack, Std.ExtTreeMap.getElem?_erase, Std.compare_eq_iff_eq]
    constructor
    · intro ht
      split at ht
      · cases ht
      · rename_i hne
        obtain ⟨q, hq, hqid⟩ := (h.inverse a t).1 ht
        have htne : tag ≠ t := by
          rintro rfl
          rw [hp] at hq
          cases hq
          exact hne (hid.symm.trans hqid)
        exact ⟨q, by rw [if_neg htne]; exact hq, hqid⟩
    · rintro ⟨q, hq, hqid⟩
      split at hq
      · cases hq
      · rename_i hne
        rw [if_neg ?_]
        · exact (h.inverse a t).2 ⟨q, hq, hqid⟩
        · rintro rfl
          exact hne (h.tag_unique hp hq (hid.trans hqid.symm))
  · intro t q hq
    exact h.apart t q (hback t q hq).2
  · intro t q hq
    exact h.pendingIssued t q (hback t q hq).2
  · intro t ht
    apply h.disjoint
    simp only [Session.untrack, Std.ExtTreeMap.mem_erase] at ht
    exact ht.2

/-! ## Queueing and issuing -/

theorem Bookkeeping.pushEffect (h : Bookkeeping s) {effect : Effect} (room : s.HasRoom effect) :
    Bookkeeping (s.pushEffect effect) where
  indexed := { h.indexed with }
  counted := { h.counted with
    effects := by
      rw [Session.pushEffect, List.length_append, List.length_singleton, ← h.counted.effects]
    effectBytes := by
      rw [Session.pushEffect, List.map_append, List.sum_append, List.map_singleton,
        List.sum_singleton, ← h.counted.effectBytes] }
  bounded := { h.bounded with effects := room.slot, effectBytes := room.bytes }
  owning active := { h.owning active with }
  closing := h.closing
  drained := h.drained

theorem Bookkeeping.issue (h : Bookkeeping s) (hid : s.operationIds = some id) :
    Bookkeeping (s.issue id) where
  indexed := h.indexed.issue hid
  counted := { h.counted with }
  bounded := { h.bounded with }
  owning active := { h.owning active with }
  closing := h.closing
  drained := h.drained

theorem Bookkeeping.withDecoder (h : Bookkeeping s) (decoder : FrameDecoder) :
    Bookkeeping { s with decoder } where
  indexed := { h.indexed with }
  counted := { h.counted with }
  bounded := { h.bounded with }
  owning active := { h.owning active with }
  closing := h.closing
  drained := h.drained

/-! ## Serving a request -/

section Reserving

variable {fid : Option Fid} {s₁ : Session}

section

variable (reserved : Reserved s fid s₁)

include reserved

theorem Reserved.indexed (h : Indexed s) : Indexed s₁ := by
  cases reserved with
  | nothing => exact h
  | claimed => exact { h with }
  | taken => exact { h with }

theorem Reserved.counted (h : Counted s) : Counted s₁ := by
  cases reserved with
  | nothing => exact h
  | claimed absent _ =>
    refine { h with fids := ?_ }
    rw [Session.claim, FinMap.size_insert_of_notMem absent, h.fids]
  | taken present _ =>
    refine { h with fids := ?_ }
    rw [Session.setFid, FinMap.size_insert_of_getElem? present]
    exact h.fids

theorem Reserved.bounded (h : Bounded s) : Bounded s₁ := by
  cases reserved with
  | nothing => exact h
  | claimed _ room => exact { h with fids := room }
  | taken => exact { h with }

/-- The fids that are reserved afterwards. -/
theorem Reserved.pending_iff (f : Fid) :
    s₁.fids[f]? = some .pending ↔ s.fids[f]? = some .pending ∨ fid = some f := by
  cases reserved with
  | nothing => simp
  | claimed absent _ =>
    simp only [Session.claim, Std.ExtTreeMap.getElem?_insert, Std.compare_eq_iff_eq,
      Option.some.injEq]
    split <;> simp_all
  | taken present _ =>
    simp only [Session.setFid, Std.ExtTreeMap.getElem?_insert, Std.compare_eq_iff_eq,
      Option.some.injEq]
    split <;> simp_all

/-- The fid that gets reserved was not. -/
theorem Reserved.was_idle {f : Fid} (hfid : fid = some f) :
    s.fids[f]? ≠ some .pending := by
  cases reserved with
  | nothing => cases hfid
  | claimed absent _ =>
    cases hfid
    rw [Std.ExtTreeMap.getElem?_eq_none absent]
    simp
  | taken present idle =>
    cases hfid
    rw [present]
    simpa using idle

end

/-- **Emitting an operation keeps the books.** -/
theorem Bookkeeping.emit (h : Bookkeeping s) (inactive : s.Inactive tag)
    (active : s.terminalReason = none) {work : Work} {continuation : Continuation}
    {writeBytes : Nat} {id : OperationId} (reserved : Reserved s continuation.owned s₁)
    (next : s₁.operationIds = some id) (room : s₁.HasRoom (work.effect id))
    (tags : s₁.accounting.inFlightTags + 1 ≤ s₁.limits.maxInFlightTags)
    (writes : s₁.accounting.pendingWriteBytes + writeBytes ≤ s₁.limits.maxPendingWriteBytes) :
    Bookkeeping (s₁.emitted tag id work continuation writeBytes) := by
  have hindexed := reserved.indexed h.indexed
  have hissued : Indexed ((s₁.issue id).pushEffect (work.effect id)) :=
    { hindexed.issue next with }
  have hcounted := reserved.counted h.counted
  have hbounded := reserved.bounded h.bounded
  have hreserved := reserved.pending_iff
  obtain ⟨fids, count, rfl⟩ := reserved.frame
  have hlt : s.lastIssuedOperationId < id := hindexed.fresh next
  have hunstarted : s.cleanupStarted = true → False := by
    intro hs
    have hsome := h.closing hs
    rw [active] at hsome
    cases hsome
  have htrack : ∀ t : Tag, (s.pendingByTag.insert tag
      (work.pending id continuation writeBytes))[t]? =
        if tag = t then some (work.pending id continuation writeBytes) else s.pendingByTag[t]? := by
    intro t
    simp only [Std.ExtTreeMap.getElem?_insert, Std.compare_eq_iff_eq]
  constructor
  case indexed =>
    refine hissued.track (p := work.pending id continuation writeBytes) inactive rfl ?_ ?_
    · intro t q hq heq
      have hle := h.indexed.pendingIssued t q hq
      rw [heq] at hle
      exact absurd hlt (UInt64.not_lt.2 hle)
    · intro hmem
      exact absurd hlt (UInt64.not_lt.2 (h.indexed.abandonedIssued id hmem))
  case counted =>
    exact {
      tags := by
        show s.accounting.inFlightTags + 1 = (s.pendingByTag.insert tag _).size + s.flushes.size
        rw [FinMap.size_insert_of_notMem inactive.1, h.counted.tags]
        omega
      fids := hcounted.fids
      effects := by
        show s.accounting.queuedEffects + 1 = (s.effects ++ [_]).length
        rw [List.length_append, List.length_singleton, h.counted.effects]
      effectBytes := by
        show s.accounting.queuedEffectBytes + _ = ((s.effects ++ [work.effect id]).map _).sum
        rw [List.map_append, List.sum_append, List.map_singleton, List.sum_singleton,
          h.counted.effectBytes]
      writes := by
        show s.accounting.pendingWriteBytes + writeBytes =
          FinMap.total _ (s.pendingByTag.insert tag _)
        rw [FinMap.total_insert inactive.1, h.counted.writes]
        exact Nat.add_comm _ _ }
  case bounded =>
    exact {
      tags := tags
      fids := hbounded.fids
      effects := room.slot
      effectBytes := room.bytes
      writes := writes }
  case owning =>
    intro _
    have howning := h.owning active
    constructor
    case owned =>
      intro t q f hq hf
      refine (hreserved f).2 ?_
      replace hq := (htrack t).symm.trans hq
      split at hq
      · cases hq
        exact .inr hf
      · exact .inl (howning.owned t q f hq hf)
    case owner =>
      intro f hf
      rcases (hreserved f).1 hf with hold | hnew
      · obtain ⟨t, q, hq, hqf⟩ := howning.owner f hold
        have hne : tag ≠ t := by
          rintro rfl
          rw [Std.ExtTreeMap.getElem?_eq_none inactive.1] at hq
          cases hq
        exact ⟨t, q, (htrack t).trans (by rw [if_neg hne]; exact hq), hqf⟩
      · exact ⟨tag, _, (htrack tag).trans (if_pos rfl), hnew⟩
    case unique =>
      intro t₁ t₂ p₁ p₂ f h₁ h₂ ho₁ ho₂
      replace h₁ := (htrack t₁).symm.trans h₁
      replace h₂ := (htrack t₂).symm.trans h₂
      split at h₁ <;> split at h₂
      · rename_i ht₁ ht₂
        rw [← ht₁, ← ht₂]
      · cases h₁
        exact absurd (howning.owned t₂ p₂ f h₂ ho₂) (reserved.was_idle ho₁)
      · cases h₂
        exact absurd (howning.owned t₁ p₁ f h₁ ho₁) (reserved.was_idle ho₂)
      · exact howning.unique t₁ t₂ p₁ p₂ f h₁ h₂ ho₁ ho₂
  case closing => exact fun hs => (hunstarted hs).elim
  case drained => exact fun hs => (hunstarted hs).elim

end Reserving

def after {ε α : Type} : EStateM.Result ε Session α → Session
  | .ok _ s => s
  | .error _ s => s

theorem Bookkeeping.clone (h : Bookkeeping s) (active : s.terminalReason = none) {fid : Fid}
    {object : ObjectFid} (absent : fid ∉ s.fids)
    (room : s.accounting.fids + 1 ≤ s.limits.maxFids) :
    Bookkeeping ((s.claim fid).setFid fid (.object object)) := by
  have hfids : ((s.claim fid).setFid fid (.object object)).fids =
      s.fids.insert fid (.object object) := FinMap.insert_insert
  have hpending : ∀ f : Fid, ((s.claim fid).setFid fid (.object object)).fids[f]? = some .pending ↔
      s.fids[f]? = some .pending := by
    intro f
    rw [hfids, Std.ExtTreeMap.getElem?_insert]
    by_cases hf : fid = f
    · subst hf
      rw [Std.ExtTreeMap.getElem?_eq_none absent]
      simp
    · simp [hf]
  constructor
  case indexed => exact { h.indexed with }
  case counted =>
    refine { h.counted with fids := ?_ }
    rw [hfids, FinMap.size_insert_of_notMem absent]
    simp only [Session.setFid, Session.claim, h.counted.fids]
  case bounded => exact { h.bounded with fids := room }
  case owning =>
    intro _
    have howning := h.owning active
    exact { howning with
      owned := fun t p f hp hf => (hpending f).2 (howning.owned t p f hp hf)
      owner := fun f hf => howning.owner f ((hpending f).1 hf) }
  case closing => exact h.closing
  case drained =>
    intro hs
    have hsome := h.closing hs
    rw [active] at hsome
    cases hsome

/-! ## Flushes -/

/-- Outstanding operations up to their flags and waiters. -/
def Alike (m m' : Std.ExtTreeMap Tag PendingOperation) : Prop :=
  ∀ t : Tag, m'[t]?.map (fun p : PendingOperation => (p.operationId, p.continuation)) =
    m[t]?.map fun p : PendingOperation => (p.operationId, p.continuation)

namespace Alike

variable {m m' : Std.ExtTreeMap Tag PendingOperation} {p q : PendingOperation}

theorem symm (h : Alike m m') : Alike m' m := fun t => (h t).symm

theorem get (h : Alike m m') {t : Tag} (hq : m'[t]? = some q) :
    ∃ p, m[t]? = some p ∧ p.operationId = q.operationId ∧ p.continuation = q.continuation := by
  have ht := h t
  rw [hq, Option.map_some, eq_comm, Option.map_eq_some_iff] at ht
  obtain ⟨p, hp, heq⟩ := ht
  exact ⟨p, hp, congrArg Prod.fst heq, congrArg Prod.snd heq⟩

theorem mem (h : Alike m m') {t : Tag} (ht : t ∈ m') : t ∈ m := by
  rw [Std.ExtTreeMap.mem_iff_isSome_getElem?] at ht ⊢
  rwa [← Option.isSome_map, ← h t, Option.isSome_map]

theorem insert (hp : m[tag]? = some p) (hid : q.operationId = p.operationId)
    (hcontinuation : q.continuation = p.continuation) : Alike m (m.insert tag q) := by
  intro t
  rw [Std.ExtTreeMap.getElem?_insert]
  split
  · rename_i ht
    rw [← Std.compare_eq_iff_eq.1 ht, hp, Option.map_some, Option.map_some, hid, hcontinuation]
  · rfl

theorem map_silence : Alike m (m.map fun _ p => p.silence) := by
  intro t
  rw [Std.ExtTreeMap.getElem?_map, Option.map_map]
  rfl

end Alike

variable {pendingByTag : Std.ExtTreeMap Tag PendingOperation}

theorem Indexed.of_alike (h : Indexed s) (alike : Alike s.pendingByTag pendingByTag) :
    Indexed { s with pendingByTag } := by
  refine { h with inverse := ?_, apart := ?_, pendingIssued := ?_, disjoint := ?_ }
  · intro id t
    rw [h.inverse]
    constructor
    · rintro ⟨p, hp, rfl⟩
      obtain ⟨q, hq, hid, -⟩ := alike.symm.get hp
      exact ⟨q, hq, hid⟩
    · rintro ⟨q, hq, rfl⟩
      obtain ⟨p, hp, hid, -⟩ := alike.get hq
      exact ⟨p, hp, hid⟩
  · intro t q hq
    obtain ⟨p, hp, hid, -⟩ := alike.get hq
    exact hid ▸ h.apart t p hp
  · intro t q hq
    obtain ⟨p, hp, hid, -⟩ := alike.get hq
    exact hid ▸ h.pendingIssued t p hp
  · exact fun t ht => h.disjoint t (alike.mem ht)

theorem Owning.of_alike (h : Owning s) (alike : Alike s.pendingByTag pendingByTag) :
    Owning { s with pendingByTag } := by
  refine { owned := ?_, owner := ?_, unique := ?_ }
  · intro t q f hq hf
    obtain ⟨p, hp, -, hsame⟩ := alike.get hq
    exact h.owned t p f hp (hsame ▸ hf)
  · intro f hf
    obtain ⟨t, p, hp, hpf⟩ := h.owner f hf
    obtain ⟨q, hq, -, hsame⟩ := alike.symm.get hp
    exact ⟨t, q, hq, hsame ▸ hpf⟩
  · intro t₁ t₂ q₁ q₂ f h₁ h₂ ho₁ ho₂
    obtain ⟨p₁, hp₁, -, hs₁⟩ := alike.get h₁
    obtain ⟨p₂, hp₂, -, hs₂⟩ := alike.get h₂
    exact h.unique t₁ t₂ p₁ p₂ f hp₁ hp₂ (hs₁ ▸ ho₁) (hs₂ ▸ ho₂)

theorem Bookkeeping.joinPending (h : Bookkeeping s) (inactive : s.Inactive tag) {oldTag : Tag}
    {target : PendingOperation} (hp : s.pendingByTag[oldTag]? = some target)
    (room : s.accounting.inFlightTags + 1 ≤ s.limits.maxInFlightTags) :
    Bookkeeping (s.joinPending tag oldTag target) := by
  have alike : Alike s.pendingByTag (s.pendingByTag.insert oldTag (target.flushedBy tag)) :=
    .insert hp rfl rfl
  constructor
  case indexed =>
    refine { h.indexed.of_alike alike with disjoint := ?_ }
    intro t ht
    simp only [Session.joinPending, Std.ExtTreeMap.mem_insert, Std.compare_eq_iff_eq, not_or]
    refine ⟨?_, h.indexed.disjoint t (alike.mem ht)⟩
    rintro rfl
    exact inactive.1 (alike.mem ht)
  case counted =>
    exact { h.counted with
      tags := by
        simp only [Session.joinPending, FinMap.size_insert_of_getElem? hp,
          FinMap.size_insert_of_notMem inactive.2, h.counted.tags]
        omega
      writes := by
        simp only [Session.joinPending, h.counted.writes]
        symm
        apply FinMap.total_insert_of_eq hp
        rfl }
  case bounded => exact { h.bounded with tags := room }
  case owning =>
    intro active
    exact { (h.owning active).of_alike alike with }
  case closing => exact h.closing
  case drained => exact h.drained

theorem Bookkeeping.joinFlush (h : Bookkeeping s) (inactive : s.Inactive tag) {oldTag : Tag}
    {target : FlushState} (hf : s.flushes[oldTag]? = some target)
    (room : s.accounting.inFlightTags + 1 ≤ s.limits.maxInFlightTags) :
    Bookkeeping (s.joinFlush tag oldTag target) := by
  have hmem : oldTag ∈ s.flushes := by
    rw [Std.ExtTreeMap.mem_iff_isSome_getElem?, hf]
    rfl
  have hne : tag ≠ oldTag := by
    rintro rfl
    exact inactive.2 hmem
  have hold : (s.flushes.insert tag ⟨false, []⟩)[oldTag]? = some target := by
    rw [Std.ExtTreeMap.getElem?_insert, if_neg (by simpa using hne)]
    exact hf
  constructor
  case indexed =>
    refine { h.indexed with disjoint := ?_ }
    intro t ht
    simp only [Session.joinFlush, Std.ExtTreeMap.mem_insert, Std.compare_eq_iff_eq, not_or]
    refine ⟨?_, ?_, h.indexed.disjoint t ht⟩
    · rintro rfl
      exact h.indexed.disjoint oldTag ht hmem
    · rintro rfl
      exact inactive.1 ht
  case counted =>
    refine { h.counted with tags := ?_ }
    simp only [Session.joinFlush, FinMap.size_insert_of_getElem? hold,
      FinMap.size_insert_of_notMem inactive.2, h.counted.tags]
    omega
  case bounded => exact { h.bounded with tags := room }
  case owning =>
    intro active
    exact { h.owning active with }
  case closing => exact h.closing
  case drained => exact h.drained

/-! ## Closing -/

theorem Bookkeeping.startCleanup (h : Bookkeeping s) (closing : s.terminalReason.isSome = true) :
    Bookkeeping (s.startCleanup order) := by
  cases hstarted : s.cleanupStarted with
  | true =>
    rw [startCleanup_of_started hstarted]
    exact h
  | false =>
    rw [startCleanup_eq hstarted]
    constructor
    case indexed =>
      refine { h.indexed.of_alike .map_silence with disjoint := ?_ }
      intro t ht
      simp only [Std.ExtTreeMap.mem_map] at ht ⊢
      exact h.indexed.disjoint t ht
    case counted =>
      exact {
        tags := by
          simp only [Std.ExtTreeMap.size_map]
          exact h.counted.tags
        fids := by
          simp only [h.counted.fids, Nat.sub_self]
          rfl
        effects := h.counted.effects
        effectBytes := h.counted.effectBytes
        writes := h.counted.writes.trans
          (FinMap.total_map (g := fun _ (p : PendingOperation) => p.silence)
            fun _ _ => rfl).symm }
    case bounded =>
      have hfids := h.bounded.fids
      exact { h.bounded with fids := by simp only; omega }
    case owning =>
      intro active
      rw [show s.terminalReason = none from active] at closing
      cases closing
    case closing => exact fun _ => closing
    case drained => exact fun _ => rfl

theorem Bookkeeping.setReason (h : Bookkeeping s) (reason : CloseReason) (decoder : FrameDecoder) :
    Bookkeeping { s with terminalReason := some reason, decoder } where
  indexed := { h.indexed with }
  counted := { h.counted with }
  bounded := { h.bounded with }
  owning active := by cases active
  closing _ := rfl
  drained := h.drained

/-! ## Renegotiation -/

/-- What a renegotiation abandons was abandoned before or outstanding. -/
theorem getElem?_abandoned {expected : ExpectedCompletion}
    (h : (order.abandoned s)[id]? = some expected) :
    s.abandonedOperations[id]? = some expected ∨
      ∃ (tag : Tag) (p : PendingOperation), s.pendingByTag[tag]? = some p ∧ p.operationId = id ∧
        p.expected = expected := by
  -- over the operations in any order
  suffices hfold : ∀ (entries : List (Tag × PendingOperation))
      (abandoned : Std.ExtTreeMap OperationId ExpectedCompletion),
      (entries.foldl (fun abandoned entry =>
        abandoned.insert entry.2.operationId entry.2.expected) abandoned)[id]? = some expected →
      abandoned[id]? = some expected ∨
        ∃ entry ∈ entries, entry.2.operationId = id ∧ entry.2.expected = expected by
    rcases hfold _ _ h with hold | ⟨entry, hentry, hid, heq⟩
    · exact .inl hold
    · refine .inr ⟨entry.1, entry.2, ?_, hid, heq⟩
      exact Std.ExtTreeMap.mem_toList_iff_getElem?_eq_some.1 ((order.pending_perm _).mem_iff.1 hentry)
  intro entries
  induction entries with
  | nil => exact fun _ h => .inl h
  | cons entry entries ih =>
    intro abandoned h
    rcases ih _ h with hold | ⟨other, hother, heq⟩
    · rw [Std.ExtTreeMap.getElem?_insert] at hold
      split at hold
      · rename_i hid
        exact .inr ⟨entry, List.mem_cons_self, Std.compare_eq_iff_eq.1 hid, Option.some.inj hold⟩
      · exact .inl hold
    · exact .inr ⟨other, List.mem_cons_of_mem _ hother, heq⟩

theorem Indexed.abandoned_issued (h : Indexed s) (hid : id ∈ order.abandoned s) :
    id ≤ s.lastIssuedOperationId := by
  obtain ⟨expected, hexpected⟩ := Option.isSome_iff_exists.1
    (Std.ExtTreeMap.mem_iff_isSome_getElem?.1 hid)
  rcases getElem?_abandoned hexpected with hold | ⟨tag, p, hp, rfl, -⟩
  · refine h.abandonedIssued id (Std.ExtTreeMap.mem_iff_isSome_getElem?.2 ?_)
    rw [hold]
    rfl
  · exact h.pendingIssued tag p hp

/-- Renegotiating keeps the books: nothing but cleanup is left. -/
theorem Bookkeeping.renegotiate (h : Bookkeeping s) (msize : UInt32) (version : Bytes) :
    Bookkeeping (s.renegotiate order msize version) := by
  obtain ⟨cleanup, heq⟩ := renegotiate_eq order s msize version
  rw [heq]
  constructor
  case indexed =>
    exact {
      inverse := by simp
      apart := by simp
      pendingIssued := by simp
      abandonedIssued := fun id hid => h.indexed.abandoned_issued hid
      next := h.indexed.next
      disjoint := by simp }
  case counted =>
    exact {
      tags := by
        simp only [h.counted.tags]
        simp
        omega
      fids := by simp [h.counted.fids]
      effects := h.counted.effects
      effectBytes := h.counted.effectBytes
      writes := by simp [h.counted.writes, FinMap.total_empty] }
  case bounded =>
    have htags := h.bounded.tags
    have hfids := h.bounded.fids
    have hwrites := h.bounded.writes
    exact { h.bounded with
      tags := by simp only; omega
      fids := by simp only; omega
      writes := by simp only; omega }
  case owning =>
    intro _
    exact { owned := by simp, owner := by simp, unique := by simp }
  case closing => exact h.closing
  case drained => exact fun _ => rfl

theorem Session.renegotiate_terminalReason (s : Session) (msize : UInt32) (version : Bytes) :
    (s.renegotiate order msize version).terminalReason = s.terminalReason := by
  obtain ⟨cleanup, heq⟩ := renegotiate_eq order s msize version
  rw [heq]

/-! ## Completions -/

variable {p : PendingOperation}

theorem Counted.untrack (h : Counted s) (hp : s.pendingByTag[tag]? = some p) (id : OperationId) :
    Counted (s.untrack id tag p) where
  tags := by
    have hsize := FinMap.size_erase_add_one hp
    have htags := h.tags
    simp only [Session.untrack, Accounting.release]
    omega
  fids := h.fids
  effects := h.effects
  effectBytes := h.effectBytes
  writes := by
    have htotal := FinMap.total_erase (f := (·.writeBytes)) hp
    have hwrites := h.writes
    simp only [Session.untrack, Accounting.release]
    omega

theorem Bounded.untrack (h : Bounded s) (tag : Tag) (p : PendingOperation) (id : OperationId) :
    Bounded (s.untrack id tag p) := by
  have htags := h.tags
  have hwrites := h.writes
  exact { h with
    tags := by simp only [Session.untrack, Accounting.release]; omega
    writes := by simp only [Session.untrack, Accounting.release]; omega }

variable {owned : Option Fid}

section

variable (settled : Settled s owned s')

include settled

theorem Settled.frame :
    ∃ fids count, s' = { s with fids, accounting := { s.accounting with fids := count } } := by
  cases settled with
  | nothing => exact ⟨s.fids, s.accounting.fids, rfl⟩
  | installed => exact ⟨_, s.accounting.fids, rfl⟩
  | retired =>
    unfold Session.retireFid
    split
    · exact ⟨_, _, rfl⟩
    · exact ⟨s.fids, s.accounting.fids, rfl⟩

theorem Settled.other {f : Fid} (hf : owned ≠ some f) :
    s'.fids[f]? = s.fids[f]? := by
  cases settled with
  | nothing => rfl
  | installed =>
    have hne : ¬_ = f := fun heq => hf (congrArg some heq)
    simp only [Session.setFid, Std.ExtTreeMap.getElem?_insert, Std.compare_eq_iff_eq, if_neg hne]
  | retired =>
    have hne : ¬_ = f := fun heq => hf (congrArg some heq)
    unfold Session.retireFid
    split
    · simp only [Std.ExtTreeMap.getElem?_erase, Std.compare_eq_iff_eq, if_neg hne]
    · rfl

theorem Settled.idle {f : Fid} (hf : owned = some f) :
    s'.fids[f]? ≠ some FidState.pending := by
  cases settled with
  | nothing => cases hf
  | installed idle =>
    cases hf
    simp only [Session.setFid, Std.ExtTreeMap.getElem?_insert_self, ne_eq, Option.some.injEq]
    exact idle
  | retired =>
    cases hf
    unfold Session.retireFid
    split
    · simp
    · rename_i habsent
      rw [Std.ExtTreeMap.getElem?_eq_none habsent]
      simp

/-- The counter never exceeds the table, whatever state the owned fid was in. -/
theorem Settled.fids_le (h : s.accounting.fids = s.fids.size) :
    s'.accounting.fids ≤ s'.fids.size ∧ s'.accounting.fids ≤ s.accounting.fids := by
  cases settled with
  | nothing => exact ⟨h.le, Nat.le_refl _⟩
  | installed =>
    refine ⟨?_, Nat.le_refl _⟩
    simp only [Session.setFid, h]
    exact Std.ExtTreeMap.size_le_size_insert
  | @retired f =>
    unfold Session.retireFid
    split
    · rename_i hmem
      obtain ⟨v, hv⟩ := Option.isSome_iff_exists.1 (Std.ExtTreeMap.mem_iff_isSome_getElem?.1 hmem)
      have hsize := FinMap.size_erase_add_one hv
      simp only [Accounting.release]
      omega
    · exact ⟨h.le, Nat.le_refl _⟩

/-- The counter stays exact when the owned fid was reserved. -/
theorem Settled.fids_eq (h : s.accounting.fids = s.fids.size)
    (hreserved : ∀ f, owned = some f → s.fids[f]? = some FidState.pending) :
    s'.accounting.fids = s'.fids.size := by
  cases settled with
  | nothing => exact h
  | @installed f state =>
    have hsize := FinMap.size_insert_of_getElem? (w := state) (hreserved f rfl)
    simp only [Session.setFid]
    omega
  | @retired f =>
    have hsize := FinMap.size_erase_add_one (hreserved f rfl)
    unfold Session.retireFid
    split
    · simp only [Accounting.release]
      omega
    · exact h

end

/-- The reservations left when an operation is gone and its fid settled. -/
theorem Owning.settle (h : Owning s) (hp : s.pendingByTag[tag]? = some p)
    (settled : Settled (s.untrack id tag p) p.continuation.owned s') : Owning s' := by
  have hpending : ∀ (t : Tag) (q : PendingOperation), s'.pendingByTag[t]? = some q ↔
      tag ≠ t ∧ s.pendingByTag[t]? = some q := by
    intro t q
    obtain ⟨fids, count, rfl⟩ := settled.frame
    simp only [Session.untrack, Std.ExtTreeMap.getElem?_erase, Std.compare_eq_iff_eq]
    split
    · simp [*]
    · simp [*]
  refine { owned := ?_, owner := ?_, unique := ?_ }
  · intro t q f hq hf
    obtain ⟨hne, hq⟩ := (hpending t q).1 hq
    have hother : p.continuation.owned ≠ some f :=
      fun hpf => hne (h.unique tag t p q f hp hq hpf hf)
    rw [settled.other hother]
    exact h.owned t q f hq hf
  · intro f hf
    have hother : p.continuation.owned ≠ some f := fun hpf => settled.idle hpf hf
    rw [settled.other hother] at hf
    obtain ⟨t, q, hq, hqf⟩ := h.owner f hf
    have hne : tag ≠ t := by
      rintro rfl
      rw [hp] at hq
      cases hq
      exact hother hqf
    exact ⟨t, q, (hpending t q).2 ⟨hne, hq⟩, hqf⟩
  · intro t₁ t₂ p₁ p₂ f h₁ h₂
    exact h.unique t₁ t₂ p₁ p₂ f ((hpending t₁ p₁).1 h₁).2 ((hpending t₂ p₂).1 h₂).2

/-- The session of an operation whose fid was settled, drained when it is closing
(mod.rs:1861-1885). -/
theorem Bookkeeping.settle (h : Bookkeeping s) (order : HashOrder) (hp : s.pendingByTag[tag]? = some p)
    (htag : s.tagByOperation[p.operationId]? = some tag)
    (settled : Settled (s.untrack p.operationId tag p) p.continuation.owned s') :
    Bookkeeping (if s'.terminalReason.isSome then s'.drainFidsToCleanup order else s') := by
  have hindexed := h.indexed.untrack htag hp
  have hcounted := h.counted.untrack hp p.operationId
  have hbounded := h.bounded.untrack tag p p.operationId
  obtain ⟨hsize, hle⟩ := settled.fids_le hcounted.fids
  obtain ⟨fids, count, rfl⟩ := settled.frame
  have hlimit : count ≤ s.limits.maxFids := hle.trans hbounded.fids
  by_cases hclosing : s.terminalReason.isSome = true
  · -- the counter may be behind the table here, but both are reset
    rw [show (Session.untrack s p.operationId tag p).terminalReason = s.terminalReason from rfl,
      if_pos hclosing, drainFidsToCleanup_eq]
    exact {
      indexed := { hindexed with }
      counted := { hcounted with fids := Nat.sub_eq_zero_of_le hsize }
      bounded := { hbounded with fids := (Nat.sub_le _ _).trans hlimit }
      owning := fun active => by
        rw [show s.terminalReason = none from active] at hclosing
        cases hclosing
      closing := fun _ => hclosing
      drained := fun _ => rfl }
  · rw [show (Session.untrack s p.operationId tag p).terminalReason = s.terminalReason from rfl,
      if_neg hclosing]
    have hactive : s.terminalReason = none := Option.not_isSome_iff_eq_none.1 hclosing
    have howning := h.owning hactive
    have hfids := settled.fids_eq hcounted.fids fun f hf => howning.owned tag p f hp hf
    have hopen : s.cleanupStarted ≠ true := fun hc => hclosing (h.closing hc)
    exact {
      indexed := { hindexed with }
      counted := { hcounted with fids := hfids }
      bounded := { hbounded with fids := hlimit }
      owning := fun _ => howning.settle hp settled
      closing := fun hc => absurd hc hopen
      drained := fun hc => absurd hc hopen }

theorem Bookkeeping.removeFlush (h : Bookkeeping s) {flush : FlushState}
    (active : s.flushes[tag]? = some flush) : Bookkeeping { s with
      flushes := s.flushes.erase tag
      accounting := { s.accounting with
        inFlightTags := Accounting.release s.accounting.inFlightTags 1 } } := by
  have hsize := FinMap.size_erase_add_one active
  have hcounted := h.counted.tags
  have hbounded := h.bounded.tags
  exact { h with
    indexed := { h.indexed with
      disjoint := fun t ht hflush =>
        h.indexed.disjoint t ht (Std.ExtTreeMap.mem_of_mem_erase hflush) }
    counted := { h.counted with tags := by simp only [Accounting.release]; omega }
    bounded := { h.bounded with tags := by simp only [Accounting.release]; omega }
    owning := fun hactive => { h.owning hactive with } }

theorem Bookkeeping.forget (h : Bookkeeping s) (id : OperationId) :
    Bookkeeping { s with abandonedOperations := s.abandonedOperations.erase id } where
  indexed := { h.indexed with
    apart := fun t q hq hmem => h.indexed.apart t q hq (Std.ExtTreeMap.mem_of_mem_erase hmem)
    abandonedIssued := fun a ha =>
      h.indexed.abandonedIssued a (Std.ExtTreeMap.mem_of_mem_erase ha) }
  counted := { h.counted with }
  bounded := { h.bounded with }
  owning active := { h.owning active with }
  closing := h.closing
  drained := h.drained

/-! ## Polling -/

/-- The session after a cleanup request was handed out (mod.rs:272-286, 288-303). -/
def Session.handOut (s : Session) (id : OperationId) (expected : ExpectedCompletion) : Session :=
  { s.issue id with abandonedOperations := s.abandonedOperations.insert id expected }

theorem Bookkeeping.withCleanup (h : Bookkeeping s) (cleanup : List CleanupAction) :
    Bookkeeping { s with cleanup } where
  indexed := { h.indexed with }
  counted := { h.counted with }
  bounded := { h.bounded with }
  owning active := { h.owning active with }
  closing := h.closing
  drained := h.drained

theorem Bookkeeping.handOut (h : Bookkeeping s) (next : s.operationIds = some id)
    (expected : ExpectedCompletion) : Bookkeeping (s.handOut id expected) := by
  have hissued := h.issue next
  have hfresh := h.indexed.fresh next
  exact { hissued with
    indexed := { hissued.indexed with
      apart := by
        intro t q hq hmem
        rcases Std.ExtTreeMap.mem_insert.1 hmem with heq | hold
        · -- an outstanding operation is older than the new identifier
          rw [Std.compare_eq_iff_eq] at heq
          have hle := h.indexed.pendingIssued t q hq
          rw [← heq] at hle
          exact absurd hfresh (UInt64.not_lt.2 hle)
        · exact h.indexed.apart t q hq hold
      abandonedIssued := by
        intro a ha
        rcases Std.ExtTreeMap.mem_insert.1 ha with heq | hold
        · rw [Std.compare_eq_iff_eq] at heq
          rw [← heq]
          exact UInt64.le_refl _
        · exact hissued.indexed.abandonedIssued a hold }
    counted := { hissued.counted with }
    bounded := { hissued.bounded with }
    owning := fun active => { hissued.owning active with } }

theorem Bookkeeping.popEffect (h : Bookkeeping s) {effect : Effect} {effects : List Effect}
    (head : s.effects = effect :: effects) : Bookkeeping { s with
      effects
      accounting := { s.accounting with
        queuedEffects := Accounting.release s.accounting.queuedEffects 1
        queuedEffectBytes :=
          Accounting.release s.accounting.queuedEffectBytes effect.retainedBytes } } := by
  have hcount := h.counted.effects
  have hbytes := h.counted.effectBytes
  have hlimit := h.bounded.effects
  have hbyteLimit := h.bounded.effectBytes
  rw [head, List.length_cons] at hcount
  rw [head, List.map_cons, List.sum_cons] at hbytes
  exact { h with
    indexed := { h.indexed with }
    counted := { h.counted with
      effects := by simp only [Accounting.release]; omega
      effectBytes := by simp only [Accounting.release]; omega }
    bounded := { h.bounded with
      effects := by simp only [Accounting.release]; omega
      effectBytes := by simp only [Accounting.release]; omega }
    owning := fun active => { h.owning active with } }

/-! ## A new session -/

theorem bookkeeping_new {limits : Limits} {context : SessionContext}
    (created : Session.new limits context = .ok s) : Bookkeeping s := by
  simp only [Session.new, bind_eq_ok, pure_eq_ok] at created
  obtain ⟨_, -, rfl⟩ := created
  exact {
    indexed := {
      inverse := by simp [Session.initial]
      apart := by simp [Session.initial]
      pendingIssued := by simp [Session.initial]
      abandonedIssued := by simp [Session.initial]
      next := rfl
      disjoint := by simp [Session.initial] }
    counted := {
      tags := by simp [Session.initial]
      fids := by simp [Session.initial]
      effects := rfl
      effectBytes := rfl
      writes := (FinMap.total_empty _).symm }
    bounded := {
      tags := Nat.zero_le _
      fids := Nat.zero_le _
      effects := Nat.zero_le _
      effectBytes := Nat.zero_le _
      writes := Nat.zero_le _ }
    owning := fun _ =>
      { owned := by simp [Session.initial], owner := by simp [Session.initial],
        unique := by simp [Session.initial] }
    closing := fun h => by cases h
    drained := fun h => by cases h }

end W9pt.Connection

import Mathlib.Logic.Relation
import Mathlib.Logic.Function.Basic
import Mathlib.Data.List.Nodup

/-!
# Forests of waiting lists

Every member keeps the list of those that wait for it. `Forest` says that these lists are a forest over
its roots: each node is listed once and found from a root. While a tree is taken apart, the nodes whose
list is already gone are loose.

* `join`: a new node waits for a member;
* `cut`: a root or a loose node goes, and those that waited for it become loose;
* `acyclic`, `root_unique`, `mem_remaining`: what follows for a forest without loose nodes.
-/

namespace W9pt.Lib

open Relation

variable {α : Type}

/-- `b` waits for `a`. -/
def Waits (kids : α → List α) (a b : α) : Prop := b ∈ kids a

structure Forest (kids : α → List α) (root node : α → Prop) (loose : List α) : Prop where
  apart : ∀ a, root a → ¬ node a
  listed : ∀ b, node b ↔ b ∈ loose ∨ ∃ a, b ∈ kids a
  once : ∀ a, (kids a).Nodup
  looseOnce : loose.Nodup
  unlisted : ∀ a b, b ∈ loose → b ∉ kids a
  parent : ∀ a a' b, b ∈ kids a → b ∈ kids a' → a = a'
  alive : ∀ a b, b ∈ kids a → root a ∨ node a
  rooted : ∀ b, node b → ∃ a, (root a ∨ a ∈ loose) ∧ ReflTransGen (Waits kids) a b

variable {kids kids' : α → List α} {root node root' node' : α → Prop} {loose : List α}
  {a b r r' t : α}

theorem Forest.root_unlisted (h : Forest kids root node loose) (hr : root r) (a : α) :
    r ∉ kids a := fun hmem => h.apart r hr ((h.listed r).2 (.inr ⟨a, hmem⟩))

theorem Forest.congr (h : Forest kids root node loose) (hkids : ∀ a, kids' a = kids a)
    (hroot : ∀ a, root' a ↔ root a) (hnode : ∀ a, node' a ↔ node a) :
    Forest kids' root' node' loose := by
  obtain rfl : kids' = kids := funext hkids
  obtain rfl : root' = root := funext fun a => propext (hroot a)
  obtain rfl : node' = node := funext fun a => propext (hnode a)
  exact h

/-! ## Whole forests -/

section

variable (h : Forest kids root node [])

include h

theorem Forest.reached (hb : node b) :
    ∃ r, root r ∧ TransGen (Waits kids) r b := by
  obtain ⟨r, hr, hpath⟩ := h.rooted b hb
  have hroot : root r := hr.resolve_right List.not_mem_nil
  rcases reflTransGen_iff_eq_or_transGen.1 hpath with rfl | hpath
  · exact absurd hb (h.apart b hroot)
  · exact ⟨r, hroot, hpath⟩

/-- **Waiting never cycles.** -/
theorem Forest.acyclic (a : α) : ¬ TransGen (Waits kids) a a := by
  intro hcycle
  obtain ⟨c, -, hedge⟩ := TransGen.tail'_iff.1 hcycle
  obtain ⟨r, hr, hpath⟩ := h.reached ((h.listed a).2 (.inr ⟨c, hedge⟩))
  clear hedge
  -- back along the path, the cycle moves with it until it reaches the root
  induction hpath with
  | single hedge' =>
    obtain ⟨d, hback, hedge''⟩ := TransGen.tail'_iff.1 hcycle
    obtain rfl := h.parent _ _ _ hedge' hedge''
    rcases ReflTransGen.cases_tail_iff _ _ _ |>.1 hback with rfl | ⟨e, -, hlast⟩
    · exact h.root_unlisted hr _ hedge'
    · exact h.root_unlisted hr _ hlast
  | tail _ hedge' ih =>
    obtain ⟨d, hback, hedge''⟩ := TransGen.tail'_iff.1 hcycle
    obtain rfl := h.parent _ _ _ hedge' hedge''
    exact ih (TransGen.head' hedge' hback)

theorem Forest.root_unique (hr : root r) (hr' : root r') (hpath : ReflTransGen (Waits kids) r b)
    (hpath' : ReflTransGen (Waits kids) r' b) : r = r' := by
  induction hpath with
  | refl =>
    rcases (ReflTransGen.cases_tail_iff _ _ _).1 hpath' with heq | ⟨c, -, hedge⟩
    · exact heq
    · exact absurd hedge (h.root_unlisted hr c)
  | tail _ hedge ih =>
    rcases (ReflTransGen.cases_tail_iff _ _ _).1 hpath' with rfl | ⟨c, hbefore, hedge'⟩
    · exact absurd hedge (h.root_unlisted hr' _)
    · exact ih (h.parent _ _ _ hedge hedge' ▸ hbefore)

/-- **What is left when one tree is gone**, if the lists of those that are left are the same. -/
theorem Forest.mem_remaining (h' : Forest kids' root' node' []) (ht : root t)
    (hroot : ∀ a, root' a ↔ root a ∧ a ≠ t) (hkids : ∀ a, root' a ∨ node' a → kids' a = kids a)
    (hb : node b) :
    node' b ↔ ¬ TransGen (Waits kids) t b := by
  constructor
  · intro hb' htree
    obtain ⟨r, hr, hpath⟩ := h'.reached hb'
    have hsame : ReflTransGen (Waits kids) r b := by
      refine ReflTransGen.mono (fun a c hedge => ?_) r b hpath.to_reflTransGen
      have hedge : c ∈ kids' a := hedge
      rwa [hkids a (h'.alive a c hedge)] at hedge
    obtain ⟨hr, hne⟩ := (hroot r).1 hr
    exact hne (h.root_unique hr ht hsame htree.to_reflTransGen)
  · intro htree
    obtain ⟨r, hr, hpath⟩ := h.reached hb
    have hne : r ≠ t := by
      rintro rfl
      exact htree hpath
    have hstep : ∀ a c, root' a ∨ node' a → Waits kids a c → node' c := by
      intro a c ha hedge
      have hedge : c ∈ kids a := hedge
      rw [← hkids a ha] at hedge
      exact (h'.listed c).2 (.inr ⟨a, hedge⟩)
    clear htree hb
    induction hpath with
    | single hedge => exact hstep r _ (.inl ((hroot r).2 ⟨hr, hne⟩)) hedge
    | tail _ hedge ih => exact hstep _ _ (.inr ih) hedge

end

/-! ## Growing -/

theorem Forest.addRoot (h : Forest kids root node loose) (ht : ¬ node t) :
    Forest kids (fun a => root a ∨ a = t) node loose where
  apart a := by
    rintro (ha | rfl)
    · exact h.apart a ha
    · exact ht
  listed := h.listed
  once := h.once
  looseOnce := h.looseOnce
  unlisted := h.unlisted
  parent := h.parent
  alive a b hb := (h.alive a b hb).imp_left .inl
  rooted b hb := by
    obtain ⟨a, ha, hpath⟩ := h.rooted b hb
    exact ⟨a, ha.imp_left .inl, hpath⟩

variable [DecidableEq α]

theorem mem_update_append {old : α} :
    b ∈ Function.update kids old (kids old ++ [t]) a ↔ b ∈ kids a ∨ a = old ∧ b = t := by
  by_cases ha : a = old
  · subst ha
    simp
  · simp [ha]

/-- **A new node waits for a member.** -/
theorem Forest.join (h : Forest kids root node loose) {old : α} (hold : root old ∨ node old)
    (hnode : ¬ node t) (hroot : ¬ root t) :
    Forest (Function.update kids old (kids old ++ [t])) root (fun b => node b ∨ b = t) loose := by
  have hfresh : ∀ a, t ∉ kids a := fun a ha => hnode ((h.listed t).2 (.inr ⟨a, ha⟩))
  have hmono : ∀ a b, ReflTransGen (Waits kids) a b →
      ReflTransGen (Waits (Function.update kids old (kids old ++ [t]))) a b :=
    ReflTransGen.mono fun _ _ hedge => mem_update_append.2 (.inl hedge)
  constructor
  case apart =>
    rintro a ha (hb | rfl)
    · exact h.apart a ha hb
    · exact hroot ha
  case listed =>
    intro b
    simp only [mem_update_append, h.listed b]
    constructor
    · rintro ((hb | ⟨a, ha⟩) | rfl)
      · exact .inl hb
      · exact .inr ⟨a, .inl ha⟩
      · exact .inr ⟨old, .inr ⟨rfl, rfl⟩⟩
    · rintro (hb | ⟨a, ha | ⟨-, rfl⟩⟩)
      · exact .inl (.inl hb)
      · exact .inl (.inr ⟨a, ha⟩)
      · exact .inr rfl
  case once =>
    intro a
    by_cases ha : a = old
    · subst ha
      rw [Function.update_self]
      exact (h.once a).append (List.nodup_singleton t) (by simpa using hfresh a)
    · rw [Function.update_of_ne ha]
      exact h.once a
  case looseOnce => exact h.looseOnce
  case unlisted =>
    intro a b hb hmem
    rcases mem_update_append.1 hmem with ha | ⟨-, rfl⟩
    · exact h.unlisted a b hb ha
    · exact hnode ((h.listed b).2 (.inl hb))
  case parent =>
    intro a a' b hb hb'
    rcases mem_update_append.1 hb with ha | ⟨rfl, rfl⟩ <;>
      rcases mem_update_append.1 hb' with ha' | ⟨rfl, hsame⟩
    · exact h.parent a a' b ha ha'
    · exact absurd (hsame ▸ ha) (hfresh a)
    · exact absurd ha' (hfresh a')
    · rfl
  case alive =>
    intro a b hb
    rcases mem_update_append.1 hb with ha | ⟨rfl, -⟩
    · exact (h.alive a b ha).imp_right .inl
    · exact hold.imp_right .inl
  case rooted =>
    rintro b (hb | rfl)
    · obtain ⟨a, ha, hpath⟩ := h.rooted b hb
      exact ⟨a, ha, hmono a b hpath⟩
    · have hedge : Waits (Function.update kids old (kids old ++ [b])) old b :=
        mem_update_append.2 (.inr ⟨rfl, rfl⟩)
      rcases hold with hroot | hnode
      · exact ⟨old, .inl hroot, .single hedge⟩
      · obtain ⟨a, ha, hpath⟩ := h.rooted old hnode
        exact ⟨a, ha, (hmono a old hpath).tail hedge⟩

/-! ## Taking apart -/

theorem mem_update_nil : b ∈ Function.update kids t [] a ↔ b ∈ kids a ∧ a ≠ t := by
  by_cases ha : a = t
  · simp [ha]
  · simp [ha]

/-- A path that does not end in `t` avoids it, or goes through one that waits for it. -/
theorem reach_update_nil (hpath : ReflTransGen (Waits kids) a b) (hb : b ≠ t) :
    (a ≠ t ∧ ReflTransGen (Waits (Function.update kids t [])) a b) ∨
      ∃ w ∈ kids t, ReflTransGen (Waits (Function.update kids t [])) w b := by
  induction hpath with
  | refl => exact .inl ⟨hb, .refl⟩
  | @tail c b _ hedge ih =>
    by_cases hc : c = t
    · subst hc
      exact .inr ⟨b, hedge, .refl⟩
    · have hkept : Waits (Function.update kids t []) c b := mem_update_nil.2 ⟨hedge, hc⟩
      rcases ih hc with ⟨ha, hbefore⟩ | ⟨w, hw, hbefore⟩
      · exact .inl ⟨ha, hbefore.tail hkept⟩
      · exact .inr ⟨w, hw, hbefore.tail hkept⟩

/-- **A root or the first loose node goes, and those that waited for it become loose.** -/
theorem Forest.cut {rest : List α} (h : Forest kids root node loose)
    (htop : loose = t :: rest ∨ root t ∧ loose = rest) :
    Forest (Function.update kids t []) (fun a => root a ∧ a ≠ t) (fun b => node b ∧ b ≠ t)
      (kids t ++ rest) := by
  have hfree : ∀ a, t ∉ kids a := by
    rcases htop with rfl | ⟨ht, -⟩
    · exact fun a => h.unlisted a t List.mem_cons_self
    · exact h.root_unlisted ht
  have hrest : ∀ b, b ∈ rest ↔ b ∈ loose ∧ b ≠ t := by
    intro b
    rcases htop with rfl | ⟨ht, rfl⟩
    · have hnot := (List.nodup_cons.1 h.looseOnce).1
      rw [List.mem_cons]
      constructor
      · exact fun hb => ⟨.inr hb, fun heq => hnot (heq ▸ hb)⟩
      · exact fun ⟨hb, hne⟩ => hb.resolve_left hne
    · refine ⟨fun hb => ⟨hb, ?_⟩, And.left⟩
      rintro rfl
      exact h.apart b ht ((h.listed b).2 (.inl hb))
  have hne : ∀ a b, b ∈ kids a → b ≠ t := fun a b hb heq => hfree a (heq ▸ hb)
  constructor
  case apart => exact fun a ha hb => h.apart a ha.1 hb.1
  case listed =>
    intro b
    simp only [mem_update_nil, List.mem_append, hrest, h.listed b]
    constructor
    · rintro ⟨hb | ⟨a, ha⟩, hbt⟩
      · exact .inl (.inr ⟨hb, hbt⟩)
      · by_cases hat : a = t
        · exact .inl (.inl (hat ▸ ha))
        · exact .inr ⟨a, ha, hat⟩
    · rintro ((hb | ⟨hb, hbt⟩) | ⟨a, ha, -⟩)
      · exact ⟨.inr ⟨t, hb⟩, hne t b hb⟩
      · exact ⟨.inl hb, hbt⟩
      · exact ⟨.inr ⟨a, ha⟩, hne a b ha⟩
  case once =>
    intro a
    by_cases ha : a = t
    · simp [ha]
    · rw [Function.update_of_ne ha]
      exact h.once a
  case looseOnce =>
    have hnodup : rest.Nodup := by
      rcases htop with rfl | ⟨-, rfl⟩
      · exact (List.nodup_cons.1 h.looseOnce).2
      · exact h.looseOnce
    exact (h.once t).append hnodup fun b hb hb' => h.unlisted t b ((hrest b).1 hb').1 hb
  case unlisted =>
    intro a b hb hmem
    obtain ⟨ha, hat⟩ := mem_update_nil.1 hmem
    rcases List.mem_append.1 hb with hkid | hloose
    · exact hat (h.parent a t b ha hkid)
    · exact h.unlisted a b ((hrest b).1 hloose).1 ha
  case parent =>
    exact fun a a' b hb hb' => h.parent a a' b (mem_update_nil.1 hb).1 (mem_update_nil.1 hb').1
  case alive =>
    intro a b hb
    obtain ⟨ha, hat⟩ := mem_update_nil.1 hb
    exact (h.alive a b ha).imp (⟨·, hat⟩) (⟨·, hat⟩)
  case rooted =>
    rintro b ⟨hb, hbt⟩
    obtain ⟨a, ha, hpath⟩ := h.rooted b hb
    rcases reach_update_nil hpath hbt with ⟨hat, hkept⟩ | ⟨w, hw, hkept⟩
    · refine ⟨a, ha.imp (⟨·, hat⟩) fun hloose => ?_, hkept⟩
      exact List.mem_append_right _ ((hrest a).2 ⟨hloose, hat⟩)
    · exact ⟨w, .inr (List.mem_append_left _ hw), hkept⟩

end W9pt.Lib

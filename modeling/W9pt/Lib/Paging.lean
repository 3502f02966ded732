import Mathlib

/-!
# Reading a collection page by page

A page takes items in the order of their positions until a bound on their number or on their size is
met (`Filled`), and says where to go on. `IsPage` says what such a page holds, and `Paged` is a reader
that goes on from each page until one says that nothing is left.

The collection may change between two pages. The items still come in order and none comes twice
(`Paged.sorted`), and what is there all along is returned (`Paged.returned`). If nothing changes, the
pages hold exactly the collection (`Paged.mem_iff`), and the reader comes to an end (`exists_paged`).
-/

namespace W9pt.Lib

universe u v w

variable {α : Type u} {κ : Type v} {σ : Type w}

/-! ## Filling a page -/

/-- The items that were taken from the candidates, with room for a number of items and bytes. -/
structure Filled (size : α → Nat) (room free : Nat) (candidates taken : List α) (more : Bool) :
    Prop where
  items : taken.length ≤ room
  bytes : (taken.map size).sum ≤ free
  rest : ∃ rest, candidates = taken ++ rest ∧ (more = true ↔ rest ≠ [])

namespace Filled

variable {size : α → Nat} {room free : Nat} {candidates taken : List α} {more : Bool}

theorem stop (candidates : List α) (h : more = true ↔ candidates ≠ []) :
    Filled size room free candidates [] more :=
  ⟨Nat.zero_le _, Nat.zero_le _, candidates, rfl, h⟩

theorem cons {a : α} (fits : size a ≤ free) (h : Filled size room (free - size a) candidates taken more) :
    Filled size (room + 1) free (a :: candidates) (a :: taken) more := by
  obtain ⟨hitems, hbytes, rest, rfl, hmore⟩ := h
  refine ⟨Nat.succ_le_succ hitems, ?_, rest, rfl, hmore⟩
  simp only [List.map_cons, List.sum_cons]
  omega

/-- Looking at one candidate more than there is room for is enough to know whether some are left. -/
theorem of_take (h : Filled size room free (candidates.take (room + 1)) taken more) :
    ∃ rest, candidates = taken ++ rest ∧ (more = true ↔ rest ≠ []) := by
  obtain ⟨hitems, -, rest, hrest, hmore⟩ := h
  refine ⟨rest ++ candidates.drop (room + 1), ?_, ?_⟩
  · rw [← List.append_assoc, ← hrest, List.take_append_drop]
  · rw [hmore]
    constructor
    · intro hne hnil
      exact hne (List.append_eq_nil_iff.1 hnil).1
    · rintro hne rfl
      have hlength := congrArg List.length hrest
      rw [List.append_nil, List.length_take] at hlength
      apply hne
      rw [List.nil_append]
      exact List.drop_of_length_le (by omega)

end Filled

/-- Taking candidates while there is room for the item and for its bytes; a first item that is too large
is an error. -/
def fill {ε : Type*} (size : α → Nat) (tooLarge : Nat → ε) (maxBytes : Nat) :
    Nat → List α → Nat → List α → Except ε (List α × Bool)
  | _, taken, _, [] => .ok (taken, false)
  | 0, taken, _, _ :: _ => .ok (taken, true)
  | room + 1, taken, bytes, x :: rest =>
    if maxBytes < bytes + size x then
      if taken = [] then .error (tooLarge (size x)) else .ok (taken, true)
    else fill size tooLarge maxBytes room (taken ++ [x]) (bytes + size x) rest

/-- Candidates are taken up to the bounds, or the first one is too large. -/
theorem fill_cases {ε : Type*} {size : α → Nat} (tooLarge : Nat → ε) (maxBytes room : Nat) {bytes : Nat}
    (taken : List α) (hbytes : bytes ≤ maxBytes) (candidates : List α) :
    (∃ new more, fill size tooLarge maxBytes room taken bytes candidates = .ok (taken ++ new, more) ∧
      Filled size room (maxBytes - bytes) candidates new more ∧
      (candidates ≠ [] → room ≠ 0 → taken ++ new ≠ [])) ∨
    (taken = [] ∧ ∃ first ∈ candidates.head?, maxBytes < bytes + size first ∧
      fill size tooLarge maxBytes room taken bytes candidates = .error (tooLarge (size first))) := by
  induction candidates generalizing room taken bytes with
  | nil =>
    refine .inl ⟨[], false, ?_, .stop _ (by simp), by simp⟩
    rw [List.append_nil]
    cases room <;> rfl
  | cons candidate rest ih =>
    cases room with
    | zero => exact .inl ⟨[], true, by rw [List.append_nil]; rfl, .stop _ (by simp), by simp⟩
    | succ room =>
      rw [fill]
      by_cases hfits : bytes + size candidate ≤ maxBytes
      · rw [if_neg (not_lt.2 hfits)]
        rcases ih room (taken ++ [candidate]) hfits with ⟨new, more, hok, hfilled, -⟩ | ⟨hnil, -⟩
        · refine .inl ⟨candidate :: new, more, ?_, .cons (by omega) ?_, by simp⟩
          · rw [hok, List.append_assoc]
            rfl
          · rwa [Nat.sub_sub]
        · simp at hnil
      · rw [if_pos (not_le.1 hfits)]
        by_cases htaken : taken = []
        · refine .inr ⟨htaken, candidate, rfl, not_le.1 hfits, ?_⟩
          rw [if_pos htaken]
        · refine .inl ⟨[], true, ?_, .stop _ (by simp), fun _ _ => by simpa using htaken⟩
          rw [if_neg htaken, List.append_nil]

/-! ## Pages -/

section Pages

variable (lt : κ → κ → Prop) (pos : α → κ)

/-- The position lies beyond the one to go on from. -/
def Beyond (after : Option κ) (position : κ) : Prop := ∀ cursor ∈ after, lt cursor position

/-- A page of the collection `S`, read from a position. -/
structure IsPage (S : α → Prop) (after : Option κ) (page : List α) (resume : Option κ) : Prop where
  sorted : page.Pairwise fun a b => lt (pos a) (pos b)
  sound : ∀ x ∈ page, S x ∧ Beyond lt after (pos x)
  last : ∀ cursor ∈ resume, ∃ x, page.getLast? = some x ∧ pos x = cursor
  complete : ∀ x, S x → Beyond lt after (pos x) → x ∈ page ∨ ∃ cursor ∈ resume, lt cursor (pos x)

/-- The first item of the collection beyond a position. -/
structure IsFirst (S : α → Prop) (after : Option κ) (x : α) : Prop where
  mem : S x
  beyond : Beyond lt after (pos x)
  least : ∀ y, S y → Beyond lt after (pos y) → y = x ∨ lt (pos x) (pos y)

/-- The reader of successive pages, with the collection each page was read from. -/
inductive Paged (Read : σ → Option κ → List α → Option κ → Prop) :
    Option κ → List (σ × List α) → Prop where
  | last {s : σ} {after : Option κ} {page : List α} (read : Read s after page none) :
      Paged Read after [(s, page)]
  | next {s : σ} {after : Option κ} {page : List α} {cursor : κ} {reads : List (σ × List α)}
      (read : Read s after page (some cursor)) (rest : Paged Read (some cursor) reads) :
      Paged Read after ((s, page) :: reads)

def returned (reads : List (σ × List α)) : List α := reads.flatMap Prod.snd

variable {lt pos} {S : α → Prop} {after resume : Option κ} {page : List α}

/-- The first items of a sorted list form a page. -/
theorem isPage_of_append (candidates rest : List α)
    (sorted : candidates.Pairwise fun a b => lt (pos a) (pos b))
    (mem : ∀ x, x ∈ candidates ↔ S x ∧ Beyond lt after (pos x)) (split : candidates = page ++ rest)
    (progress : candidates ≠ [] → page ≠ [])
    (hresume : resume = if rest = [] then none else page.getLast?.map pos) :
    IsPage lt pos S after page resume := by
  subst split
  obtain ⟨hpage, -, hcross⟩ := List.pairwise_append.1 sorted
  refine ⟨hpage, fun x hx => (mem x).1 (List.mem_append_left _ hx), ?_, fun x hx hbeyond => ?_⟩
  · intro cursor hcursor
    rw [hresume] at hcursor
    split at hcursor
    · cases hcursor
    · obtain ⟨x, hx, rfl⟩ := Option.map_eq_some_iff.1 hcursor
      exact ⟨x, hx, rfl⟩
  · rcases List.mem_append.1 ((mem x).2 ⟨hx, hbeyond⟩) with hmem | hmem
    · exact .inl hmem
    · -- the page ends before this item, so it says where to go on
      have hrest : rest ≠ [] := List.ne_nil_of_mem hmem
      have hne : page ≠ [] := progress (List.append_ne_nil_of_right_ne_nil _ hrest)
      obtain ⟨y, hy⟩ : ∃ y, page.getLast? = some y := ⟨_, List.getLast?_eq_getLast_of_ne_nil hne⟩
      refine .inr ⟨pos y, ?_, hcross y (List.mem_of_getLast? hy) x hmem⟩
      rw [hresume, if_neg hrest, hy]
      rfl

/-- The head of a sorted list is the first item. -/
theorem isFirst_of_head? {candidates : List α} {x : α}
    (sorted : candidates.Pairwise fun a b => lt (pos a) (pos b))
    (mem : ∀ x, x ∈ candidates ↔ S x ∧ Beyond lt after (pos x)) (hx : x ∈ candidates.head?) :
    IsFirst lt pos S after x := by
  cases candidates with
  | nil => cases hx
  | cons y rest =>
    obtain rfl : y = x := Option.some.inj hx
    obtain ⟨hmem, hbeyond⟩ := (mem y).1 List.mem_cons_self
    refine ⟨hmem, hbeyond, fun z hz hzb => ?_⟩
    rcases List.mem_cons.1 ((mem z).2 ⟨hz, hzb⟩) with rfl | hrest
    · exact .inl rfl
    · exact .inr ((List.pairwise_cons.1 sorted).1 z hrest)

/-- **A filled page**: the first items up to the bounds, or the first item is too large. Looking at one
candidate more than there is room for is enough. -/
theorem page_of_fill {ε : Type*} (size : α → Nat) (tooLarge : Nat → ε) (maxBytes : Nat) {room : Nat}
    (hroom : room ≠ 0) {candidates : List α} (sorted : candidates.Pairwise fun a b => lt (pos a) (pos b))
    (mem : ∀ x, x ∈ candidates ↔ S x ∧ Beyond lt after (pos x)) :
    (∃ page more, fill size tooLarge maxBytes room [] 0 (candidates.take (room + 1)) = .ok (page, more) ∧
      page.length ≤ room ∧ (page.map size).sum ≤ maxBytes ∧
      IsPage lt pos S after page (if more then page.getLast?.map pos else none)) ∨
    ∃ x, IsFirst lt pos S after x ∧ maxBytes < size x ∧
      fill size tooLarge maxBytes room [] 0 (candidates.take (room + 1)) = .error (tooLarge (size x)) := by
  rcases fill_cases tooLarge maxBytes room [] (Nat.zero_le _) (candidates.take (room + 1)) with
    ⟨page, more, hok, hfilled, hprogress⟩ | ⟨-, first, hfirst, hlarge, herror⟩
  · left
    obtain ⟨rest, hsplit, hmore⟩ := hfilled.of_take
    refine ⟨page, more, hok, hfilled.items, by simpa using hfilled.bytes, ?_⟩
    refine isPage_of_append candidates rest sorted mem hsplit (fun hne => ?_) ?_
    · simpa using hprogress (by simpa [List.take_eq_nil_iff] using hne) hroom
    · by_cases hrest : rest = []
      · rw [if_neg (by simpa [hrest] using hmore), if_pos hrest]
      · rw [if_pos (hmore.2 hrest), if_neg hrest]
  · rw [List.head?_take, if_neg (Nat.succ_ne_zero _)] at hfirst
    rw [Nat.zero_add] at hlarge
    exact .inr ⟨first, isFirst_of_head? sorted mem hfirst, hlarge, herror⟩

theorem IsPage.first_mem [IsTrans κ lt] [Std.Irrefl lt] (h : IsPage lt pos S after page resume)
    {x : α} (hx : IsFirst lt pos S after x) : x ∈ page := by
  rcases h.complete x hx.mem hx.beyond with hmem | ⟨cursor, hcursor, hlt⟩
  · exact hmem
  · -- the last item of the page would lie before the first
    obtain ⟨y, hy, rfl⟩ := h.last cursor hcursor
    obtain ⟨hmem, hbeyond⟩ := h.sound y (List.mem_of_getLast? hy)
    rcases hx.least y hmem hbeyond with rfl | hgt
    · exact List.mem_of_getLast? hy
    · exact absurd (IsTrans.trans _ _ _ hlt hgt) (Std.Irrefl.irrefl _)

variable {Read : σ → Option κ → List α → Option κ → Prop} {collection : σ → α → Prop}
  {reads : List (σ × List α)}

section

variable (h : Paged Read after reads)

include h

section

variable (law : ∀ read ∈ reads, ∀ after page resume, Read read.1 after page resume →
  IsPage lt pos (collection read.1) after page resume)

include law

/-- **The items come in order**, hence none twice, whatever happens between the pages. -/
theorem Paged.sorted [IsTrans κ lt] :
    (returned reads).Pairwise (fun a b => lt (pos a) (pos b)) ∧
      ∀ x ∈ returned reads, Beyond lt after (pos x) := by
  induction h with
  | last read =>
    have hpage := law _ List.mem_cons_self _ _ _ read
    simp only [returned, List.flatMap_cons, List.flatMap_nil, List.append_nil]
    exact ⟨hpage.sorted, fun x hx => (hpage.sound x hx).2⟩
  | @next s after page cursor reads read rest ih =>
    have hpage := law _ List.mem_cons_self _ _ _ read
    obtain ⟨hsorted, hbeyond⟩ := ih fun read hread => law read (List.mem_cons_of_mem _ hread)
    obtain ⟨y, hy, rfl⟩ := hpage.last cursor rfl
    have hlast : ∀ x ∈ page, x = y ∨ lt (pos x) (pos y) := by
      intro x hx
      obtain ⟨front, rfl⟩ := List.getLast?_eq_some_iff.1 hy
      rcases List.mem_append.1 hx with hfront | hback
      · exact .inr ((List.pairwise_append.1 hpage.sorted).2.2 x hfront y (by simp))
      · exact .inl (List.mem_singleton.1 hback)
    have hlater : ∀ z ∈ returned reads, lt (pos y) (pos z) := fun z hz => hbeyond z hz _ rfl
    simp only [returned, List.flatMap_cons]
    refine ⟨List.pairwise_append.2 ⟨hpage.sorted, hsorted, fun x hx z hz => ?_⟩, fun x hx => ?_⟩
    · rcases hlast x hx with rfl | hxy
      · exact hlater z hz
      · exact IsTrans.trans _ _ _ hxy (hlater z hz)
    · rcases List.mem_append.1 hx with hx | hx
      · exact (hpage.sound x hx).2
      · intro c hc
        have hycursor := (hpage.sound y (List.mem_of_getLast? hy)).2 c hc
        exact IsTrans.trans _ _ _ hycursor (hlater x hx)

/-- Every returned item was in the collection its page was read from. -/
theorem Paged.sound {x : α} (hx : x ∈ returned reads) :
    ∃ read ∈ reads, x ∈ read.2 ∧ collection read.1 x := by
  induction h with
  | last read =>
    simp only [returned, List.flatMap_cons, List.flatMap_nil, List.append_nil] at hx
    exact ⟨_, List.mem_cons_self, hx, ((law _ List.mem_cons_self _ _ _ read).sound x hx).1⟩
  | next read rest ih =>
    rcases List.mem_append.1 hx with hx | hx
    · exact ⟨_, List.mem_cons_self, hx, ((law _ List.mem_cons_self _ _ _ read).sound x hx).1⟩
    · obtain ⟨r, hr, hmem⟩ := ih (fun read hread => law read (List.mem_cons_of_mem _ hread)) hx
      exact ⟨r, List.mem_cons_of_mem _ hr, hmem⟩

/-- **What is there all along is returned**: an item that satisfies `P`, at one position. -/
theorem Paged.returned_of_all {P : α → Prop} {position : κ}
    (hposition : ∀ x, P x → pos x = position) (hbeyond : Beyond lt after position)
    (hall : ∀ read ∈ reads, ∃ x, collection read.1 x ∧ P x) :
    ∃ x ∈ returned reads, P x := by
  induction h with
  | last read =>
    obtain ⟨x, hx, hP⟩ := hall _ List.mem_cons_self
    rcases (law _ List.mem_cons_self _ _ _ read).complete x hx (hposition x hP ▸ hbeyond) with
      hmem | ⟨_, hnone, -⟩
    · exact ⟨x, by simpa [returned] using hmem, hP⟩
    · cases hnone
  | next read rest ih =>
    obtain ⟨x, hx, hP⟩ := hall _ List.mem_cons_self
    rcases (law _ List.mem_cons_self _ _ _ read).complete x hx (hposition x hP ▸ hbeyond) with
      hmem | ⟨cursor, hcursor, hlt⟩
    · exact ⟨x, List.mem_append_left _ hmem, hP⟩
    · cases hcursor
      obtain ⟨y, hy, hPy⟩ := ih (fun read hread => law read (List.mem_cons_of_mem _ hread))
        (by rintro _ ⟨⟩; exact hposition x hP ▸ hlt)
        fun read hread => hall read (List.mem_cons_of_mem _ hread)
      exact ⟨y, List.mem_append_right _ hy, hPy⟩

/-- **If nothing changes, the pages hold the collection** beyond the starting position. -/
theorem Paged.mem_iff [IsTrans κ lt] {s : σ} (hsame : ∀ read ∈ reads, read.1 = s) {x : α} :
    x ∈ returned reads ↔ collection s x ∧ Beyond lt after (pos x) := by
  constructor
  · intro hx
    obtain ⟨read, hread, -, hcollection⟩ := h.sound law hx
    exact ⟨hsame read hread ▸ hcollection, (h.sorted law).2 x hx⟩
  · rintro ⟨hx, hbeyond⟩
    obtain ⟨y, hy, rfl⟩ := h.returned_of_all law (P := (· = x)) (fun y hy => by rw [hy]) hbeyond
      fun read hread => ⟨x, hsame read hread ▸ hx, rfl⟩
    exact hy

/-- **What keeps its key and position is returned exactly once.** -/
theorem Paged.count_eq_one [IsTrans κ lt] [Std.Irrefl lt] {γ : Type*} [DecidableEq γ] {key : α → γ}
    {k : γ} {position : κ} (hbeyond : Beyond lt after position)
    (hall : ∀ read ∈ reads, ∃ x, collection read.1 x ∧ key x = k)
    (hfixed : ∀ read ∈ reads, ∀ x, collection read.1 x → key x = k → pos x = position) :
    ((returned reads).map key).count k = 1 := by
  have hfilter : ((returned reads).filter (key · == k)).Pairwise fun a b => lt (pos a) (pos b) :=
    (h.sorted law).1.filter _
  have hsame : ∀ x ∈ (returned reads).filter (key · == k), pos x = position := by
    intro x hx
    obtain ⟨hmem, hkey⟩ := List.mem_filter.1 hx
    obtain ⟨read, hread, -, hcollection⟩ := h.sound law hmem
    exact hfixed read hread x hcollection (beq_iff_eq.1 hkey)
  obtain ⟨x, hx, hkey, -⟩ := h.returned_of_all law (P := fun x => key x = k ∧ pos x = position)
    (fun _ hP => hP.2) hbeyond fun read hread => by
      obtain ⟨x, hx, hkey⟩ := hall read hread
      exact ⟨x, hx, hkey, hfixed read hread x hx hkey⟩
  have hmem : x ∈ (returned reads).filter (key · == k) := List.mem_filter.2 ⟨hx, beq_iff_eq.2 hkey⟩
  rw [List.count, List.countP_map, List.countP_eq_length_filter]
  show ((returned reads).filter (key · == k)).length = 1
  generalize (returned reads).filter (key · == k) = found at hfilter hsame hmem ⊢
  match found with
  | [] => cases hmem
  | [_] => rfl
  | a :: b :: _ =>
    have hlt := (List.pairwise_cons.1 hfilter).1 b List.mem_cons_self
    rw [hsame a (by simp), hsame b (by simp)] at hlt
    exact absurd hlt (Std.Irrefl.irrefl _)

end

end

/-- What reading page by page guarantees, for collections that meet `Valid`. -/
structure ReadsOnce {γ : Type*} [DecidableEq γ] (lt : κ → κ → Prop) (pos : α → κ) (key : α → γ)
    (Read : σ → Option κ → List α → Option κ → Prop) (collection : σ → α → Prop) (Valid : σ → Prop)
    (start : Option κ) : Prop where
  /-- Without changes the pages hold the collection beyond the start, in order and each item once. -/
  whole : ∀ reads s, Paged Read start reads → (∀ read ∈ reads, read.1 = s) → Valid s →
    (returned reads).Pairwise (fun a b => lt (pos a) (pos b)) ∧
    ∀ x, x ∈ returned reads ↔ collection s x ∧ Beyond lt start (pos x)
  /-- With changes the items come in order, and what keeps its key and position comes once. -/
  lasting : ∀ reads, Paged Read start reads → (∀ read ∈ reads, Valid read.1) →
    (returned reads).Pairwise (fun a b => lt (pos a) (pos b)) ∧
    ∀ k position, Beyond lt start position →
      (∀ read ∈ reads, ∃ x, collection read.1 x ∧ key x = k ∧ pos x = position) →
      ((returned reads).map key).count k = 1

theorem readsOnce [IsTrans κ lt] [Std.Irrefl lt] {γ : Type*} [DecidableEq γ] {key : α → γ}
    {Valid : σ → Prop}
    (law : ∀ s, Valid s → ∀ after page resume, Read s after page resume →
      IsPage lt pos (collection s) after page resume)
    (hkey : ∀ s, Valid s → ∀ x y, collection s x → collection s y → key x = key y → pos x = pos y)
    (start : Option κ) : ReadsOnce lt pos key Read collection Valid start where
  whole reads s hpaged hsame hvalid := by
    have hlaw := fun read hread => law read.1 (hsame read hread ▸ hvalid)
    exact ⟨(hpaged.sorted hlaw).1, fun x => hpaged.mem_iff hlaw hsame⟩
  lasting reads hpaged hvalid := by
    have hlaw := fun read hread => law read.1 (hvalid read hread)
    refine ⟨(hpaged.sorted hlaw).1, fun k position hbeyond hall => ?_⟩
    refine hpaged.count_eq_one hlaw hbeyond (fun read hread => ?_) fun read hread x hx hk => ?_
    · obtain ⟨x, hx, hk, -⟩ := hall read hread
      exact ⟨x, hx, hk⟩
    · obtain ⟨y, hy, hky, rfl⟩ := hall read hread
      exact hkey read.1 (hvalid read hread) x y hx hy (hk.trans hky.symm)

/-- **The reader of an unchanging collection comes to an end**: each page takes something from what
lies beyond its position. -/
theorem exists_paged [IsTrans κ lt] [Std.Irrefl lt] {s : σ} (Ready : Option κ → Prop)
    (finite : {x | collection s x}.Finite)
    (reads : ∀ after, Ready after → ∃ page resume, Read s after page resume ∧
      IsPage lt pos (collection s) after page resume ∧ ∀ cursor ∈ resume, Ready (some cursor))
    (ready : Ready after) :
    ∃ chain, Paged Read after chain ∧ ∀ read ∈ chain, read.1 = s := by
  classical
  -- by strong induction on the number of items beyond the position
  have hfinite : ∀ after, {x | collection s x ∧ Beyond lt after (pos x)}.Finite := fun after =>
    finite.subset fun _ hx => hx.1
  induction hn : {x | collection s x ∧ Beyond lt after (pos x)}.ncard using Nat.strong_induction_on
    generalizing after with
  | _ n ih =>
    obtain ⟨page, resume, hread, hpage, hready⟩ := reads after ready
    cases resume with
    | none =>
      refine ⟨_, .last hread, ?_⟩
      simp
    | some cursor =>
      obtain ⟨y, hy, rfl⟩ := hpage.last cursor rfl
      obtain ⟨hys, hybeyond⟩ := hpage.sound y (List.mem_of_getLast? hy)
      have hfewer : {x | collection s x ∧ Beyond lt (some (pos y)) (pos x)} ⊂
          {x | collection s x ∧ Beyond lt after (pos x)} := by
        refine (Set.ssubset_iff_of_subset ?_).2 ⟨y, ⟨hys, hybeyond⟩, ?_⟩
        · rintro x ⟨hx, hbeyond⟩
          exact ⟨hx, fun c hc => IsTrans.trans _ _ _ (hybeyond c hc) (hbeyond _ rfl)⟩
        · rintro ⟨-, hself⟩
          exact Std.Irrefl.irrefl _ (hself _ rfl)
      obtain ⟨chain, hchain, hsame⟩ := ih _ (hn ▸ Set.ncard_lt_ncard hfewer (hfinite after))
        (hready _ rfl) rfl
      refine ⟨_, .next hread hchain, ?_⟩
      rintro read hmem
      rcases List.mem_cons.1 hmem with rfl | hmem
      · rfl
      · exact hsame read hmem

end Pages

end W9pt.Lib

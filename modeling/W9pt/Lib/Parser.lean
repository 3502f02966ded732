import W9pt.Lib.Codec
import W9pt.Lib.Fallible

/-!
# Reading byte strings

A parser takes what it needs off the front of a byte string or fails. For each there is a lemma that says
when it succeeds (`take_eq_ok`, `le_eq_ok`, …); they compose along `bind` (`parserBind_eq_ok`), so that
both directions of a format are put together from what its fields are read from.
-/

namespace W9pt.Lib

/-! ## UTF-8 -/

/-- `core::str::from_utf8(..).is_ok()`: the well-formed UTF-8 byte sequences. -/
def isUtf8 : Bytes → Bool
  | [] => true
  | a :: rest =>
    if a < 0x80 then isUtf8 rest
    else match rest with
      | [] => false
      | b :: rest =>
        if 0xc2 ≤ a && a ≤ 0xdf then 0x80 ≤ b && b ≤ 0xbf && isUtf8 rest
        else match rest with
          | [] => false
          | c :: rest =>
            if 0xe0 ≤ a && a ≤ 0xef then
              (if a == 0xe0 then 0xa0 ≤ b && b ≤ 0xbf
                else if a == 0xed then 0x80 ≤ b && b ≤ 0x9f
                else 0x80 ≤ b && b ≤ 0xbf) && 0x80 ≤ c && c ≤ 0xbf && isUtf8 rest
            else match rest with
              | [] => false
              | d :: rest =>
                0xf0 ≤ a && a ≤ 0xf4 &&
                (if a == 0xf0 then 0x90 ≤ b && b ≤ 0xbf
                  else if a == 0xf4 then 0x80 ≤ b && b ≤ 0x8f
                  else 0x80 ≤ b && b ≤ 0xbf) &&
                0x80 ≤ c && c ≤ 0xbf && 0x80 ≤ d && d ≤ 0xbf && isUtf8 rest

/-- A string of ASCII bytes after a well-formed string. -/
theorem isUtf8_append_ascii {a b : Bytes} (ha : isUtf8 a = true) (hb : ∀ x ∈ b, x < 0x80) :
    isUtf8 (a ++ b) = true := by
  fun_induction isUtf8 a with
  | case1 =>
    induction b with
    | nil => rfl
    | cons x b ih =>
      rw [List.nil_append, isUtf8.eq_def]
      simp only [hb x (by simp), if_true]
      exact ih fun y hy => hb y (by simp [hy])
  | case2 =>
    rw [List.cons_append, isUtf8.eq_def]
    simp_all
  | case3 => simp at ha
  | case4 =>
    rw [List.cons_append, List.cons_append, isUtf8.eq_def]
    simp_all
  | case5 => simp at ha
  | case6 =>
    rw [List.cons_append, List.cons_append, List.cons_append, isUtf8.eq_def]
    simp_all
  | case7 => simp at ha
  | case8 =>
    rw [List.cons_append, List.cons_append, List.cons_append, List.cons_append, isUtf8.eq_def]
    simp_all

/-! ## Parsers -/

variable {ε α β : Type}

/-- A parser that fails with `ε`. -/
abbrev Parser (ε : Type) := StateT Bytes (Except ε)

namespace Parser

def take (count : Nat) (short : ε) : Parser ε Bytes := fun s =>
  if count ≤ s.length then .ok (s.take count, s.drop count) else .error short

def le (width : Nat) (short : ε) : Parser ε Nat := do return leValue (← take width short)

def be (width : Nat) (short : ε) : Parser ε Nat := do return beValue (← take width short)

/-- A computation that reads nothing. -/
def lift (x : Except ε α) : Parser ε α := fun s =>
  match x with
  | .ok a => .ok (a, s)
  | .error e => .error e

def remaining : Parser ε Nat := fun s => .ok (s.length, s)

def finish (trailing : ε) : Parser ε Unit := fun s =>
  if s = [] then .ok ((), s) else .error trailing

/-- `count` times the same. -/
def many (p : Parser ε α) : Nat → Parser ε (List α)
  | 0 => pure []
  | count + 1 => do return (← p) :: (← many p count)

end Parser

/-- Where both parsers succeed they read the same: they differ in their checks only. -/
def Agree (p p' : Parser ε α) : Prop := ∀ s r r', p s = .ok r → p' s = .ok r' → r = r'

theorem Agree.refl (p : Parser ε α) : Agree p p := by
  intro s r r' h h'
  rw [h] at h'
  exact Except.ok.inj h'

theorem Agree.lift {x x' : Except ε Unit} : Agree (Parser.lift x) (Parser.lift x') := by
  intro s r r' h h'
  cases x <;> cases x' <;> cases h <;> cases h'
  rfl

variable {p : Parser ε α}

theorem Agree.bind {p' : Parser ε α} {f f' : α → Parser ε β} (hp : Agree p p')
    (hf : ∀ a, Agree (f a) (f' a)) : Agree (p >>= f) (p' >>= f') := by
  intro s r r' h h'
  obtain ⟨x, hx, hr⟩ := bind_eq_ok.1 (show (p s >>= fun x => f x.1 x.2) = .ok r from h)
  obtain ⟨x', hx', hr'⟩ := bind_eq_ok.1 (show (p' s >>= fun x => f' x.1 x.2) = .ok r' from h')
  cases hp s x x' hx hx'
  exact hf x.1 x.2 r r' hr hr'

/-! ## What a parser has read -/

variable {s : Bytes}

theorem parserBind_eq_ok {f : α → Parser ε β} {r : β × Bytes} :
    (p >>= f) s = .ok r ↔ ∃ a t, p s = .ok (a, t) ∧ f a t = .ok r := by
  show (p s >>= fun x => f x.1 x.2) = .ok r ↔ _
  rw [bind_eq_ok]
  exact Prod.exists

variable {t : Bytes}

theorem parserPure_eq_ok {a b : α} :
    (pure a : Parser ε α) s = .ok (b, t) ↔ a = b ∧ s = t := by
  show (.ok (a, s) : Except ε (α × Bytes)) = .ok (b, t) ↔ _
  rw [Except.ok.injEq, Prod.mk.injEq]

theorem parserLift_eq_ok {x : Except ε α} {a : α} :
    Parser.lift x s = .ok (a, t) ↔ x = .ok a ∧ s = t := by
  cases x with
  | ok b => simp [Parser.lift]
  | error e => simp [Parser.lift]

variable {short : ε} {rest : Bytes}

theorem take_eq_ok {count : Nat} {bytes : Bytes} :
    Parser.take count short s = .ok (bytes, rest) ↔ s = bytes ++ rest ∧ bytes.length = count := by
  unfold Parser.take
  constructor
  · intro h
    split at h
    · rename_i hlength
      cases h
      exact ⟨(List.take_append_drop count s).symm, by simpa using hlength⟩
    · cases h
  · rintro ⟨rfl, rfl⟩
    rw [if_pos (by simp), List.take_left, List.drop_left]

theorem le_eq_ok {width value : Nat} :
    Parser.le width short s = .ok (value, rest) ↔
      s = leBytes width value ++ rest ∧ value < 256 ^ width := by
  simp only [Parser.le, parserBind_eq_ok, take_eq_ok, parserPure_eq_ok]
  constructor
  · rintro ⟨bytes, _, ⟨rfl, rfl⟩, rfl, rfl⟩
    exact ⟨by rw [leBytes_leValue], leValue_lt bytes⟩
  · rintro ⟨rfl, hlt⟩
    exact ⟨_, _, ⟨rfl, length_leBytes width value⟩, leValue_leBytes hlt, rfl⟩

theorem be_eq_ok {width value : Nat} :
    Parser.be width short s = .ok (value, rest) ↔
      s = beBytes width value ++ rest ∧ value < 256 ^ width := by
  simp only [Parser.be, parserBind_eq_ok, take_eq_ok, parserPure_eq_ok]
  constructor
  · rintro ⟨bytes, _, ⟨rfl, rfl⟩, rfl, rfl⟩
    exact ⟨by rw [beBytes_beValue], beValue_lt bytes⟩
  · rintro ⟨rfl, hlt⟩
    exact ⟨_, _, ⟨rfl, length_beBytes width value⟩, beValue_beBytes hlt, rfl⟩

theorem remaining_eq_ok {n : Nat} :
    (Parser.remaining : Parser ε Nat) s = .ok (n, t) ↔ s.length = n ∧ s = t := by
  simp [Parser.remaining]

theorem finish_eq_ok {trailing : ε} {u : Unit} :
    Parser.finish trailing s = .ok (u, t) ↔ s = [] ∧ t = [] := by
  unfold Parser.finish
  split
  · rename_i h
    simp [h, eq_comm]
  · rename_i h
    simp [h]

/-- `p` takes the encoding of a value off its input if the value satisfies `P`, and nothing else. -/
def Codes (p : Parser ε α) (encode : α → Bytes) (P : α → Prop) : Prop :=
  ∀ s a rest, p s = .ok (a, rest) ↔ s = encode a ++ rest ∧ P a

theorem Codes.eq_ok {encode : α → Bytes} {P : α → Prop} (h : Codes p encode P) {a : α} :
    p s = .ok (a, rest) ↔ s = encode a ++ rest ∧ P a := h s a rest

theorem many_eq_ok {encode : α → Bytes} {P : α → Prop} (hp : Codes p encode P) {count : Nat}
    {l : List α} : Parser.many p count s = .ok (l, rest) ↔
      s = l.flatMap encode ++ rest ∧ l.length = count ∧ ∀ a ∈ l, P a := by
  induction count generalizing s l rest with
  | zero =>
    rw [Parser.many, parserPure_eq_ok]
    constructor
    · rintro ⟨rfl, rfl⟩
      simp
    · rintro ⟨rfl, hlength, -⟩
      simp [List.length_eq_zero_iff.1 hlength]
  | succ count ih =>
    simp only [Parser.many, parserBind_eq_ok, parserPure_eq_ok, hp.eq_ok, ih]
    constructor
    · rintro ⟨a, _, ⟨rfl, ha⟩, l, _, ⟨rfl, rfl, hl⟩, rfl, rfl⟩
      exact ⟨by simp, rfl, List.forall_mem_cons.2 ⟨ha, hl⟩⟩
    · rintro ⟨rfl, hlength, hl⟩
      obtain ⟨a, l, rfl⟩ := List.exists_cons_of_length_eq_add_one hlength
      obtain ⟨ha, hl⟩ := List.forall_mem_cons.1 hl
      exact ⟨a, _, ⟨by simp, ha⟩, l, rest, ⟨rfl, by simpa using hlength, hl⟩, rfl, rfl⟩

end W9pt.Lib

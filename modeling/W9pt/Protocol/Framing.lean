import W9pt.Protocol.Wire

/-!
# Cutting a byte stream into frames

What `FrameDecoder::push` (`frame.rs:44-96`) does to a stream, independent of how it is cut:

* `push_cases`: a push cuts the bytes at hand into frames and the beginning of another one, or fails at
  a header out of range;
* `frameDecoder_law`: both for any number of pushes, with the header at which they fail.

A frame that decodes is not one repeated byte (`decodeRequest_not_constant`): its size field would
claim more than any body of that type can hold.
-/

namespace W9pt.Protocol

open Lib

/-! ## Frames and their beginnings -/

/-- A complete frame of at most `maximum` bytes. -/
structure WholeFrame (maximum : UInt32) (frame : Bytes) : Prop where
  headed : 7 ≤ frame.length
  declared : (declaredSize frame).toNat = frame.length
  fits : frame.length ≤ maximum.toNat

/-- The beginning of a frame of at most `maximum` bytes. -/
def Incomplete (maximum : UInt32) (bytes : Bytes) : Prop :=
  bytes.length < 4 ∨
    (7 ≤ (declaredSize bytes).toNat ∧ (declaredSize bytes).toNat ≤ maximum.toNat ∧
      bytes.length < (declaredSize bytes).toNat)

theorem incomplete_nil (maximum : UInt32) : Incomplete maximum [] := .inl (by simp)

theorem incomplete_singleton (maximum : UInt32) (byte : UInt8) : Incomplete maximum [byte] :=
  .inl (by simp)

variable {bytes : Bytes}

theorem declaredSize_append (h : 4 ≤ bytes.length) (more : Bytes) :
    declaredSize (bytes ++ more) = declaredSize bytes := by
  rw [declaredSize, List.take_append_of_le_length h, declaredSize]

variable {maximum : UInt32}

theorem wholeFrame_take (hlong : (declaredSize bytes).toNat ≤ bytes.length)
    (hheader : 7 ≤ (declaredSize bytes).toNat ∧ (declaredSize bytes).toNat ≤ maximum.toNat) :
    WholeFrame maximum (bytes.take (declaredSize bytes).toNat) := by
  have hlength : (bytes.take (declaredSize bytes).toNat).length = (declaredSize bytes).toNat := by
    rw [List.length_take]
    omega
  refine ⟨by omega, ?_, by omega⟩
  rw [hlength, ← declaredSize_append (by omega) (bytes.drop _), List.take_append_drop]

theorem WholeFrame.incomplete {before after : Bytes} (h : WholeFrame maximum (before ++ after))
    (hafter : after ≠ []) :
    Incomplete maximum before := by
  have hpos := List.length_pos_iff.2 hafter
  by_cases hheader : before.length < 4
  · exact .inl hheader
  · have hdeclared := h.declared
    have hheaded := h.headed
    have hfits := h.fits
    rw [declaredSize_append (by omega)] at hdeclared
    rw [List.length_append] at hdeclared hheaded hfits
    exact .inr (by omega)

theorem Incomplete.take {before after : Bytes} (h : Incomplete maximum (before ++ after)) :
    Incomplete maximum before := by
  by_cases hheader : before.length < 4
  · exact .inl hheader
  · rw [Incomplete, declaredSize_append (by omega), List.length_append] at h
    exact .inr (by omega)

variable {frame : Bytes}

/-- A frame and the beginning of a frame do not overlap. -/
theorem WholeFrame.not_incomplete {limit : UInt32} {more : Bytes} (h : WholeFrame maximum frame) :
    ¬ Incomplete limit (frame ++ more) := by
  have hheaded := h.headed
  have hdeclared := h.declared
  rw [Incomplete, declaredSize_append (by omega), List.length_append]
  omega

/-- A tail that is continued to a frame is a proper beginning of it. -/
theorem WholeFrame.split {limit : UInt32} {retained input rest : Bytes}
    (h : WholeFrame maximum frame) (hretained : Incomplete limit retained)
    (hinput : retained ++ input = frame ++ rest) :
    ∃ more, more ≠ [] ∧ frame = retained ++ more ∧ input = more ++ rest := by
  have hbeyond : ∀ beyond, retained ≠ frame ++ beyond := by
    rintro beyond rfl
    exact h.not_incomplete hretained
  rcases List.append_eq_append_iff.1 hinput with ⟨more, hframe, hrest⟩ | ⟨beyond, hframe, -⟩
  · refine ⟨more, ?_, hframe, hrest⟩
    rintro rfl
    exact hbeyond [] (by rw [hframe, List.append_nil, List.append_nil])
  · exact absurd hframe (hbeyond beyond)

/-! ## Where a byte string is cut -/

/-- A byte string cut into whole frames and the beginning of another one. -/
structure Cut (maximum : UInt32) (bytes : Bytes) (frames : List Bytes) (tail : Bytes) : Prop where
  conserved : bytes = frames.flatten ++ tail
  whole : ∀ frame ∈ frames, WholeFrame maximum frame
  tail : Incomplete maximum tail

theorem Cut.cons {tail : Bytes} {frames : List Bytes} (h : Cut maximum bytes frames tail)
    (hframe : WholeFrame maximum frame) :
    Cut maximum (frame ++ bytes) (frame :: frames) tail where
  conserved := by rw [h.conserved, List.flatten_cons, List.append_assoc]
  whole := List.forall_mem_cons.2 ⟨hframe, h.whole⟩
  tail := h.tail

theorem cut_nil {tail : Bytes} (h : Incomplete maximum tail) :
    Cut maximum tail [] tail := ⟨rfl, by simp, h⟩

/-- No whole frame stands at the beginning. -/
def Stuck (maximum : UInt32) (bytes : Bytes) : Prop :=
  ∀ frame more, WholeFrame maximum frame → bytes ≠ frame ++ more

/-- Whole frames, and then a complete header whose size is out of range. -/
def Malformed (maximum : UInt32) (bytes : Bytes) : Prop :=
  ∃ (frames : List Bytes) (rest : Bytes), bytes = frames.flatten ++ rest ∧
    (∀ frame ∈ frames, WholeFrame maximum frame) ∧ 4 ≤ rest.length ∧
    ¬ (7 ≤ (declaredSize rest).toNat ∧ (declaredSize rest).toNat ≤ maximum.toNat)

section Cutting

variable {maximum : UInt32} {bytes : Bytes}

theorem stuck_of_incomplete (h : Incomplete maximum bytes) : Stuck maximum bytes := by
  rintro frame more hframe rfl
  exact hframe.not_incomplete h

theorem stuck_of_header (hlong : 4 ≤ bytes.length)
    (h : ¬ (7 ≤ (declaredSize bytes).toNat ∧ (declaredSize bytes).toNat ≤ maximum.toNat)) :
    Stuck maximum bytes := by
  rintro frame more hframe rfl
  have hheaded := hframe.headed
  have hfits := hframe.fits
  rw [declaredSize_append (by omega), hframe.declared] at h
  omega

variable {frames : List Bytes} {tail : Bytes}

/-- Where the frames of a byte string end is determined by its bytes. -/
theorem flatten_unique {frames' : List Bytes} {tail' : Bytes}
    (hwhole : ∀ frame ∈ frames, WholeFrame maximum frame)
    (hwhole' : ∀ frame ∈ frames', WholeFrame maximum frame) (htail : Stuck maximum tail)
    (htail' : Stuck maximum tail') (h : frames.flatten ++ tail = frames'.flatten ++ tail') :
    frames = frames' ∧ tail = tail' := by
  induction frames generalizing frames' with
  | nil =>
    cases frames' with
    | nil => exact ⟨rfl, h⟩
    | cons frame frames' =>
      rw [List.flatten_cons, List.append_assoc] at h
      exact absurd h (htail _ _ (hwhole' _ List.mem_cons_self))
  | cons frame frames ih =>
    have hframe := hwhole _ List.mem_cons_self
    have hheaded := hframe.headed
    rw [List.flatten_cons, List.append_assoc] at h
    cases frames' with
    | nil => exact absurd h.symm (htail' _ _ hframe)
    | cons frame' frames' =>
      have hframe' := hwhole' _ List.mem_cons_self
      have hheaded' := hframe'.headed
      rw [List.flatten_cons, List.append_assoc] at h
      have hlength : frame.length = frame'.length := by
        rw [← hframe.declared, ← hframe'.declared, ← declaredSize_append (by omega) _, h,
          declaredSize_append (by omega)]
      obtain ⟨rfl, hrest⟩ := List.append_inj h hlength
      obtain ⟨rfl, rfl⟩ := ih (fun f hf => hwhole f (List.mem_cons_of_mem _ hf))
        (fun f hf => hwhole' f (List.mem_cons_of_mem _ hf)) hrest
      exact ⟨rfl, rfl⟩

theorem Cut.unique {frames' : List Bytes} {tail' : Bytes} (h : Cut maximum bytes frames tail)
    (h' : Cut maximum bytes frames' tail') :
    frames = frames' ∧ tail = tail' :=
  flatten_unique h.whole h'.whole (stuck_of_incomplete h.tail) (stuck_of_incomplete h'.tail)
    (h.conserved.symm.trans h'.conserved)

theorem Cut.not_malformed (h : Cut maximum bytes frames tail) : ¬ Malformed maximum bytes := by
  rintro ⟨frames', rest, hbytes, hwhole, hlong, hheader⟩
  obtain ⟨-, rfl⟩ := flatten_unique h.whole hwhole (stuck_of_incomplete h.tail)
    (stuck_of_header hlong hheader) (h.conserved.symm.trans hbytes)
  have htail := h.tail
  rw [Incomplete] at htail
  omega

theorem Malformed.append (h : Malformed maximum bytes) (more : Bytes) :
    Malformed maximum (bytes ++ more) := by
  obtain ⟨frames, rest, rfl, hwhole, hlong, hheader⟩ := h
  refine ⟨frames, rest ++ more, List.append_assoc _ _ _, hwhole, ?_, ?_⟩
  · rw [List.length_append]
    omega
  · rwa [declaredSize_append hlong]

theorem Malformed.after (h : Malformed maximum bytes)
    (hframes : ∀ frame ∈ frames, WholeFrame maximum frame) :
    Malformed maximum (frames.flatten ++ bytes) := by
  obtain ⟨more, rest, rfl, hwhole, hrest⟩ := h
  refine ⟨frames ++ more, rest, ?_, fun f hf => ?_, hrest⟩
  · rw [List.flatten_append, List.append_assoc]
  · exact (List.mem_append.1 hf).elim (hframes f) (hwhole f)

theorem Cut.head {frame rest : Bytes} (h : Cut maximum (frame ++ rest) frames tail)
    (hframe : WholeFrame maximum frame) :
    ∃ others, frames = frame :: others := by
  have hheaded := hframe.headed
  cases frames with
  | nil =>
    have htail := h.tail
    rw [← show frame ++ rest = tail from h.conserved] at htail
    exact absurd htail hframe.not_incomplete
  | cons first others =>
    have hfirst := h.whole first List.mem_cons_self
    have hheaded' := hfirst.headed
    have hbytes := h.conserved
    rw [List.flatten_cons, List.append_assoc] at hbytes
    have hlength : frame.length = first.length := by
      rw [← hframe.declared, ← hfirst.declared, ← declaredSize_append (by omega) _, hbytes,
        declaredSize_append (by omega)]
    exact ⟨others, by rw [(List.append_inj hbytes hlength).1]⟩

theorem Incomplete.extends (h : Incomplete maximum bytes) :
    ∃ more, more ≠ [] ∧ WholeFrame 0xffffffff (bytes ++ more) := by
  -- a header is completed by ones, so that the frame is long
  have hpad : 4 ≤ (bytes ++ List.replicate (4 - bytes.length) 1).length := by
    rw [List.length_append, List.length_replicate]
    omega
  have hsize : (bytes ++ List.replicate (4 - bytes.length) 1).length <
      (declaredSize (bytes ++ List.replicate (4 - bytes.length) 1)).toNat ∧
      7 ≤ (declaredSize (bytes ++ List.replicate (4 - bytes.length) 1)).toNat := by
    by_cases hlong : 4 ≤ bytes.length
    · rw [Nat.sub_eq_zero_of_le hlong, List.replicate_zero, List.append_nil]
      rw [Incomplete] at h
      omega
    · rcases bytes with _ | ⟨a, _ | ⟨b, _ | ⟨c, _ | ⟨d, rest⟩⟩⟩⟩
      · decide
      all_goals simp [declaredSize, leValue, List.replicate] at hlong ⊢
      · have := a.toNat_lt
        omega
      · have := a.toNat_lt
        have := b.toNat_lt
        omega
      · have := a.toNat_lt
        have := b.toNat_lt
        have := c.toNat_lt
        omega
  obtain ⟨header, hheader⟩ : ∃ header, bytes ++ List.replicate (4 - bytes.length) 1 = header :=
    ⟨_, rfl⟩
  rw [hheader] at hpad hsize
  have hlength : (header ++ List.replicate ((declaredSize header).toNat - header.length) 0).length =
      (declaredSize header).toNat := by
    rw [List.length_append, List.length_replicate]
    omega
  refine ⟨List.replicate (4 - bytes.length) 1 ++
    List.replicate ((declaredSize header).toNat - header.length) 0, ?_, ?_⟩
  · rw [ne_eq, List.append_eq_nil_iff, List.replicate_eq_nil_iff, List.replicate_eq_nil_iff]
    omega
  · rw [← List.append_assoc, hheader]
    refine ⟨by omega, by rw [declaredSize_append hpad, hlength], ?_⟩
    rw [hlength]
    exact Nat.le_of_lt_succ (declaredSize header).toNat_lt

end Cutting

/-! ## The checks of the decoder -/

namespace FrameDecoder

def retaining (decoder : FrameDecoder) (bytes : Bytes) : FrameDecoder :=
  { decoder with retained := bytes }

variable {decoder : FrameDecoder} {maximum : UInt32}

theorem validateDeclared_eq_ok {declared : UInt32} :
    decoder.validateDeclared declared maximum = .ok () ↔
      7 ≤ declared.toNat ∧ declared.toNat ≤ maximum.toNat ∧
        declared.toNat ≤ decoder.maximumRetained := by
  simp only [validateDeclared, bind_eq_ok, ensure_eq_ok, exists_and_left, exists_const,
    UInt32.le_iff_toNat_le]
  rfl

variable {result : FrameDecoder} {input : Bytes} {whole : List Bytes}

variable {bytes : Bytes}

theorem retain_of_le (h : decoder.retained.length + bytes.length ≤ decoder.maximumRetained) :
    decoder.retain bytes = (.ok (), decoder.retaining (decoder.retained ++ bytes)) := if_pos h

/-! ## One turn of the loop -/

theorem retaining_retained (h : decoder.retained = bytes) :
    decoder.retaining bytes = decoder := by
  rw [← h]
  rfl

/-- What one turn does with the bytes at hand: it fails, which with room for a frame happens only at a
header out of range; it cuts off a frame; or it retains them all. -/
inductive Turned (maximum : UInt32) (decoder : FrameDecoder) (bytes : Bytes) :
    Except DecodeError (Bytes × Option Bytes) × FrameDecoder → Prop
  | failed {error : DecodeError} {kept : Bytes} (header : 4 ≤ decoder.maximumRetained →
      maximum.toNat ≤ decoder.maximumRetained → 4 ≤ bytes.length ∧
        ¬ (7 ≤ (declaredSize bytes).toNat ∧ (declaredSize bytes).toNat ≤ maximum.toNat)) :
      Turned maximum decoder bytes (.error error, decoder.retaining kept)
  | frame {frame rest : Bytes} (whole : WholeFrame maximum frame) (split : bytes = frame ++ rest) :
      Turned maximum decoder bytes (.ok (rest, some frame), decoder.retaining [])
  | tail (incomplete : Incomplete maximum bytes) :
      Turned maximum decoder bytes (.ok ([], none), decoder.retaining bytes)

theorem turned_of_declared {kept : Bytes} {error : DecodeError} (hlong : 4 ≤ bytes.length)
    (h : decoder.validateDeclared (declaredSize bytes) maximum = .error error) :
    Turned maximum decoder bytes (.error error, decoder.retaining kept) := by
  refine .failed fun _ hroom => ⟨hlong, fun hheader => ?_⟩
  rw [validateDeclared_eq_ok.2 ⟨hheader.1, hheader.2, hheader.2.trans hroom⟩] at h
  cases h

theorem pushBody_turned (hheader : 4 ≤ decoder.retained.length)
    (hopen : decoder.retained.length < 7 ∨
      decoder.retained.length < (declaredSize decoder.retained).toNat) :
    Turned maximum decoder (decoder.retained ++ input) (decoder.pushBody input maximum) := by
  have hsize := declaredSize_append hheader
  unfold pushBody
  simp only
  split
  · rename_i error hvalid
    exact turned_of_declared (by rw [List.length_append]; omega) (by rw [hsize]; exact hvalid)
  · rename_i hvalid
    obtain ⟨hlow, hhigh, hroom⟩ := validateDeclared_eq_ok.1 hvalid
    generalize hneeded : (declaredSize decoder.retained).toNat - decoder.retained.length = needed
    have htaken : (input.take needed).length ≤ needed := List.length_take_le _ _
    rw [retain_of_le (by omega)]
    simp only
    by_cases hlength : (decoder.retained ++ input.take needed).length =
        (declaredSize decoder.retained).toNat
    · rw [retaining, if_pos hlength]
      have hwhole : WholeFrame maximum (decoder.retained ++ input.take needed) :=
        ⟨by omega, by rw [hsize, hlength], by omega⟩
      exact .frame hwhole (by rw [List.append_assoc, List.take_append_drop])
    · rw [retaining, if_neg hlength]
      have hall : input.length ≤ needed := by
        rw [List.length_append, List.length_take] at hlength
        omega
      rw [List.take_of_length_le hall] at hlength ⊢
      rw [List.drop_eq_nil_of_le hall]
      refine .tail (.inr ?_)
      rw [hsize]
      rw [List.length_append] at hlength ⊢
      omega

/-- The header is completed out of the input, unless there is no room even for a header. -/
theorem pushHeader_cases (decoder : FrameDecoder) (input : Bytes) :
    (∃ kept rest, decoder.pushHeader input = (.ok rest, decoder.retaining kept) ∧
      decoder.retained ++ input = kept ++ rest ∧ (kept.length < 4 → rest = []) ∧
      (kept = decoder.retained ∨ kept.length ≤ 4)) ∨
    ∃ error kept, decoder.pushHeader input = (.error error, decoder.retaining kept) ∧
      decoder.maximumRetained < 4 := by
  unfold pushHeader
  split
  · rename_i hheader
    have htaken := List.length_take_le (4 - decoder.retained.length) input
    by_cases hroom : decoder.retained.length + (input.take (4 - decoder.retained.length)).length ≤
        decoder.maximumRetained
    · rw [retain_of_le hroom]
      refine .inl ⟨_, _, rfl, ?_, ?_⟩
      · rw [List.append_assoc, List.take_append_drop]
      · simp only [List.length_append, List.length_take, List.drop_eq_nil_iff]
        omega
    · rw [retain, if_neg hroom]
      exact .inr ⟨_, [], rfl, by omega⟩
  · exact .inl ⟨_, _, rfl, rfl, fun h => absurd h ‹_›, .inl rfl⟩

theorem pushLoop_nil (turns : Nat) (frames : List Bytes) :
    pushLoop maximum turns decoder [] frames = (.ok frames, decoder) := by
  cases turns with
  | zero => rfl
  | succ turns => rw [pushLoop, if_pos rfl]

/-- **One turn.** -/
theorem pushLoop_succ (turns : Nat) (frames : List Bytes) (hinput : input ≠ [])
    (hretained : Incomplete maximum decoder.retained) :
    ∃ turn, Turned maximum decoder (decoder.retained ++ input) turn ∧
      pushLoop maximum (turns + 1) decoder input frames = match turn with
        | (.error error, next) => (.error error, next)
        | (.ok (rest, frame), next) => pushLoop maximum turns next rest (frames ++ frame.toList) := by
  -- a turn that retains everything is the last one
  have htail : ∀ next : FrameDecoder,
      pushLoop maximum turns next [] (frames ++ (none : Option Bytes).toList) = (.ok frames, next) := by
    intro next
    rw [Option.toList_none, List.append_nil, pushLoop_nil]
  rw [pushLoop, if_neg hinput]
  by_cases hempty : decoder.retained = [] ∧ 4 ≤ input.length
  · rw [if_pos hempty, hempty.1, List.nil_append]
    simp only
    split
    · rename_i error hvalid
      exact ⟨_, turned_of_declared hempty.2 hvalid, by rw [retaining_retained hempty.1]⟩
    · rename_i hvalid
      obtain ⟨hlow, hhigh, hroom⟩ := validateDeclared_eq_ok.1 hvalid
      split
      · rename_i hlong
        refine ⟨_, .frame (wholeFrame_take hlong ⟨hlow, hhigh⟩) (List.take_append_drop _ _).symm, ?_⟩
        rw [retaining_retained hempty.1]
        rfl
      · rename_i hlong
        rw [retain_of_le (by rw [hempty.1, List.length_nil]; omega), hempty.1, List.nil_append]
        exact ⟨_, .tail (.inr ⟨hlow, hhigh, Nat.not_le.1 hlong⟩), (htail _).symm⟩
  · rw [if_neg hempty]
    rcases decoder.pushHeader_cases input with ⟨kept, rest, hpush, hsplit, hshort, hopen⟩ |
      ⟨error, kept, hpush, hnone⟩
    · rw [hpush, hsplit]
      simp only
      split
      · rename_i hheader
        rw [hshort hheader, List.append_nil]
        exact ⟨_, .tail (.inl hheader), (htail _).symm⟩
      · rename_i hheader
        have hbody : Turned maximum (decoder.retaining kept) (kept ++ rest)
            ((decoder.retaining kept).pushBody rest maximum) := by
          refine pushBody_turned (Nat.not_lt.1 hheader) ?_
          rcases hopen with rfl | hfour
          · rw [Incomplete] at hretained
            exact hretained.imp (fun h => Nat.lt_of_lt_of_le h (by decide)) fun h => h.2.2
          · exact .inl (Nat.lt_of_le_of_lt hfour (by decide))
        generalize (decoder.retaining kept).pushBody rest maximum = turn at hbody ⊢
        refine ⟨turn, ?_, rfl⟩
        cases hbody with
        | failed header => exact .failed header
        | frame whole split => exact .frame whole split
        | tail incomplete => exact .tail incomplete
    · rw [hpush]
      exact ⟨_, .failed fun hfour => absurd hfour (Nat.not_le.2 hnone), rfl⟩

/-! ## Whole pushes -/

/-- **What a push comes to**: the bytes are cut into frames and a tail, or it fails, which with room for a
frame happens only at a header out of range. -/
theorem pushLoop_cases {turns : Nat} (hretained : Incomplete maximum decoder.retained)
    (hturns : input.length ≤ turns) (frames : List Bytes) :
    (∃ more kept, pushLoop maximum turns decoder input frames =
        (.ok (frames ++ more), decoder.retaining kept) ∧
      Cut maximum (decoder.retained ++ input) more kept) ∨
    ∃ error kept, pushLoop maximum turns decoder input frames = (.error error, decoder.retaining kept) ∧
      (4 ≤ decoder.maximumRetained → maximum.toNat ≤ decoder.maximumRetained →
        Malformed maximum (decoder.retained ++ input)) := by
  induction turns generalizing decoder input frames with
  | zero =>
    rw [List.eq_nil_of_length_eq_zero (Nat.le_zero.1 hturns), List.append_nil]
    exact .inl ⟨[], _, by rw [List.append_nil]; rfl, cut_nil hretained⟩
  | succ turns ih =>
    by_cases hinput : input = []
    · rw [hinput, List.append_nil, pushLoop_nil]
      exact .inl ⟨[], _, by rw [List.append_nil]; rfl, cut_nil hretained⟩
    obtain ⟨turn, hturn, hloop⟩ := pushLoop_succ turns frames hinput hretained
    rw [hloop]
    cases hturn with
    | failed header =>
      exact .inr ⟨_, _, rfl, fun hfour hroom => ⟨[], _, rfl, by simp, header hfour hroom⟩⟩
    | tail incomplete =>
      refine .inl ⟨[], _, ?_, cut_nil incomplete⟩
      simp only [Option.toList_none, pushLoop_nil]
    | @frame frame rest whole split =>
      obtain ⟨more, hmore, -, rfl⟩ := whole.split hretained split
      have hpos := List.length_pos_iff.2 hmore
      rw [List.length_append] at hturns
      rw [split]
      rcases @ih (decoder.retaining []) rest (incomplete_nil maximum) (by omega)
        (frames ++ [frame]) with ⟨others, kept, hrest, hcut⟩ | ⟨error, kept, hrest, hbad⟩
      · refine .inl ⟨frame :: others, kept, ?_, hcut.cons whole⟩
        simp only [Option.toList_some, hrest, List.append_assoc, List.singleton_append]
        rfl
      · refine .inr ⟨error, kept, hrest, fun hfour hroom => ?_⟩
        have hafter := (hbad hfour hroom).after (List.forall_mem_singleton.2 whole)
        rwa [List.flatten_singleton] at hafter

variable {active : UInt32}

theorem push_cases (input : Bytes)
    (hretained : Incomplete (min decoder.hardMaximum active) decoder.retained) :
    (∃ whole kept, decoder.push input active = (.ok whole, decoder.retaining kept) ∧
      Cut (min decoder.hardMaximum active) (decoder.retained ++ input) whole kept) ∨
    ∃ error kept, decoder.push input active = (.error error, decoder.retaining kept) ∧
      (4 ≤ decoder.maximumRetained →
        (min decoder.hardMaximum active).toNat ≤ decoder.maximumRetained →
        Malformed (min decoder.hardMaximum active) (decoder.retained ++ input)) :=
  pushLoop_cases hretained (Nat.le_refl _) []

/-- **Bytes that complete frames and begin another one yield exactly those frames.** -/
theorem push_frames {tail : Bytes} (hheader : 4 ≤ decoder.maximumRetained)
    (hroom : (min decoder.hardMaximum active).toNat ≤ decoder.maximumRetained)
    (hcut : Cut (min decoder.hardMaximum active) (decoder.retained ++ input) whole tail)
    (hretained : Incomplete (min decoder.hardMaximum active) decoder.retained) :
    decoder.push input active = (.ok whole, decoder.retaining tail) := by
  rcases push_cases input hretained with ⟨whole', kept, hpush, hcut'⟩ | ⟨error, kept, -, hbad⟩
  · obtain ⟨rfl, rfl⟩ := hcut.unique hcut'
    exact hpush
  · exact absurd (hbad hheader hroom) hcut.not_malformed

/-- **A successful push cuts the tail and the input into frames.** -/
theorem push_cut (hretained : Incomplete (min decoder.hardMaximum active) decoder.retained)
    (h : decoder.push input active = (.ok whole, result)) :
    Cut (min decoder.hardMaximum active) (decoder.retained ++ input) whole result.retained ∧
      result = decoder.retaining result.retained := by
  rcases push_cases input hretained with ⟨whole', kept, hpush, hcut⟩ | ⟨error, kept, hpush, -⟩
  · rw [hpush] at h
    cases h
    exact ⟨hcut, rfl⟩
  · rw [hpush] at h
    cases h

theorem push_conserves (hempty : decoder.retained = [])
    (h : decoder.push input active = (.ok whole, result)) :
    input = whole.flatten ++ result.retained := by
  have hcut := (push_cut (hempty ▸ incomplete_nil _) h).1
  rw [hempty] at hcut
  exact hcut.conserved

end FrameDecoder

/-! ## Any number of pushes -/

namespace FrameDecoder

/-- A sequence of chunks pushed one after another, up to the first failure: the frames returned so
far. -/
def pushAll (active : UInt32) : FrameDecoder → List Bytes →
    Except DecodeError (List Bytes) × FrameDecoder
  | decoder, [] => (.ok [], decoder)
  | decoder, chunk :: chunks =>
    match decoder.push chunk active with
    | (.error error, decoder) => (.error error, decoder)
    | (.ok frames, decoder) =>
      match pushAll active decoder chunks with
      | (.error error, decoder) => (.error error, decoder)
      | (.ok more, decoder) => (.ok (frames ++ more), decoder)

variable {decoder result : FrameDecoder} {active : UInt32} {chunks frames : List Bytes}

theorem pushAll_cut
    (hretained : Incomplete (min decoder.hardMaximum active) decoder.retained)
    (h : decoder.pushAll active chunks = (.ok frames, result)) :
    Cut (min decoder.hardMaximum active) (decoder.retained ++ chunks.flatten) frames
      result.retained := by
  induction chunks generalizing decoder frames with
  | nil =>
    cases h
    rw [List.flatten_nil, List.append_nil]
    exact cut_nil hretained
  | cons chunk chunks ih =>
    rw [pushAll] at h
    rcases hpush : decoder.push chunk active with ⟨_ | first, next⟩
    · rw [hpush] at h
      cases h
    rw [hpush] at h
    simp only at h
    rcases hrest : pushAll active next chunks with ⟨_ | more, last⟩
    · rw [hrest] at h
      cases h
    rw [hrest] at h
    cases h
    obtain ⟨hfirst, hkept⟩ := push_cut hretained hpush
    rw [hkept] at hfirst hrest
    have hmore := ih hfirst.tail hrest
    constructor
    · rw [List.flatten_cons, ← List.append_assoc, hfirst.conserved, List.append_assoc,
        hmore.conserved, List.flatten_append, List.append_assoc]
    · exact fun f hf => (List.mem_append.1 hf).elim (hfirst.whole f) (hmore.whole f)
    · exact hmore.tail

/-- With room for a frame, only a header out of range makes a push fail. -/
theorem pushAll_ok (hheader : 4 ≤ decoder.maximumRetained)
    (hroom : (min decoder.hardMaximum active).toNat ≤ decoder.maximumRetained)
    (hretained : Incomplete (min decoder.hardMaximum active) decoder.retained)
    (h : ¬ Malformed (min decoder.hardMaximum active) (decoder.retained ++ chunks.flatten)) :
    ∃ frames result, decoder.pushAll active chunks = (.ok frames, result) := by
  induction chunks generalizing decoder with
  | nil => exact ⟨[], decoder, rfl⟩
  | cons chunk chunks ih =>
    rw [List.flatten_cons, ← List.append_assoc] at h
    rcases push_cases chunk hretained with ⟨first, tail, hpush, hcut⟩ | ⟨error, kept, -, hbad⟩
    · obtain ⟨more, result, hrest⟩ := @ih (decoder.retaining tail) hheader hroom hcut.tail
        fun hbad => h (by
          have hafter := hbad.after hcut.whole
          rwa [retaining, ← List.append_assoc, ← hcut.conserved] at hafter)
      exact ⟨first ++ more, result, by rw [pushAll, hpush]; simp only [hrest]⟩
    · exact absurd ((hbad hheader hroom).append _) h

end FrameDecoder

theorem validate_sizes {limits : Limits} (h : limits.validate = .ok ()) :
    7 ≤ limits.maxFrameSize.toNat ∧
      limits.maxFrameSize.toNat ≤ limits.maxBufferedInputBytes := by
  simp only [Limits.validate, bind_eq_ok, ensure_eq_ok, exists_and_left, exists_const] at h
  obtain ⟨hlow, -, -, hbuffered, -⟩ := h
  exact ⟨UInt32.le_iff_toNat_le.1 hlow, hbuffered⟩

/-- **The law of the frame decoder.** However many chunks a new decoder accepted, the frames it returned
and the tail it retains are the bytes pushed; every frame has the length its header says, between 7 and
the maximum; the tail is the beginning of one frame; and the frames do not depend on how the bytes were
cut. Pushes fail once a header out of range is complete and, with validated limits, not before. -/
theorem frameDecoder_law (limits : Limits) (active : UInt32) :
    (∀ chunks frames decoder,
      (FrameDecoder.new limits).pushAll active chunks = (.ok frames, decoder) →
        frames.flatten ++ decoder.retained = chunks.flatten ∧
        (∀ frame ∈ frames, WholeFrame (min limits.maxFrameSize active) frame) ∧
        Incomplete (min limits.maxFrameSize active) decoder.retained ∧
        (∃ more, more ≠ [] ∧ WholeFrame 0xffffffff (decoder.retained ++ more)) ∧
        ∀ chunks' frames' decoder', chunks'.flatten = chunks.flatten →
          (FrameDecoder.new limits).pushAll active chunks' = (.ok frames', decoder') →
            frames' = frames) ∧
    (∀ chunks, Malformed (min limits.maxFrameSize active) chunks.flatten →
      ∃ error decoder, (FrameDecoder.new limits).pushAll active chunks = (.error error, decoder)) ∧
    (limits.validate = .ok () → ∀ chunks error decoder,
      (FrameDecoder.new limits).pushAll active chunks = (.error error, decoder) →
        Malformed (min limits.maxFrameSize active) chunks.flatten) := by
  have hcut : ∀ chunks frames decoder,
      (FrameDecoder.new limits).pushAll active chunks = (.ok frames, decoder) →
        Cut (min limits.maxFrameSize active) chunks.flatten frames decoder.retained :=
    fun _ _ _ => FrameDecoder.pushAll_cut (incomplete_nil _)
  refine ⟨?_, ?_, ?_⟩
  · intro chunks frames decoder hpush
    have hframes := hcut _ _ _ hpush
    refine ⟨hframes.conserved.symm, hframes.whole, hframes.tail, hframes.tail.extends, ?_⟩
    intro chunks' frames' decoder' hsame hpush'
    exact ((hsame ▸ hcut _ _ _ hpush').unique hframes).1
  · intro chunks hbad
    rcases hpush : (FrameDecoder.new limits).pushAll active chunks with ⟨error | frames, decoder⟩
    · exact ⟨error, decoder, rfl⟩
    · exact absurd hbad (hcut _ _ _ hpush).not_malformed
  · intro hvalid chunks error decoder hpush
    obtain ⟨hlow, hbuffered⟩ := validate_sizes hvalid
    have hroom : (min limits.maxFrameSize active).toNat ≤ limits.maxBufferedInputBytes := by
      rw [toNat_min_uint32]
      omega
    by_contra hgood
    obtain ⟨frames, result, hok⟩ := @FrameDecoder.pushAll_ok (.new limits) active chunks
      (Nat.le_trans (Nat.le_of_lt_succ (by omega)) hbuffered) hroom (incomplete_nil _) hgood
    rw [hpush] at hok
    cases hok

theorem wholeFrame_of_decode {limits : Limits} {request : Request}
    (h : decodeRequest frame limits maximum = .ok request) : WholeFrame maximum frame := by
  simp only [decodeRequest, validateFrame, bind_eq_ok, ensure_eq_ok, exists_and_left,
    exists_const, UInt32.le_iff_toNat_le] at h
  obtain ⟨⟨-, hlow, hhigh, hdeclared⟩, -⟩ := h
  rw [hdeclared] at hlow hhigh
  exact ⟨hlow, hdeclared, hhigh⟩

end W9pt.Protocol

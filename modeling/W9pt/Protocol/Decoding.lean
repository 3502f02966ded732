import W9pt.Protocol.Framing

/-!
# Requests have one encoding each

`requestFrame` writes a request the way `decode_request` reads it. A frame that is accepted is the frame
of the request it decodes to (`decodeRequest_eq_ok`), so that two frames never decode to the same
request, and what it carries respects the limits (`RequestBody.Admissible`).

`Takes r Q` says what a read takes off the front of its input; it composes along `bind`, one step a field.
-/

namespace W9pt.Protocol

open Lib

/-! ## Canonical frames -/

/-- message.rs:156. -/
def RequestBody.messageType : RequestBody → MessageType
  | version .. => .tversion
  | auth .. => .tauth
  | attach .. => .tattach
  | flush .. => .tflush
  | walk .. => .twalk
  | clunk .. => .tclunk
  | lopen .. => .tlopen
  | lcreate .. => .tlcreate
  | mkdir .. => .tmkdir
  | mknod .. => .tmknod
  | symlink .. => .tsymlink
  | read .. => .tread
  | write .. => .twrite
  | readdir .. => .treaddir
  | fsync .. => .tfsync
  | statfs .. => .tstatfs
  | getattr .. => .tgetattr
  | setattr .. => .tsetattr
  | readlink .. => .treadlink
  | rename .. => .trename
  | renameAt .. => .trenameat
  | remove .. => .tremove
  | unlinkAt .. => .tunlinkat
  | link .. => .tlink
  | xattrWalk .. => .txattrwalk
  | xattrCreate .. => .txattrcreate
  | lock .. => .tlock
  | getlock .. => .tgetlock

def stringBytes (value : Bytes) : Bytes := leBytes 2 value.length ++ value

def wordBytes (value : UInt32) : Bytes := leBytes 4 value.toNat

def longBytes (value : UInt64) : Bytes := leBytes 8 value.toNat

def lockBytes (lock : Lock) : Bytes :=
  longBytes lock.start ++ (longBytes lock.length ++ (wordBytes lock.processId ++
    stringBytes lock.clientId))

def RequestBody.toBytes : RequestBody → Bytes
  | version msize dialect => wordBytes msize ++ stringBytes dialect
  | auth afid uname aname nUname =>
    wordBytes afid ++ (stringBytes uname ++ (stringBytes aname ++ wordBytes nUname))
  | attach fid afid uname aname nUname =>
    wordBytes fid ++ (wordBytes afid ++ (stringBytes uname ++ (stringBytes aname ++ wordBytes nUname)))
  | flush oldTag => leBytes 2 oldTag.toNat
  | walk fid newFid names =>
    wordBytes fid ++ (wordBytes newFid ++ (leBytes 2 names.length ++ names.flatMap stringBytes))
  | clunk fid => wordBytes fid
  | lopen fid flags => wordBytes fid ++ wordBytes flags.bits
  | lcreate fid name flags mode gid =>
    wordBytes fid ++ (stringBytes name ++ (wordBytes flags.bits ++ (wordBytes mode ++ wordBytes gid)))
  | mkdir directory name mode gid =>
    wordBytes directory ++ (stringBytes name ++ (wordBytes mode ++ wordBytes gid))
  | mknod directory name mode major minor gid =>
    wordBytes directory ++ (stringBytes name ++ (wordBytes mode ++ (wordBytes major ++
      (wordBytes minor ++ wordBytes gid))))
  | symlink directory name target gid =>
    wordBytes directory ++ (stringBytes name ++ (stringBytes target ++ wordBytes gid))
  | read fid offset count => wordBytes fid ++ (longBytes offset ++ wordBytes count)
  | write fid offset data =>
    wordBytes fid ++ (longBytes offset ++ (leBytes 4 data.length ++ data))
  | readdir fid offset count => wordBytes fid ++ (longBytes offset ++ wordBytes count)
  | fsync fid dataOnly => wordBytes fid ++ wordBytes (if dataOnly then 1 else 0)
  | statfs fid => wordBytes fid
  | getattr fid mask => wordBytes fid ++ longBytes mask.bits
  | setattr fid a =>
    wordBytes fid ++ (wordBytes a.valid.bits ++ (wordBytes a.mode ++ (wordBytes a.uid ++
      (wordBytes a.gid ++ (longBytes a.size ++ (longBytes a.accessed.seconds ++
        (longBytes a.accessed.nanoseconds ++ (longBytes a.modified.seconds ++
          longBytes a.modified.nanoseconds))))))))
  | readlink fid => wordBytes fid
  | rename fid directory name => wordBytes fid ++ (wordBytes directory ++ stringBytes name)
  | renameAt oldDirectory oldName newDirectory newName =>
    wordBytes oldDirectory ++ (stringBytes oldName ++ (wordBytes newDirectory ++ stringBytes newName))
  | remove fid => wordBytes fid
  | unlinkAt directory name flags => wordBytes directory ++ (stringBytes name ++ wordBytes flags.bits)
  | link directory target name => wordBytes directory ++ (wordBytes target ++ stringBytes name)
  | xattrWalk fid newFid name => wordBytes fid ++ (wordBytes newFid ++ stringBytes name)
  | xattrCreate fid name size flags =>
    wordBytes fid ++ (stringBytes name ++ (longBytes size ++ wordBytes flags.bits))
  | lock fid request =>
    wordBytes fid ++ ([Write.lockTypeByte request.lock.ty] ++ (wordBytes request.flags ++
      lockBytes request.lock))
  | getlock fid query => wordBytes fid ++ ([Write.lockTypeByte query.ty] ++ lockBytes query)

def requestTail (request : Request) : Bytes :=
  [request.body.messageType.toU8] ++ (leBytes 2 request.tag.toNat ++ request.body.toBytes)

/-- `size[4] type[1] tag[2] body`. -/
def requestFrame (request : Request) : Bytes :=
  leBytes 4 (4 + (requestTail request).length) ++ requestTail request

/-! ## Limits -/

namespace RequestBody

def components : RequestBody → List Bytes
  | walk _ _ names => names
  | lcreate _ name _ _ _ | mkdir _ name _ _ | mknod _ name _ _ _ _ | symlink _ name _ _
  | rename _ _ name | unlinkAt _ name _ | link _ _ name => [name]
  | renameAt _ oldName _ newName => [oldName, newName]
  | _ => []

def strings : RequestBody → List Bytes
  | version _ dialect => [dialect]
  | auth _ uname aname _ | attach _ _ uname aname _ => [uname, aname]
  | symlink _ name target _ => [name, target]
  | xattrWalk _ _ name | xattrCreate _ name _ _ => [name]
  | lock _ request => [request.lock.clientId]
  | getlock _ query => [query.clientId]
  | body => body.components

def walkNames : RequestBody → List Bytes
  | walk _ _ names => names
  | _ => []

def writeData : RequestBody → Bytes
  | write _ _ data => data
  | _ => []

/-- What the limits and the checks of the decoder ask of a request. -/
structure Admissible (limits : Limits) (body : RequestBody) : Prop where
  components : ∀ name ∈ body.components, name ≠ [] ∧ (0x2f : UInt8) ∉ name ∧ (0 : UInt8) ∉ name
  strings : ∀ value ∈ body.strings, isUtf8 value = true ∧ value.length ≤ limits.maxStringBytes
  walk : body.walkNames.length ≤ limits.maxWalkElements
  data : body.writeData.length ≤ limits.maxPendingWriteBytes

end RequestBody

def Limits.onWire (limits : Limits) : Limits :=
  { limits with
    maxWalkElements := min limits.maxWalkElements (2 ^ 16 - 1)
    maxStringBytes := min limits.maxStringBytes (2 ^ 16 - 1)
    maxPendingWriteBytes := min limits.maxPendingWriteBytes (2 ^ 32 - 1) }

variable {limits : Limits}

theorem RequestBody.Admissible.of_onWire {body : RequestBody} (h : body.Admissible limits.onWire) :
    body.Admissible limits where
  components := h.components
  strings value hvalue :=
    ⟨(h.strings value hvalue).1, (h.strings value hvalue).2.trans (Nat.min_le_left ..)⟩
  walk := h.walk.trans (Nat.min_le_left ..)
  data := h.data.trans (Nat.min_le_left ..)

/-! ## What a read takes -/

namespace Reader

variable {α β : Type} {P : α → Bytes → Prop} {Q : β → Bytes → Prop} {limits : Limits}

variable {r : Reader α} {f : α → Reader β}

theorem bind_eq_ok' {c c' : Cursor} {y : β} :
    (r >>= f) c = .ok (y, c') ↔ ∃ a c₁, r c = .ok (a, c₁) ∧ f a c₁ = .ok (y, c') := by
  have h : (r >>= f) c = (r c >>= fun p => f p.1 p.2) := rfl
  rw [h, bind_eq_ok, Prod.exists]

/-- A read that succeeds takes some bytes off the front of its input, of which `Q` holds. -/
def Takes (r : Reader α) (Q : α → Bytes → Prop) : Prop :=
  ∀ ⦃c c' : Cursor⦄ ⦃a : α⦄, r c = .ok (a, c') → ∃ bytes, c.rest = bytes ++ c'.rest ∧ Q a bytes

theorem Takes.bind (hr : Takes r P) (hf : ∀ a s, P a s → Takes (f a) fun b t => Q b (s ++ t)) :
    Takes (r >>= f) Q := by
  intro c c' b h
  obtain ⟨a, c₁, ha, hb⟩ := bind_eq_ok'.1 h
  obtain ⟨s, hs, hP⟩ := hr ha
  obtain ⟨t, ht, hQ⟩ := hf a s hP hb
  exact ⟨s ++ t, by rw [hs, ht, List.append_assoc], hQ⟩

theorem Takes.and {encode : α → Bytes} {p : α → Prop} (hr : Takes r fun a s => s = encode a ∧ p a)
    (hf : ∀ a, p a → Takes (f a) fun b t => Q b (encode a ++ t)) : Takes (r >>= f) Q := by
  refine hr.bind fun a s ⟨hs, ha⟩ => ?_
  subst hs
  exact hf a ha

theorem Takes.next {encode : α → Bytes} (hr : Takes r fun a s => s = encode a)
    (hf : ∀ a, Takes (f a) fun b t => Q b (encode a ++ t)) : Takes (r >>= f) Q := by
  refine hr.bind fun a s hs => ?_
  subst hs
  exact hf a

theorem takes_pure {a : α} (h : P a []) : Takes (pure a) P := by
  intro c c' a' hc
  cases hc
  exact ⟨[], rfl, h⟩

theorem takes_throw {error : DecodeError} : Takes (throw error : Reader α) P := by
  intro c c' a h
  cases h

theorem takes_take (count : Nat) : Takes (take count) fun a s => s = a ∧ a.length = count := by
  intro c c' a h
  unfold take at h
  split at h
  · rename_i hcount
    cases h
    exact ⟨c.rest.take count, (List.take_append_drop ..).symm, rfl, by simpa using hcount⟩
  · cases h

theorem takes_u8 : Takes u8 fun v s => s = [v] := by
  refine (takes_take 1).bind fun a s ⟨hs, hlength⟩ => takes_pure ?_
  obtain ⟨b, rfl⟩ := List.length_eq_one_iff.1 hlength
  simp [hs, leValue]

theorem takes_u16 : Takes u16 fun v s => s = leBytes 2 v.toNat := by
  refine (takes_take 2).bind fun a s ⟨hs, hlength⟩ => takes_pure ?_
  have hlt := leValue_lt a
  rw [hlength] at hlt
  rw [UInt16.toNat_ofNat', Nat.mod_eq_of_lt (hlt.trans_le (by decide)), List.append_nil, hs, ← hlength,
    leBytes_leValue]

theorem takes_u32 : Takes u32 fun v s => s = wordBytes v := by
  refine (takes_take 4).bind fun a s ⟨hs, hlength⟩ => takes_pure ?_
  have hlt := leValue_lt a
  rw [hlength] at hlt
  rw [wordBytes, UInt32.toNat_ofNat', Nat.mod_eq_of_lt (hlt.trans_le (by decide)), List.append_nil, hs,
    ← hlength, leBytes_leValue]

theorem takes_u64 : Takes u64 fun v s => s = longBytes v := by
  refine (takes_take 8).bind fun a s ⟨hs, hlength⟩ => takes_pure ?_
  have hlt := leValue_lt a
  rw [hlength] at hlt
  rw [longBytes, UInt64.toNat_ofNat', Nat.mod_eq_of_lt (hlt.trans_le (by decide)), List.append_nil, hs,
    ← hlength, leBytes_leValue]

theorem takes_position : Takes position fun _ s => s = [] := by
  intro c c' a h
  cases h
  exact ⟨[], rfl, rfl⟩

theorem takes_check {p : Prop} [Decidable p] {error : DecodeError} :
    Takes (check p error) fun _ s => s = [] ∧ p := by
  intro c c' a h
  unfold check at h
  split at h
  · rename_i hp
    cases h
    exact ⟨[], rfl, rfl, hp⟩
  · cases h

theorem takes_checked {result : Except StructureError Unit} :
    Takes (checked result) fun _ s => s = [] ∧ result = .ok () := by
  intro c c' a h
  unfold checked at h
  split at h
  · cases h
    exact ⟨[], rfl, rfl, rfl⟩
  all_goals cases h

theorem finish_eq_ok {c c' : Cursor} {u : Unit} (h : finish c = .ok (u, c')) :
    c.rest = [] ∧ c' = c := by
  unfold finish at h
  split at h
  · rename_i hrest
    cases h
    exact ⟨hrest, rfl⟩
  · cases h

/-! ### Strings -/

def StringTaken (maximum : Nat) (value s : Bytes) : Prop :=
  s = stringBytes value ∧ isUtf8 value = true ∧ value.length ≤ maximum

def ComponentTaken (maximum : Nat) (name s : Bytes) : Prop :=
  StringTaken maximum name s ∧ name ≠ [] ∧ (0x2f : UInt8) ∉ name ∧ (0 : UInt8) ∉ name

theorem takes_string :
    Takes (string limits.maxStringBytes) (StringTaken limits.onWire.maxStringBytes) := by
  refine takes_u16.bind fun length _ hlength => ?_
  refine takes_check.bind fun _ _ ⟨hnil, hmax⟩ => ?_
  refine takes_position.bind fun offset _ hposition => ?_
  refine (takes_take length.toNat).bind fun value _ ⟨hvalue, hcount⟩ => ?_
  refine takes_check.bind fun _ _ ⟨hdone, hutf8⟩ => takes_pure ?_
  subst hlength hnil hposition hvalue hdone
  refine ⟨by simp [stringBytes, hcount], hutf8, hcount ▸ Nat.le_min.2 ⟨hmax, ?_⟩⟩
  have := length.toNat_lt
  omega

theorem takes_component :
    Takes (component limits.maxStringBytes) (ComponentTaken limits.onWire.maxStringBytes) := by
  refine takes_string.bind fun name s hname => ?_
  refine takes_checked.bind fun _ _ ⟨hnil, hvalid⟩ => takes_pure ?_
  subst hnil
  rw [validateComponent, ensure_eq_ok] at hvalid
  exact ⟨by simpa using hname, hvalid⟩

theorem takes_components (count : Nat) :
    Takes (components limits.maxStringBytes count) fun names s => s = names.flatMap stringBytes ∧
      names.length = count ∧
      ∀ name ∈ names, ComponentTaken limits.onWire.maxStringBytes name (stringBytes name) := by
  induction count with
  | zero => exact takes_pure ⟨rfl, rfl, by simp⟩
  | succ count ih =>
    refine takes_component.bind fun name s hname => ?_
    refine ih.bind fun names t ⟨ht, hlength, hnames⟩ => takes_pure ?_
    obtain rfl : s = stringBytes name := hname.1.1
    subst ht
    refine ⟨by simp, by simp [hlength], ?_⟩
    rintro other (_ | ⟨_, hmem⟩)
    · exact hname
    · exact hnames other hmem

theorem takes_lockType : Takes lockType fun ty s => s = [Write.lockTypeByte ty] := by
  refine takes_u8.bind fun value s hs => ?_
  subst hs
  split
  · rename_i h
    exact takes_pure (by rw [h]; rfl)
  split
  · rename_i h
    exact takes_pure (by rw [h]; rfl)
  split
  · rename_i h
    exact takes_pure (by rw [h]; rfl)
  · exact takes_throw

/-! ### Bodies -/

/-- What is taken for a body of the given type. -/
def BodyTaken (limits : Limits) (type : MessageType) (body : RequestBody) (s : Bytes) : Prop :=
  s = body.toBytes ∧ body.messageType = type ∧ body.Admissible limits

variable {body : RequestBody}

/-- A body without components, walk names and data. -/
theorem admissible_of_strings (hcomponents : body.components = []) (hwalk : body.walkNames = [])
    (hdata : body.writeData = [])
    (h : ∀ value ∈ body.strings, isUtf8 value = true ∧ value.length ≤ limits.maxStringBytes) :
    body.Admissible limits := by
  refine ⟨?_, h, ?_, ?_⟩
  · simp [hcomponents]
  · simp [hwalk]
  · simp [hdata]

theorem admissible_plain (hcomponents : body.components = []) (hstrings : body.strings = [])
    (hwalk : body.walkNames = []) (hdata : body.writeData = []) :
    body.Admissible limits :=
  admissible_of_strings hcomponents hwalk hdata (by simp [hstrings])

/-- A body whose only string is a path component. -/
theorem admissible_of_component {name s : Bytes} (hcomponents : body.components = [name])
    (hstrings : body.strings = [name]) (hwalk : body.walkNames = []) (hdata : body.writeData = [])
    (h : ComponentTaken limits.maxStringBytes name s) : body.Admissible limits := by
  obtain ⟨⟨-, hstring⟩, hname⟩ := h
  refine ⟨?_, ?_, ?_, ?_⟩
  · simpa [hcomponents] using hname
  · simpa [hstrings] using hstring
  · simp [hwalk]
  · simp [hdata]

/-- **Every body is taken as it is written.** -/
theorem takes_body (raw : UInt8) (type : MessageType) :
    Takes (decodeBody limits raw type) (BodyTaken limits.onWire type) := by
  cases type with
  | tversion =>
    refine takes_u32.next fun msize => takes_string.and fun version hversion => takes_pure ?_
    exact ⟨by simp [RequestBody.toBytes], rfl, admissible_of_strings rfl rfl rfl
      (by simp [RequestBody.strings, hversion])⟩
  | tauth =>
    refine takes_u32.next fun afid => takes_string.and fun uname huname => ?_
    refine takes_string.and fun aname haname => takes_u32.next fun nUname => takes_pure ?_
    exact ⟨by simp [RequestBody.toBytes], rfl, admissible_of_strings rfl rfl rfl
      (by simp [RequestBody.strings, huname, haname])⟩
  | tattach =>
    refine takes_u32.next fun fid => takes_u32.next fun afid => takes_string.and fun uname huname => ?_
    refine takes_string.and fun aname haname => takes_u32.next fun nUname => takes_pure ?_
    exact ⟨by simp [RequestBody.toBytes], rfl, admissible_of_strings rfl rfl rfl
      (by simp [RequestBody.strings, huname, haname])⟩
  | tflush =>
    refine takes_u16.next fun oldTag => takes_pure ?_
    exact ⟨by simp [RequestBody.toBytes], rfl, admissible_plain rfl rfl rfl rfl⟩
  | twalk =>
    refine takes_u32.next fun fid => takes_u32.next fun newFid => takes_u16.next fun count => ?_
    refine takes_check.and fun _ hcount => ?_
    refine (takes_components _).and fun names ⟨hlength, hnames⟩ => takes_pure ?_
    refine ⟨by simp [RequestBody.toBytes, hlength], rfl, ?_⟩
    exact ⟨fun name hname => (hnames name hname).2, fun name hname => (hnames name hname).1.2,
      hlength ▸ Nat.le_min.2 ⟨hcount, Nat.le_of_lt_succ count.toNat_lt⟩,
      by simp [RequestBody.writeData]⟩
  | tclunk | tstatfs | treadlink | tremove =>
    refine takes_u32.next fun fid => takes_pure ?_
    exact ⟨by simp [RequestBody.toBytes], rfl, admissible_plain rfl rfl rfl rfl⟩
  | tlopen =>
    refine takes_u32.next fun fid => takes_u32.next fun flags => takes_pure ?_
    exact ⟨by simp [RequestBody.toBytes], rfl, admissible_plain rfl rfl rfl rfl⟩
  | tlcreate =>
    refine takes_u32.next fun fid => ?_
    refine takes_component.bind fun name _ hname => takes_u32.next fun flags => ?_
    refine takes_u32.next fun mode => takes_u32.next fun gid => takes_pure ?_
    obtain rfl := hname.1.1
    exact ⟨by simp [RequestBody.toBytes], rfl, admissible_of_component rfl rfl rfl rfl hname⟩
  | tmkdir =>
    refine takes_u32.next fun directory => ?_
    refine takes_component.bind fun name _ hname => takes_u32.next fun mode => ?_
    refine takes_u32.next fun gid => takes_pure ?_
    obtain rfl := hname.1.1
    exact ⟨by simp [RequestBody.toBytes], rfl, admissible_of_component rfl rfl rfl rfl hname⟩
  | tmknod =>
    refine takes_u32.next fun directory => ?_
    refine takes_component.bind fun name _ hname => takes_u32.next fun mode => ?_
    refine takes_u32.next fun major => takes_u32.next fun minor => takes_u32.next fun gid => takes_pure ?_
    obtain rfl := hname.1.1
    exact ⟨by simp [RequestBody.toBytes], rfl, admissible_of_component rfl rfl rfl rfl hname⟩
  | tsymlink =>
    refine takes_u32.next fun directory => ?_
    refine takes_component.bind fun name _ hname => takes_string.and fun target htarget => ?_
    refine takes_u32.next fun gid => takes_pure ?_
    obtain ⟨⟨rfl, hstring⟩, hcomponent⟩ := hname
    refine ⟨by simp [RequestBody.toBytes], rfl, ?_, ?_, ?_, ?_⟩
    · simpa [RequestBody.components] using hcomponent
    · simp [RequestBody.strings, hstring, htarget]
    · simp [RequestBody.walkNames]
    · simp [RequestBody.writeData]
  | tread | treaddir =>
    refine takes_u32.next fun fid => takes_u64.next fun offset => takes_u32.next fun count => takes_pure ?_
    exact ⟨by simp [RequestBody.toBytes], rfl, admissible_plain rfl rfl rfl rfl⟩
  | twrite =>
    refine takes_u32.next fun fid => takes_u64.next fun offset => takes_u32.next fun count => ?_
    refine takes_check.and fun _ hcount => ?_
    refine (takes_take _).and fun data hlength => takes_pure ?_
    refine ⟨by simp [RequestBody.toBytes, wordBytes, hlength], rfl, ?_, ?_, ?_,
      hlength ▸ Nat.le_min.2 ⟨hcount, Nat.le_of_lt_succ count.toNat_lt⟩⟩
    · simp [RequestBody.components]
    · simp [RequestBody.strings, RequestBody.components]
    · simp [RequestBody.walkNames]
  | tfsync =>
    refine takes_u32.next fun fid => takes_u32.next fun dataOnly => ?_
    refine takes_check.and fun _ hflag => takes_pure ?_
    have hword : wordBytes (if dataOnly == 1 then 1 else 0) = wordBytes dataOnly := by
      rcases hflag with rfl | rfl <;> rfl
    exact ⟨by simp only [RequestBody.toBytes, hword, List.append_nil], rfl,
      admissible_plain rfl rfl rfl rfl⟩
  | tgetattr =>
    refine takes_u32.next fun fid => takes_u64.next fun mask => takes_check.and fun _ _ => takes_pure ?_
    exact ⟨by simp [RequestBody.toBytes], rfl, admissible_plain rfl rfl rfl rfl⟩
  | tsetattr =>
    refine takes_u32.next fun fid => takes_u32.next fun valid => takes_u32.next fun mode => ?_
    refine takes_u32.next fun uid => takes_u32.next fun gid => takes_u64.next fun size => ?_
    refine takes_u64.next fun atime => takes_u64.next fun atimeNanos => takes_u64.next fun mtime => ?_
    refine takes_u64.next fun mtimeNanos => takes_checked.and fun _ _ => takes_pure ?_
    exact ⟨by simp [RequestBody.toBytes], rfl, admissible_plain rfl rfl rfl rfl⟩
  | trename | tlink =>
    refine takes_u32.next fun first => takes_u32.next fun second => ?_
    refine takes_component.bind fun name _ hname => takes_pure ?_
    obtain rfl := hname.1.1
    exact ⟨by simp [RequestBody.toBytes], rfl, admissible_of_component rfl rfl rfl rfl hname⟩
  | trenameat =>
    refine takes_u32.next fun oldDirectory => ?_
    refine takes_component.bind fun oldName _ hold => takes_u32.next fun newDirectory => ?_
    refine takes_component.bind fun newName _ hnew => takes_pure ?_
    obtain ⟨⟨rfl, holdString⟩, holdName⟩ := hold
    obtain ⟨⟨rfl, hnewString⟩, hnewName⟩ := hnew
    refine ⟨by simp [RequestBody.toBytes], rfl, ?_, ?_, ?_, ?_⟩
    · simpa [RequestBody.components] using ⟨holdName, hnewName⟩
    · simpa [RequestBody.strings, RequestBody.components] using ⟨holdString, hnewString⟩
    · simp [RequestBody.walkNames]
    · simp [RequestBody.writeData]
  | tunlinkat =>
    refine takes_u32.next fun directory => ?_
    refine takes_component.bind fun name _ hname => takes_u32.next fun flags => ?_
    refine takes_check.and fun _ _ => takes_pure ?_
    obtain rfl := hname.1.1
    exact ⟨by simp [RequestBody.toBytes], rfl, admissible_of_component rfl rfl rfl rfl hname⟩
  | txattrwalk =>
    refine takes_u32.next fun fid => takes_u32.next fun newFid => ?_
    refine takes_string.and fun name hname => takes_pure ?_
    exact ⟨by simp [RequestBody.toBytes], rfl, admissible_of_strings rfl rfl rfl
      (by simp [RequestBody.strings, hname])⟩
  | txattrcreate =>
    refine takes_u32.next fun fid => takes_string.and fun name hname => takes_checked.and fun _ _ => ?_
    refine takes_u64.next fun size => takes_u32.next fun flags => takes_checked.and fun _ _ => takes_pure ?_
    exact ⟨by simp [RequestBody.toBytes], rfl, admissible_of_strings rfl rfl rfl
      (by simp [RequestBody.strings, hname])⟩
  | tlock =>
    refine takes_u32.next fun fid => takes_lockType.next fun ty => takes_u32.next fun flags => ?_
    refine takes_u64.next fun start => takes_u64.next fun length => takes_u32.next fun processId => ?_
    refine takes_string.and fun clientId hclientId => takes_checked.and fun _ _ => takes_pure ?_
    exact ⟨by simp [RequestBody.toBytes, lockBytes], rfl, admissible_of_strings rfl rfl rfl
      (by simp [RequestBody.strings, hclientId])⟩
  | tgetlock =>
    refine takes_u32.next fun fid => takes_lockType.next fun ty => takes_u64.next fun start => ?_
    refine takes_u64.next fun length => takes_u32.next fun processId => ?_
    refine takes_string.and fun clientId hclientId => takes_pure ?_
    exact ⟨by simp [RequestBody.toBytes, lockBytes], rfl, admissible_of_strings rfl rfl rfl
      (by simp [RequestBody.strings, hclientId])⟩
  | _ => exact takes_throw

end Reader

/-! ## Frames -/

theorem readRequest_eq_ok {c c' : Cursor} {request : Request}
    (h : readRequest limits c = .ok (request, c')) :
    c'.rest = [] ∧ (∃ size : UInt32, c.rest = wordBytes size ++ requestTail request) ∧
      request.body.Admissible limits.onWire := by
  simp only [readRequest, Reader.bind_eq_ok'] at h
  obtain ⟨size, c₁, hsize, raw, c₂, hraw, h⟩ := h
  obtain ⟨_, hrest, rfl⟩ := Reader.takes_u32 hsize
  obtain ⟨_, hrest₁, rfl⟩ := Reader.takes_u8 hraw
  cases htype : MessageType.ofU8 raw with
  | none =>
    rw [htype] at h
    cases h
  | some type =>
    simp only [htype, Reader.bind_eq_ok'] at h
    obtain ⟨_, c₃, hcheck, tag, c₄, htag, body, c₅, hbody, _, c₆, hfinish, hpure⟩ := h
    cases hpure
    obtain ⟨_, hrest₂, rfl, -⟩ := Reader.takes_check hcheck
    obtain ⟨_, hrest₃, rfl⟩ := Reader.takes_u16 htag
    obtain ⟨_, hrest₄, rfl, hmessage, hadmissible⟩ := Reader.takes_body raw type hbody
    obtain ⟨hend, rfl⟩ := Reader.finish_eq_ok hfinish
    have hraw : body.messageType.toU8 = raw := by
      rw [hmessage]
      exact MessageType.toU8_of_ofU8 htype
    refine ⟨hend, ⟨size, ?_⟩, hadmissible⟩
    rw [hrest, hrest₁, hrest₂, hrest₃, hrest₄, hend, requestTail, hraw]
    simp

/-- **An accepted frame is the frame of its request**, and its size is its length. -/
theorem decodeRequest_eq_ok {frame : Bytes} {maximum : UInt32} {request : Request}
    (h : decodeRequest frame limits maximum = .ok request) :
    frame = requestFrame request ∧ request.body.Admissible limits.onWire := by
  have hwhole := wholeFrame_of_decode h
  simp only [decodeRequest, bind_eq_ok, Prod.exists, pure_eq_ok] at h
  obtain ⟨_, -, request', c, hread, hrequest⟩ := h
  subst hrequest
  obtain ⟨-, ⟨size, hframe⟩, hadmissible⟩ := readRequest_eq_ok hread
  dsimp only at hframe
  have hsize : declaredSize frame = size := by
    rw [declaredSize, hframe, List.take_left' (by simp [wordBytes]), wordBytes,
      leValue_leBytes (size.toNat_lt.trans_le (by decide)), UInt32.ofNat_toNat]
  have hlength : frame.length = 4 + (requestTail request').length := by
    rw [hframe, List.length_append, wordBytes, length_leBytes]
  refine ⟨?_, hadmissible⟩
  rw [requestFrame, ← hlength, ← hwhole.declared, hsize]
  exact hframe

/-! ## Frames of one repeated byte -/

section Constant

variable {limits : Limits} {b : UInt8}

/-- A length field of one repeated byte. -/
theorem length_of_constant {width length : Nat} (hlength : length < 256 ^ width)
    (h : ∀ x ∈ leBytes width length, x = b) : length = leValue (List.replicate width b) := by
  rw [← leValue_leBytes hlength, List.eq_replicate_of_mem h, length_leBytes]

theorem length_of_stringBytes_constant {value : Bytes} (hvalue : value.length ≤ 65535)
    (h : ∀ x ∈ stringBytes value, x = b) : value.length = leValue (List.replicate 2 b) :=
  length_of_constant (Nat.lt_succ_of_le hvalue) fun x hx => h x (List.mem_append_left _ hx)

theorem MessageType.toU8_ge (type : MessageType) : 6 ≤ type.toU8.toNat := by
  cases type <;> decide

/-- The size field of a run of one byte never matches the body behind it. -/
theorem RequestBody.length_ne_of_constant {body : RequestBody} (h : body.Admissible limits.onWire)
    (hconstant : ∀ x ∈ body.toBytes, x = body.messageType.toU8) :
    7 + body.toBytes.length ≠ 16843009 * body.messageType.toU8.toNat := by
  have hstrings : ∀ value ∈ body.strings, value.length ≤ 65535 := fun value hvalue =>
    (h.strings value hvalue).2.trans (Nat.min_le_right ..)
  have htype := body.messageType.toU8_ge
  cases body with
  | walk fid newFid names =>
    -- every name has the length that their count has
    simp only [toBytes, List.mem_append, List.mem_flatMap] at hconstant
    have hcount : names.length = leValue (List.replicate 2 110) :=
      length_of_constant (Nat.lt_succ_of_le (h.walk.trans (Nat.min_le_right ..)))
        fun x hx => hconstant x (.inr (.inr (.inl hx)))
    have hnames : ∀ name ∈ names, (stringBytes name).length = 28272 := fun name hname => by
      have hlength : name.length = leValue (List.replicate 2 110) :=
        length_of_stringBytes_constant (hstrings name hname) fun x hx =>
          hconstant x (.inr (.inr (.inr ⟨name, hname, hx⟩)))
      rw [stringBytes, List.length_append, hlength, length_leBytes]
      decide
    simp only [toBytes, List.length_append, List.length_flatMap, List.map_congr_left hnames,
      List.map_const', List.sum_replicate, smul_eq_mul, wordBytes, length_leBytes, hcount]
    change _ ≠ 16843009 * 110
    decide
  | write fid offset data =>
    -- the data alone are as long as the size field says
    simp only [toBytes, List.mem_append] at hconstant
    have hcount : data.length = leValue (List.replicate 4 118) :=
      length_of_constant (Nat.lt_succ_of_le (h.data.trans (Nat.min_le_right ..)))
        fun x hx => hconstant x (.inr (.inr (.inl hx)))
    simp only [toBytes, List.length_append, wordBytes, longBytes, length_leBytes, hcount]
    change _ ≠ 16843009 * 118
    decide
  | _ =>
    simp [strings, components] at hstrings
    simp [toBytes, stringBytes, wordBytes, longBytes, lockBytes]
    omega

/-- **A request is never one repeated byte.** -/
theorem decodeRequest_not_constant {frame : Bytes} {maximum : UInt32} {request : Request}
    (h : decodeRequest frame limits maximum = .ok request) : ¬ ∀ x ∈ frame, x = b := by
  intro hconstant
  have hdeclared := (wholeFrame_of_decode h).declared
  obtain ⟨hframe, hadmissible⟩ := decodeRequest_eq_ok h
  have hlength : frame.length = 7 + request.body.toBytes.length := by
    simp [hframe, requestFrame, requestTail]
    omega
  have hmem : ∀ x ∈ requestTail request, x = b := fun x hx =>
    hconstant x (hframe ▸ List.mem_append_right _ hx)
  obtain rfl : request.body.messageType.toU8 = b := hmem _ (by simp [requestTail])
  refine RequestBody.length_ne_of_constant hadmissible
    (fun x hx => hmem x (by simp [requestTail, hx])) ?_
  have htake : frame.take 4 = List.replicate 4 request.body.messageType.toU8 := by
    rw [List.eq_replicate_of_mem fun x hx => hconstant x (List.mem_of_mem_take hx),
      List.length_take, Nat.min_eq_left (by omega)]
  have hb := request.body.messageType.toU8.toNat_lt
  rw [declaredSize, htake] at hdeclared
  simp only [List.replicate, leValue, UInt32.toNat_ofNat'] at hdeclared
  omega

end Constant

/-- **Request decoding is unambiguous.** A frame is accepted only if its size is its length and within the
maximum, it is read to its end, it is the canonical frame of the request, and the request respects the
limits; two frames that decode to one request are the same. -/
theorem request_decoding_unambiguous (limits : Limits) (maximum : UInt32) :
    (∀ frame request, decodeRequest frame limits maximum = .ok request →
      (declaredSize frame).toNat = frame.length ∧ frame.length ≤ maximum.toNat ∧
      (∃ c, readRequest limits ⟨frame, 0⟩ = .ok (request, c) ∧ c.rest = []) ∧
      frame = requestFrame request ∧ request.body.Admissible limits) ∧
    (∀ frame frame' request, decodeRequest frame limits maximum = .ok request →
      decodeRequest frame' limits maximum = .ok request → frame = frame') := by
  refine ⟨fun frame request h => ?_, fun frame frame' request h h' => ?_⟩
  · have hwhole := wholeFrame_of_decode h
    obtain ⟨hframe, hadmissible⟩ := decodeRequest_eq_ok h
    simp only [decodeRequest, bind_eq_ok, Prod.exists, pure_eq_ok] at h
    obtain ⟨_, -, _, c, hread, rfl⟩ := h
    exact ⟨hwhole.declared, hwhole.fits, ⟨c, hread, (readRequest_eq_ok hread).1⟩, hframe, hadmissible.of_onWire⟩
  · rw [(decodeRequest_eq_ok h).1, (decodeRequest_eq_ok h').1]

def sampleLimits : Limits := ⟨64, 64, 4, 64, 4, 4, 4, 16, 16⟩

/-- `Tclunk` of fid 5 with tag 1. -/
def sampleFrame : Bytes := [11, 0, 0, 0, 120, 1, 0, 5, 0, 0, 0]

theorem request_decoding_unambiguous_clunk :
    decodeRequest sampleFrame sampleLimits 64 = .ok ⟨1, .clunk 5⟩ ∧
      sampleFrame = requestFrame ⟨1, .clunk 5⟩ := by
  have hdecode : decodeRequest sampleFrame sampleLimits 64 = .ok ⟨1, .clunk 5⟩ := by decide +kernel
  obtain ⟨-, -, -, hframe, -⟩ := (request_decoding_unambiguous sampleLimits 64).1 _ _ hdecode
  exact ⟨hdecode, hframe⟩

end W9pt.Protocol

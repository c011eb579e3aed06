import LineShell.Host.Failure
import LineShell.Proofs.Text.Utf8

/-!
# Texts that have bytes

A text has bytes to be written out exactly if it is made of characters: `encode_eq_ok_iff`.  For the
operating system the surrogates of single bytes have bytes as well, and every byte string of the
system is the bytes of the text by which it is known: `toSystem_ofSystem`.
-/

namespace LineShell

/-- A text has these bytes, if surrogates have the bytes that they are given. -/
inductive Encodes (byte? : Fin 0x800 → Option UInt8) : Text → Bytes → Prop
  | nil : Encodes byte? [] []
  | char {t : Text} {data : Bytes} (c : Char) : Encodes byte? t data →
      Encodes byte? (.char c :: t) (String.utf8EncodeChar c ++ data)
  | surrogate {t : Text} {data : Bytes} {n : Fin 0x800} {b : UInt8} : byte? n = some b →
      Encodes byte? t data → Encodes byte? (.surrogate n :: t) (b :: data)

section

variable {byte? : Fin 0x800 → Option UInt8} {t u : Text} {data more : Bytes}

/-- Encoding gives the bytes of a text, wherever the text begins. -/
theorem encodeWith_eq_ok_iff (place : Nat) :
    t.encodeWith byte? place = .ok data ↔ Encodes byte? t data := by
  constructor
  · intro h
    -- The place is only that of the fault, so it is any number in the induction.
    induction t generalizing place data with
    | nil =>
      cases h
      exact .nil
    | cons c rest ih =>
      cases c with
      | char c =>
        rw [Text.encodeWith] at h
        cases hrest : Text.encodeWith byte? (place + 1) rest with
        | error fault => rw [hrest] at h; cases h
        | ok bytes =>
          rw [hrest] at h
          cases h
          exact .char c (ih _ hrest)
      | surrogate n =>
        rw [Text.encodeWith] at h
        cases hbyte : byte? n with
        | none => rw [hbyte] at h; cases h
        | some b =>
          cases hrest : Text.encodeWith byte? (place + 1) rest with
          | error fault => rw [hbyte, hrest] at h; cases h
          | ok bytes =>
            rw [hbyte, hrest] at h
            cases h
            exact .surrogate hbyte (ih _ hrest)
  · intro h
    induction h generalizing place with
    | nil => rfl
    | char c _ ih => rw [Text.encodeWith, ih, Except.map]
    | surrogate hbyte _ ih => rw [Text.encodeWith, hbyte, ih]; rfl

/-- The bytes of texts in a row stand in a row. -/
theorem Encodes.append (ht : Encodes byte? t data) (hu : Encodes byte? u more) :
    Encodes byte? (t ++ u) (data ++ more) := by
  induction ht with
  | nil => exact hu
  | char c _ ih =>
    rw [List.cons_append, List.append_assoc]
    exact .char c ih
  | surrogate hbyte _ ih => exact .surrogate hbyte ih

/-- Two texts in a row have bytes exactly if both of them have. -/
theorem encodes_append_iff : Encodes byte? (t ++ u) data ↔
    ∃ front back, Encodes byte? t front ∧ Encodes byte? u back ∧ front ++ back = data := by
  constructor
  · intro h
    induction t generalizing data with
    | nil => exact ⟨[], data, .nil, h, rfl⟩
    | cons c rest ih =>
      cases h with
      | char c hrest =>
        obtain ⟨front, back, hfront, hback, rfl⟩ := ih hrest
        exact ⟨_, back, .char c hfront, hback, List.append_assoc ..⟩
      | surrogate hbyte hrest =>
        obtain ⟨front, back, hfront, hback, rfl⟩ := ih hrest
        exact ⟨_, back, .surrogate hbyte hfront, hback, rfl⟩
  · rintro ⟨front, back, hfront, hback, rfl⟩
    exact hfront.append hback

theorem encodes_ofChars (cs : List Char) : Encodes byte? (.ofChars cs) (Utf8.encode cs) := by
  induction cs with
  | nil => exact .nil
  | cons c cs ih => exact .char c ih

theorem Encodes.unique (h : Encodes byte? t data) (h' : Encodes byte? t more) : data = more := by
  have heq := (encodeWith_eq_ok_iff 0).mpr h
  rw [(encodeWith_eq_ok_iff 0).mpr h'] at heq
  exact (Except.ok.inj heq).symm

end

/-! ## Texts that are written out -/

theorem encodes_none_iff {t : Text} {data : Bytes} : Encodes (fun _ => none) t data ↔
    ∃ cs, t = .ofChars cs ∧ Utf8.encode cs = data := by
  constructor
  · intro h
    induction h with
    | nil => exact ⟨[], rfl, rfl⟩
    | char c _ ih =>
      obtain ⟨cs, rfl, rfl⟩ := ih
      exact ⟨c :: cs, rfl, rfl⟩
    | surrogate hbyte => cases hbyte
  · rintro ⟨cs, rfl, rfl⟩
    exact encodes_ofChars cs

namespace Text

/-- A text has bytes exactly if it is made of characters, and they are the bytes of these. -/
theorem encode_eq_ok_iff {t : Text} {data : Bytes} :
    t.encode = .ok data ↔ ∃ cs, t = .ofChars cs ∧ Utf8.encode cs = data := by
  rw [← encodes_none_iff, ← encodeWith_eq_ok_iff 0, encode]
  cases t.encodeWith (fun _ => none) 0 with
  | error fault => exact iff_of_false nofun nofun
  | ok bytes =>
    show (.ok bytes : Except Failure Bytes) = .ok data ↔ _
    rw [Except.ok.injEq, Except.ok.injEq]

@[simp] theorem encode_ofChars (cs : List Char) : (ofChars cs).encode = .ok (Utf8.encode cs) :=
  encode_eq_ok_iff.mpr ⟨cs, rfl, rfl⟩

/-- Texts in a row can be written out exactly if all of them can. -/
theorem encode_append_eq_ok_iff {t u : Text} {data : Bytes} : (t ++ u).encode = .ok data ↔
    ∃ front back, t.encode = .ok front ∧ u.encode = .ok back ∧ front ++ back = data := by
  simp only [encode_eq_ok_iff, ← encodes_none_iff]
  exact encodes_append_iff

/-! ## Texts of the operating system -/

/-- The operating system takes every byte but zero, those outside of characters included. -/
theorem toSystem_eq_ok_iff {t : Text} {data : Bytes} :
    t.toSystem = .ok data ↔ Encodes escapedByte? t data ∧ .char nul ∉ t := by
  rw [← encodeWith_eq_ok_iff 0, toSystem]
  cases t.encodeWith escapedByte? 0 with
  | error fault => simp
  | ok bytes =>
    by_cases hnul : .char nul ∈ t
    · simp [hnul]
    · simp [hnul]

end Text

/-- A byte that is high is that of the surrogate that stands for it. -/
theorem escapedByte?_ofNat {b : UInt8} (h : 0x80 ≤ b.toNat) :
    escapedByte? (Fin.ofNat 0x800 (0x400 + b.toNat)) = some b := by
  have hb := b.toNat_lt
  have hval : (Fin.ofNat 0x800 (0x400 + b.toNat)).val = 0x400 + b.toNat :=
    Nat.mod_eq_of_lt (by omega)
  rw [escapedByte?, hval, if_pos (by omega), Nat.add_sub_cancel_left, UInt8.ofNat_toNat]

/-- No surrogate stands for a byte of ASCII. -/
theorem high_of_escapedByte? {n : Fin 0x800} {b : UInt8} (h : escapedByte? n = some b) :
    0x80 ≤ b.toNat := by
  rw [escapedByte?, Option.ite_none_right_eq_some] at h
  obtain ⟨hrange, hb⟩ := h
  have hbyte : n.val - 0x400 < 256 := by omega
  rw [← Option.some.inj hb, UInt8.toNat_ofNat_of_lt' hbyte]
  omega

/-- The part of a byte string is known by a text that has its bytes. -/
theorem encodes_toText {part : Utf8.Part} (h : part.High) :
    Encodes escapedByte? part.toText part.bytes := by
  cases part with
  | char c => simpa [Utf8.Part.toText, Utf8.Part.bytes] using Encodes.char c .nil
  | illFormed bytes =>
    rw [Utf8.Part.toText, Utf8.Part.bytes]
    induction bytes with
    | nil => exact .nil
    | cons b rest ih =>
      exact .surrogate (escapedByte?_ofNat (h b List.mem_cons_self))
        (ih fun x hx => h x (List.mem_cons_of_mem b hx))

theorem encodes_flatMap_toText {parts : List Utf8.Part} (h : ∀ part ∈ parts, part.High) :
    Encodes escapedByte? (parts.flatMap Utf8.Part.toText) (parts.flatMap Utf8.Part.bytes) := by
  induction parts with
  | nil => exact .nil
  | cons part rest ih =>
    exact (encodes_toText (h part List.mem_cons_self)).append
      (ih fun p hp => h p (List.mem_cons_of_mem part hp))

/-- A byte string has the bytes of the text by which it is known. -/
theorem encodes_ofSystem (bytes : Bytes) : Encodes escapedByte? (.ofSystem bytes) bytes := by
  have hhigh : ∀ part ∈ Utf8.parts bytes, part.High := fun _ => Utf8.high_of_mem_parts
  have h := encodes_flatMap_toText hhigh
  rwa [Utf8.flatMap_bytes_parts] at h

/-- A character of ASCII is its own byte, and no other character is written with that byte. -/
theorem ascii_mem_encodeChar_iff {a : Char} (ha : a.toNat < 0x80) (c : Char) :
    UInt8.ofNat a.toNat ∈ String.utf8EncodeChar c ↔ c = a := by
  have hbyte : ∀ {v : Nat}, v < 256 → (UInt8.ofNat a.toNat = UInt8.ofNat v ↔ v = a.toNat) := by
    intro v hv
    have ha' : a.toNat < 256 := by omega
    rw [← UInt8.toNat_inj, UInt8.toNat_ofNat_of_lt' hv, UInt8.toNat_ofNat_of_lt' ha']
    exact eq_comm
  have hchar : c = a ↔ c.val.toNat = a.toNat := Char.toNat_inj.symm
  have hvalid : c.val.toNat < 0xD800 ∨ 0xDFFF < c.val.toNat ∧ c.val.toNat < 0x110000 := c.valid
  rw [hchar, Utf8.encodeChar_eq]
  generalize c.val.toNat = v at hvalid
  split
  · rw [List.mem_singleton, hbyte (by omega)]
  -- The other forms are made of high bytes.
  split
  · simp only [Utf8.continuation, List.mem_cons, List.not_mem_nil, or_false]
    rw [hbyte (by omega), hbyte (by omega)]
    omega
  split
  · simp only [Utf8.continuation, List.mem_cons, List.not_mem_nil, or_false]
    rw [hbyte (by omega), hbyte (by omega), hbyte (by omega)]
    omega
  · simp only [Utf8.continuation, List.mem_cons, List.not_mem_nil, or_false]
    rw [hbyte (by omega), hbyte (by omega), hbyte (by omega), hbyte (by omega)]
    omega

/-- A byte of ASCII stands for its own character and for no part of another. -/
theorem Encodes.ascii_mem_iff {t : Text} {data : Bytes} {a : Char} (ha : a.toNat < 0x80)
    (h : Encodes escapedByte? t data) : UInt8.ofNat a.toNat ∈ data ↔ .char a ∈ t := by
  induction h with
  | nil => simp
  | char c _ ih =>
    rw [List.mem_append, ascii_mem_encodeChar_iff ha, ih, List.mem_cons, CodePoint.char.injEq,
      eq_comm (a := c)]
  | @surrogate _ _ _ b hbyte _ ih =>
    have hne : UInt8.ofNat a.toNat ≠ b := by
      rintro rfl
      have hhigh := high_of_escapedByte? hbyte
      rw [UInt8.toNat_ofNat_of_lt' (Nat.lt_trans ha (by decide))] at hhigh
      omega
    simp [hne, ih]

/-- The text by which bytes of the operating system are known is given back as these bytes. -/
theorem Text.toSystem_ofSystem {bytes : Bytes} (h : 0 ∉ bytes) :
    (Text.ofSystem bytes).toSystem = .ok bytes :=
  have hbytes := encodes_ofSystem bytes
  Text.toSystem_eq_ok_iff.mpr ⟨hbytes, fun hnul => h ((hbytes.ascii_mem_iff (by decide)).mpr hnul)⟩

theorem Text.zero_not_mem_of_toSystem {t : Text} {bytes : Bytes} (h : t.toSystem = .ok bytes) :
    0 ∉ bytes := by
  obtain ⟨hbytes, hnul⟩ := Text.toSystem_eq_ok_iff.mp h
  exact fun hzero => hnul ((hbytes.ascii_mem_iff (a := nul) (by decide)).mp hzero)

/-! ## Texts that can be written out or given to the operating system -/

namespace Text

/-- The text can be written out. -/
def Showable (t : Text) : Prop := ∃ data, t.encode = .ok data

theorem not_showable_iff {t : Text} : ¬ t.Showable ↔ ∃ failure, t.encode = .error failure := by
  unfold Showable
  cases t.encode <;> simp

instance (t : Text) : Decidable t.Showable :=
  match h : t.encode with
  | .ok data => isTrue ⟨data, h⟩
  | .error failure => isFalse (not_showable_iff.mpr ⟨failure, h⟩)

theorem showable_ofChars (cs : List Char) : (ofChars cs).Showable := ⟨_, encode_ofChars cs⟩

theorem showable_append_iff {t u : Text} : (t ++ u).Showable ↔ t.Showable ∧ u.Showable := by
  simp only [Showable, encode_append_eq_ok_iff]
  constructor
  · rintro ⟨_, front, back, hfront, hback, -⟩
    exact ⟨⟨front, hfront⟩, ⟨back, hback⟩⟩
  · rintro ⟨⟨front, hfront⟩, ⟨back, hback⟩⟩
    exact ⟨_, front, back, hfront, hback, rfl⟩

theorem showable_flatten_iff {lines : List Text} :
    Showable lines.flatten ↔ ∀ line ∈ lines, line.Showable := by
  induction lines with
  | nil => exact iff_of_true (showable_ofChars []) (by simp)
  | cons line rest ih => rw [List.flatten_cons, showable_append_iff, ih, List.forall_mem_cons]

/-- That a text cannot be written out is no answer of the operating system. -/
theorem isAnswer_of_encode {t : Text} {failure : Failure} (h : t.encode = .error failure) :
    failure.isAnswer = false := by
  unfold encode at h
  cases hbytes : t.encodeWith (fun _ => none) 0 with
  | ok bytes => rw [hbytes] at h; cases h
  | error fault =>
    rw [hbytes] at h
    cases h
    rfl

/-- The text can be given to the operating system. -/
def Askable (t : Text) : Prop := ∃ bytes, t.toSystem = .ok bytes

/-- Nor is it one that a text cannot be given to the operating system. -/
theorem isAnswer_of_toSystem {t : Text} {failure : Failure} (h : t.toSystem = .error failure) :
    failure.isAnswer = false := by
  unfold toSystem at h
  split at h
  · cases h
    rfl
  · split at h
    · cases h
      rfl
    · cases h

theorem not_askable_of_nul {t : Text} (h : .char nul ∈ t) : ¬ t.Askable := by
  rintro ⟨bytes, hbytes⟩
  exact (toSystem_eq_ok_iff.mp hbytes).2 h

theorem not_askable_iff {t : Text} : ¬ t.Askable ↔ ∃ failure, t.toSystem = .error failure := by
  unfold Askable
  cases t.toSystem <;> simp

instance (t : Text) : Decidable t.Askable :=
  match h : t.toSystem with
  | .ok bytes => isTrue ⟨bytes, h⟩
  | .error failure => isFalse (not_askable_iff.mpr ⟨failure, h⟩)

theorem showable_reason_system (error : Errno) (path : Text) :
    (Failure.system error path).reason.Showable := by
  cases error <;> exact showable_ofChars _

/-- Why a text has no bytes can be told. -/
theorem showable_message (fault : Unencodable) : fault.message.Showable := by
  have hchars : ∀ s : String, s.toText.Showable := fun s => showable_ofChars s.toList
  rw [Unencodable.message]
  split <;> simp only [showable_append_iff, hchars, showable_ofChars, and_self]

/-- Why a text cannot be given to the operating system can be told. -/
theorem showable_reason_of_toSystem {t : Text} {failure : Failure} (h : t.toSystem = .error failure) :
    failure.reason.Showable := by
  unfold toSystem at h
  split at h
  · cases h
    exact showable_message _
  · split at h
    · cases h
      exact showable_ofChars _
    · cases h

/-- Texts in a row can be given to the operating system exactly if all of them can. -/
theorem toSystem_append_eq_ok_iff {t u : Text} {data : Bytes} : (t ++ u).toSystem = .ok data ↔
    ∃ front back, t.toSystem = .ok front ∧ u.toSystem = .ok back ∧ front ++ back = data := by
  simp only [toSystem_eq_ok_iff, encodes_append_iff, List.mem_append, not_or]
  constructor
  · rintro ⟨⟨front, back, hfront, hback, rfl⟩, hnul, hnul'⟩
    exact ⟨front, back, ⟨hfront, hnul⟩, ⟨hback, hnul'⟩, rfl⟩
  · rintro ⟨front, back, ⟨hfront, hnul⟩, ⟨hback, hnul'⟩, rfl⟩
    exact ⟨⟨front, back, hfront, hback, rfl⟩, hnul, hnul'⟩

theorem askable_append_iff {t u : Text} : (t ++ u).Askable ↔ t.Askable ∧ u.Askable := by
  simp only [Askable, toSystem_append_eq_ok_iff]
  constructor
  · rintro ⟨_, front, back, hfront, hback, -⟩
    exact ⟨⟨front, hfront⟩, ⟨back, hback⟩⟩
  · rintro ⟨⟨front, hfront⟩, ⟨back, hback⟩⟩
    exact ⟨_, front, back, hfront, hback, rfl⟩

theorem toSystem_eq_ok_nil_iff {t : Text} : t.toSystem = .ok [] ↔ t = [] := by
  rw [toSystem_eq_ok_iff]
  constructor
  · rintro ⟨hbytes, -⟩
    generalize hdata : ([] : Bytes) = data at hbytes
    cases hbytes with
    | nil => rfl
    | char c hrest =>
      have hlength := congrArg List.length hdata
      rw [List.length_append, String.length_utf8EncodeChar] at hlength
      have hpos := c.utf8Size_pos
      simp only [List.length_nil] at hlength
      omega
    | surrogate => cases hdata
  · rintro rfl
    exact ⟨.nil, by simp⟩

theorem Askable.suffix {t u : Text} (h : t.Askable) (hu : u <:+ t) : u.Askable := by
  obtain ⟨front, rfl⟩ := hu
  exact (askable_append_iff.mp h).2

/-- The text is one by which the operating system's bytes are known. -/
def Canonical (t : Text) : Prop := ∃ bytes, t = .ofSystem bytes

theorem ofSystem_encode (cs : List Char) : ofSystem (Utf8.encode cs) = .ofChars cs := by
  have hparts := Utf8.parts_encode_append cs []
  rw [List.append_nil] at hparts
  rw [ofSystem, hparts]
  show (cs.map Utf8.Part.char ++ []).flatMap Utf8.Part.toText = _
  rw [List.append_nil, List.flatMap_map]
  exact List.map_eq_flatMap.symm

theorem canonical_ofChars (cs : List Char) : (ofChars cs).Canonical :=
  ⟨Utf8.encode cs, (ofSystem_encode cs).symm⟩

end Text

end LineShell

import Mathlib.Algebra.Group.Nat.Defs
import LineShell.Text.Utf8

/-!
# Bytes that are read back

A character is written as a byte that tells how many more follow, and then one byte for every six
bits that are left.  Reading collects the bits again: `partsAfter_continuation`.  Main statements:
`decode_encode`, characters are read back from their bytes; `WellFormed.decode_append`, the bytes of
characters are read by themselves, whatever comes behind them; and `flatMap_bytes_parts`, the parts
into which any bytes fall make up these bytes again.
-/

namespace LineShell

namespace Utf8

theorem partsAfter_cons (begun : Option Begun) (byte : UInt8) (rest : Bytes) :
    partsAfter begun (byte :: rest) =
      (step begun byte.toNat).1 ++ partsAfter (step begun byte.toNat).2 rest := by
  cases begun <;> rfl

theorem partsAfter_ofNat_cons (begun : Option Begun) {b : Nat} (hb : b < 256) (rest : Bytes) :
    partsAfter begun (UInt8.ofNat b :: rest) =
      (step begun b).1 ++ partsAfter (step begun b).2 rest := by
  rw [partsAfter_cons, UInt8.toNat_ofNat_of_lt' hb]

/-- A byte in the range that a begun character asks for adds six bits to it. -/
theorem step_of_range {begun : Begun} {b : Nat} (hlow : begun.low ≤ b) (hhigh : b ≤ begun.high) :
    step (some begun) b =
      if begun.wants ≤ 1 then ([.char (Char.ofNat (begun.bits * 0x40 + b % 0x40))], none)
      else ([], some { seen := begun.seen ++ [UInt8.ofNat b], wants := begun.wants - 1
                       bits := begun.bits * 0x40 + b % 0x40 }) := by
  simp only [step, hlow, hhigh, decide_true, Bool.and_self, if_true]

section

variable {v : Nat}

def continuation (v : Nat) : Nat → Bytes
  | 0 => []
  | n + 1 => UInt8.ofNat (v / 64 ^ n % 64 + 128) :: continuation v n

theorem bits_continuation (v n : Nat) :
    v / 64 ^ (n + 1) * 64 + (v / 64 ^ n % 64 + 128) % 64 = v / 64 ^ n := by
  rw [Nat.pow_succ, ← Nat.div_div_eq_div_mul]
  omega

/-- The groups that follow complete a character of which the bits in front of them are known. -/
theorem partsAfter_continuation (n : Nat) (seen rest : Bytes) {low high : Nat}
    (hlow : low ≤ v / 64 ^ n % 64 + 128) (hhigh : v / 64 ^ n % 64 + 128 ≤ high) :
    partsAfter (some { seen, wants := n + 1, bits := v / 64 ^ (n + 1), low, high })
      (continuation v (n + 1) ++ rest) = .char (Char.ofNat v) :: partsAfter none rest := by
  induction n generalizing seen low high with
  | zero =>
    rw [continuation, List.cons_append, partsAfter_ofNat_cons _ (by omega),
      step_of_range hlow hhigh,
      bits_continuation]
    simp [continuation]
  | succ n ih =>
    -- Behind the first group the range is that of all groups of six bits.
    have hlow' : 0x80 ≤ v / 64 ^ n % 64 + 128 := by omega
    have hhigh' : v / 64 ^ n % 64 + 128 ≤ 0xBF := by omega
    have hrest := ih (seen ++ [UInt8.ofNat (v / 64 ^ (n + 1) % 64 + 128)]) hlow' hhigh'
    rw [continuation, List.cons_append, partsAfter_ofNat_cons _ (by omega),
      step_of_range hlow hhigh,
      bits_continuation]
    simpa using hrest

theorem partsAfter_lead {n : Nat} {b low high : Nat} {seen : Bytes} (hb : b < 256) (rest : Bytes)
    (hlead : lead b = ([], some { seen, wants := n + 1, bits := v / 64 ^ (n + 1), low, high }))
    (hlow : low ≤ v / 64 ^ n % 64 + 128) (hhigh : v / 64 ^ n % 64 + 128 ≤ high) :
    partsAfter none (UInt8.ofNat b :: continuation v (n + 1) ++ rest) =
      .char (Char.ofNat v) :: partsAfter none rest := by
  rw [List.cons_append, partsAfter_ofNat_cons _ hb, step, hlead]
  exact partsAfter_continuation n seen rest hlow hhigh

theorem lead_two (hlow : 0x7F < v) (hhigh : v ≤ 0x7FF) :
    lead (v / 64 % 32 + 192) =
      ([], some { seen := [UInt8.ofNat (v / 64 % 32 + 192)], wants := 1, bits := v / 64 ^ 1 }) := by
  have hbits : (v / 64 % 32 + 192) % 0x20 = v / 64 ^ 1 := by omega
  rw [lead, if_neg (by omega), if_neg (by omega), if_pos (by omega), hbits]

theorem lead_three (hlow : 0x7FF < v) (hhigh : v ≤ 0xFFFF) :
    lead (v / 4096 % 16 + 224) = ([], some
      { seen := [UInt8.ofNat (v / 4096 % 16 + 224)], wants := 2, bits := v / 64 ^ 2
        low := if v / 4096 = 0 then 0xA0 else 0x80
        high := if v / 4096 = 13 then 0x9F else 0xBF }) := by
  have hbits : (v / 4096 % 16 + 224) % 0x10 = v / 64 ^ 2 := by omega
  have hfirst : v / 4096 % 16 + 224 = 0xE0 ↔ v / 4096 = 0 := by omega
  have hsurrogate : v / 4096 % 16 + 224 = 0xED ↔ v / 4096 = 13 := by omega
  rw [lead, if_neg (by omega), if_neg (by omega), if_neg (by omega), if_pos (by omega), hbits]
  simp only [hfirst, hsurrogate]

theorem lead_four (hlow : 0xFFFF < v) (hhigh : v ≤ 0x10FFFF) :
    lead (v / 262144 % 8 + 240) = ([], some
      { seen := [UInt8.ofNat (v / 262144 % 8 + 240)], wants := 3, bits := v / 64 ^ 3
        low := if v / 262144 = 0 then 0x90 else 0x80
        high := if v / 262144 = 4 then 0x8F else 0xBF }) := by
  have hbits : (v / 262144 % 8 + 240) % 0x08 = v / 64 ^ 3 := by omega
  have hfirst : v / 262144 % 8 + 240 = 0xF0 ↔ v / 262144 = 0 := by omega
  have hlast : v / 262144 % 8 + 240 = 0xF4 ↔ v / 262144 = 4 := by omega
  rw [lead, if_neg (by omega), if_neg (by omega), if_neg (by omega), if_neg (by omega),
    if_pos (by omega), hbits]
  simp only [hfirst, hlast]

end

/-- The four forms of a character in bytes, by its code point. -/
theorem encodeChar_eq (c : Char) :
    String.utf8EncodeChar c =
      if c.val.toNat ≤ 0x7F then [UInt8.ofNat c.val.toNat]
      else if c.val.toNat ≤ 0x7FF then
        UInt8.ofNat (c.val.toNat / 64 % 32 + 192) :: continuation c.val.toNat 1
      else if c.val.toNat ≤ 0xFFFF then
        UInt8.ofNat (c.val.toNat / 4096 % 16 + 224) :: continuation c.val.toNat 2
      else UInt8.ofNat (c.val.toNat / 262144 % 8 + 240) :: continuation c.val.toNat 3 := by
  simp [String.utf8EncodeChar, continuation]

/-- A character is read back from its bytes. -/
theorem partsAfter_encodeChar (c : Char) (rest : Bytes) :
    partsAfter none (String.utf8EncodeChar c ++ rest) = .char c :: partsAfter none rest := by
  have hchar : Char.ofNat c.val.toNat = c := Char.ofNat_toNat c
  have hvalid : c.val.toNat < 0xD800 ∨ 0xDFFF < c.val.toNat ∧ c.val.toNat < 0x110000 := c.valid
  rw [encodeChar_eq]
  generalize c.val.toNat = v at hchar hvalid
  rw [← hchar]
  split
  · next hone =>
    have hlead : lead v = ([.char (Char.ofNat v)], none) := by rw [lead, if_pos (by omega)]
    rw [List.singleton_append, partsAfter_ofNat_cons _ (by omega), step, hlead]
    rfl
  split
  · next hone htwo =>
    have hlead := lead_two (by omega) htwo
    exact partsAfter_lead (by omega) rest hlead (by omega) (by omega)
  split
  · next hone htwo hthree =>
    -- The first group belongs neither to an overlong form nor to a surrogate.
    have hlead := lead_three (by omega) hthree
    exact partsAfter_lead (by omega) rest hlead (by split <;> omega) (by split <;> omega)
  · next hone htwo hthree =>
    have hlead := lead_four (Nat.lt_of_not_le hthree) (by omega)
    exact partsAfter_lead (by omega) rest hlead (by split <;> omega) (by split <;> omega)

/-- The bytes of characters are read by themselves, whatever comes behind them. -/
theorem parts_encode_append (cs : List Char) (rest : Bytes) :
    parts (encode cs ++ rest) = cs.map .char ++ parts rest := by
  induction cs with
  | nil => rfl
  | cons c cs ih =>
    rw [encode, List.flatMap_cons, List.append_assoc, parts, partsAfter_encodeChar]
    exact congrArg (Part.char c :: ·) ih

/-- Behind the bytes of characters decoding starts anew. -/
theorem decode_encode_append (cs : List Char) (rest : Bytes) :
    decode (encode cs ++ rest) = cs ++ decode rest := by
  have hreplaced : Part.replaced ∘ Part.char = id := rfl
  rw [decode, parts_encode_append, List.map_append, List.map_map, hreplaced, List.map_id, decode]

/-- Characters are read back from their bytes. -/
theorem decode_encode (cs : List Char) : decode (encode cs) = cs := by
  have h := decode_encode_append cs []
  rw [List.append_nil] at h
  exact h.trans (List.append_nil cs)

def WellFormed (data : Bytes) : Prop := ∃ cs, encode cs = data

theorem wellFormed_encode (cs : List Char) : WellFormed (encode cs) := ⟨cs, rfl⟩

/-- Bytes are those of characters exactly when reading and writing gives them back. -/
theorem wellFormed_iff {data : Bytes} : WellFormed data ↔ encode (decode data) = data := by
  constructor
  · rintro ⟨cs, rfl⟩
    rw [decode_encode]
  · exact fun h => ⟨decode data, h⟩

instance (data : Bytes) : Decidable (WellFormed data) := decidable_of_iff _ wellFormed_iff.symm

/-- Well-formed bytes are decoded apart from what stands behind them. -/
theorem WellFormed.decode_append {data : Bytes} (h : WellFormed data) (more : Bytes) :
    decode (data ++ more) = decode data ++ decode more := by
  obtain ⟨cs, rfl⟩ := h
  rw [decode_encode_append, decode_encode]

/-! ## Nothing is lost -/

def Part.bytes : Part → Bytes
  | .char c => String.utf8EncodeChar c
  | .illFormed bytes => bytes

def Part.High : Part → Prop
  | .char _ => True
  | .illFormed bytes => ∀ b ∈ bytes, 0x80 ≤ b.toNat

/-- What a begun character knows of itself: no byte of it stands for a character, and it is the
beginning of every character that has its bits and then a byte in its range. -/
structure Begun.Sound (begun : Begun) : Prop where
  wants : 0 < begun.wants
  seen : ∀ b ∈ begun.seen, 0x80 ≤ b.toNat
  low : 0x80 ≤ begun.low
  high : begun.high ≤ 0xBF
  begins : ∀ v, v / 64 ^ begun.wants = begun.bits →
    begun.low ≤ v / 64 ^ (begun.wants - 1) % 64 + 128 →
    v / 64 ^ (begun.wants - 1) % 64 + 128 ≤ begun.high →
    String.utf8EncodeChar (Char.ofNat v) = begun.seen ++ continuation v begun.wants

def seenBytes : Option Begun → Bytes
  | none => []
  | some begun => begun.seen

def Sound (begun : Option Begun) : Prop := ∀ b ∈ begun, b.Sound

@[simp] theorem sound_none : Sound none := fun _ h => nomatch h

@[simp] theorem sound_some_iff {begun : Begun} : Sound (some begun) ↔ begun.Sound := by
  simp [Sound]

theorem toNat_val_ofNat {v : Nat} (h : v < 0xD800 ∨ 0xDFFF < v ∧ v < 0x110000) :
    (Char.ofNat v).val.toNat = v := by
  have hvalid : v.isValidChar := h
  rw [Char.ofNat, dif_pos hvalid]
  rfl

/-- The first byte of two asks for any continuation. -/
theorem sound_two {b : UInt8} (hlow : 0xC2 ≤ b.toNat) (hhigh : b.toNat < 0xE0) :
    Begun.Sound { seen := [b], wants := 1, bits := b.toNat % 0x20 } where
  wants := Nat.one_pos
  seen := by simpa using Nat.le_trans (by decide) hlow
  low := Nat.le_refl 0x80
  high := Nat.le_refl 0xBF
  begins v hbits _ _ := by
    change v / 64 = b.toNat % 0x20 at hbits
    have hfirst : v / 64 % 32 + 192 = b.toNat := by omega
    rw [encodeChar_eq, toNat_val_ofNat (by omega), if_neg (by omega), if_pos (by omega), hfirst,
      UInt8.ofNat_toNat]
    rfl

/-- The first byte of three narrows the second, so that no code is overlong or a surrogate. -/
theorem sound_three {b : UInt8} (hlow : 0xE0 ≤ b.toNat) (hhigh : b.toNat < 0xF0) :
    Begun.Sound
      { seen := [b], wants := 2, bits := b.toNat % 0x10
        low := if b.toNat = 0xE0 then 0xA0 else 0x80
        high := if b.toNat = 0xED then 0x9F else 0xBF } where
  wants := Nat.two_pos
  seen := by simpa using Nat.le_trans (by decide) hlow
  low := by
    show 0x80 ≤ if b.toNat = 0xE0 then 0xA0 else 0x80
    split <;> decide
  high := by
    show (if b.toNat = 0xED then 0x9F else 0xBF) ≤ 0xBF
    split <;> decide
  begins v hbits hnext hnext' := by
    change v / 4096 = b.toNat % 0x10 at hbits
    change (if b.toNat = 0xE0 then 0xA0 else 0x80) ≤ v / 64 % 64 + 128 at hnext
    change v / 64 % 64 + 128 ≤ (if b.toNat = 0xED then 0x9F else 0xBF) at hnext'
    -- The next byte excludes the overlong forms and the surrogates.
    have hover : 0x7FF < v := by split at hnext <;> omega
    have hvalid : v < 0xD800 ∨ 0xDFFF < v := by split at hnext' <;> omega
    have hfirst : v / 4096 % 16 + 224 = b.toNat := by omega
    rw [encodeChar_eq, toNat_val_ofNat (by omega), if_neg (by omega), if_neg (by omega),
      if_pos (by omega), hfirst, UInt8.ofNat_toNat]
    rfl

/-- The first byte of four narrows the second, so that no code is overlong or too large. -/
theorem sound_four {b : UInt8} (hlow : 0xF0 ≤ b.toNat) (hhigh : b.toNat < 0xF5) :
    Begun.Sound
      { seen := [b], wants := 3, bits := b.toNat % 0x08
        low := if b.toNat = 0xF0 then 0x90 else 0x80
        high := if b.toNat = 0xF4 then 0x8F else 0xBF } where
  wants := Nat.succ_pos 2
  seen := by simpa using Nat.le_trans (by decide) hlow
  low := by
    show 0x80 ≤ if b.toNat = 0xF0 then 0x90 else 0x80
    split <;> decide
  high := by
    show (if b.toNat = 0xF4 then 0x8F else 0xBF) ≤ 0xBF
    split <;> decide
  begins v hbits hnext hnext' := by
    change v / 262144 = b.toNat % 0x08 at hbits
    change (if b.toNat = 0xF0 then 0x90 else 0x80) ≤ v / 4096 % 64 + 128 at hnext
    change v / 4096 % 64 + 128 ≤ (if b.toNat = 0xF4 then 0x8F else 0xBF) at hnext'
    have hover : 0xFFFF < v := by split at hnext <;> omega
    have hvalid : v < 0x110000 := by split at hnext' <;> omega
    have hfirst : v / 262144 % 8 + 240 = b.toNat := by omega
    rw [encodeChar_eq, toNat_val_ofNat (by omega), if_neg (by omega), if_neg (by omega),
      if_neg (by omega), hfirst, UInt8.ofNat_toNat]
    rfl

/-- What reading a byte keeps: the bytes so far make up the parts and the begun character, and the
bytes that stand for no character are high. -/
structure Keeps (before : Bytes) (b : UInt8) (after : List Part × Option Begun) : Prop where
  bytes : after.1.flatMap Part.bytes ++ seenBytes after.2 = before ++ [b]
  high : ∀ part ∈ after.1, part.High
  sound : Sound after.2

theorem Keeps.begun {b : UInt8} {begun : Begun} (hseen : begun.seen = [b]) (h : begun.Sound) :
    Keeps [] b ([], some begun) :=
  ⟨hseen, by simp, sound_some_iff.mpr h⟩

theorem Keeps.illFormed {b : UInt8} (h : 0x80 ≤ b.toNat) : Keeps [] b ([.illFormed [b]], none) :=
  ⟨rfl, by simpa [Part.High] using h, sound_none⟩

theorem keeps_lead (b : UInt8) : Keeps [] b (lead b.toNat) := by
  rw [lead, UInt8.ofNat_toNat]
  split
  · next h =>
    refine ⟨?_, by simp [Part.High], sound_none⟩
    have hbytes : String.utf8EncodeChar (Char.ofNat b.toNat) = [b] := by
      rw [encodeChar_eq, toNat_val_ofNat (by omega), if_pos (by omega), UInt8.ofNat_toNat]
    simpa [Part.bytes, seenBytes] using hbytes
  split
  · next h _ => exact Keeps.illFormed (Nat.le_of_not_lt h)
  split
  · next h hhigh => exact Keeps.begun rfl (sound_two (Nat.le_of_not_lt h) hhigh)
  split
  · next h hhigh => exact Keeps.begun rfl (sound_three (Nat.le_of_not_lt h) hhigh)
  split
  · next h hhigh => exact Keeps.begun rfl (sound_four (Nat.le_of_not_lt h) hhigh)
  · next h => exact Keeps.illFormed (Nat.le_trans (by decide) (Nat.le_of_not_lt h))

/-- A byte in the range completes the begun character or leaves a longer beginning of it. -/
theorem Begun.Sound.keeps_of_range {begun : Begun} (hsound : begun.Sound) {b : UInt8}
    (hlow : begun.low ≤ b.toNat) (hhigh : b.toNat ≤ begun.high) :
    Keeps begun.seen b (step (some begun) b.toNat) := by
  obtain ⟨hwants, hseen, hmin, hmax, hbegins⟩ := hsound
  rw [step_of_range hlow hhigh, UInt8.ofNat_toNat]
  have hbyte : b.toNat % 64 + 128 = b.toNat := by omega
  obtain ⟨n, hn⟩ := Nat.exists_eq_succ_of_ne_zero (Nat.ne_of_gt hwants)
  have hpred : begun.wants - 1 = n := by rw [hn, Nat.succ_sub_one]
  rw [hpred, hn] at hbegins
  -- A character with the bits behind the byte has the bits in front of it and the byte next.
  have hnext : ∀ v, v / 64 ^ n = begun.bits * 0x40 + b.toNat % 0x40 →
      String.utf8EncodeChar (Char.ofNat v) = begun.seen ++ [b] ++ continuation v n := by
    intro v hv
    have hbits : v / 64 ^ (n + 1) = begun.bits := by
      rw [Nat.pow_succ, ← Nat.div_div_eq_div_mul, hv]
      omega
    have hgroup : v / 64 ^ n % 64 + 128 = b.toNat := by omega
    rw [hbegins v hbits (by omega) (by omega), Nat.succ_eq_add_one, continuation, hgroup,
      UInt8.ofNat_toNat, List.append_assoc, List.singleton_append]
  split
  · next hone =>
    have hzero : n = 0 := by omega
    subst hzero
    have hbytes := hnext (begun.bits * 0x40 + b.toNat % 0x40) (Nat.div_one _)
    refine ⟨?_, by simp [Part.High], sound_none⟩
    simpa [Part.bytes, seenBytes, continuation] using hbytes
  · next hmore =>
    refine ⟨rfl, by simp, ?_⟩
    have hsound : Begun.Sound
        { seen := begun.seen ++ [b], wants := n, bits := begun.bits * 0x40 + b.toNat % 0x40 } :=
      { wants := by
          show 0 < n
          omega
        seen := by
          intro x hx
          rcases List.mem_append.mp hx with hx | hx
          · exact hseen x hx
          · rw [List.mem_singleton.mp hx]
            omega
        low := Nat.le_refl 0x80
        high := Nat.le_refl 0xBF
        begins := fun v hv _ _ => hnext v hv }
    rw [hpred]
    exact sound_some_iff.mpr hsound

/-- No byte is lost by a step. -/
theorem keeps_step {begun : Option Begun} (h : Sound begun) (b : UInt8) :
    Keeps (seenBytes begun) b (step begun b.toNat) := by
  cases begun with
  | none => exact keeps_lead b
  | some begun =>
    have hsound := sound_some_iff.mp h
    by_cases hrange : begun.low ≤ b.toNat ∧ b.toNat ≤ begun.high
    · exact hsound.keeps_of_range hrange.1 hrange.2
    · have hstep : step (some begun) b.toNat =
          (.illFormed begun.seen :: (lead b.toNat).1, (lead b.toNat).2) := by
        rw [step, if_neg (by simpa using hrange)]
      have hlead := keeps_lead b
      rw [hstep]
      refine ⟨?_, ?_, hlead.sound⟩
      · rw [List.flatMap_cons, List.append_assoc, hlead.bytes]
        rfl
      · intro part hpart
        rcases List.mem_cons.mp hpart with rfl | hpart
        · exact hsound.seen
        · exact hlead.high part hpart

/-- No byte is lost by reading, and what stands for no character is high. -/
theorem partsAfter_keeps (bytes : Bytes) {begun : Option Begun} (h : Sound begun) :
    (partsAfter begun bytes).flatMap Part.bytes = seenBytes begun ++ bytes ∧
      ∀ part ∈ partsAfter begun bytes, part.High := by
  -- Induction on the bytes, over every sequence that may have begun in front of them.
  induction bytes generalizing begun with
  | nil =>
    cases begun with
    | none => exact ⟨rfl, by simp [partsAfter]⟩
    | some begun =>
      have hsound := sound_some_iff.mp h
      exact ⟨by simp [partsAfter, Part.bytes, seenBytes],
        by simpa [partsAfter, Part.High] using hsound.seen⟩
  | cons b rest ih =>
    have hstep := keeps_step h b
    obtain ⟨hbytes, hhigh⟩ := ih hstep.sound
    rw [partsAfter_cons]
    constructor
    · rw [List.flatMap_append, hbytes, ← List.append_assoc, hstep.bytes, List.append_assoc,
        List.singleton_append]
    · intro part hpart
      rcases List.mem_append.mp hpart with hpart | hpart
      · exact hstep.high part hpart
      · exact hhigh part hpart

/-- The parts into which bytes fall make up these bytes again. -/
theorem flatMap_bytes_parts (bytes : Bytes) : (parts bytes).flatMap Part.bytes = bytes :=
  (partsAfter_keeps bytes sound_none).1

/-- A byte that is no part of a character is none that is a character by itself. -/
theorem high_of_mem_parts {bytes : Bytes} {part : Part} (h : part ∈ parts bytes) : part.High :=
  (partsAfter_keeps bytes sound_none).2 part h

end Utf8

end LineShell

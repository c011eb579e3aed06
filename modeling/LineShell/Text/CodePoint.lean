/-!
# Code points and texts

A text is a list of code points.  Most of them are characters.  The others are surrogates without a
partner: they stand for bytes that are no part of a character, or for nothing at all, and a text
that holds one cannot be written as UTF-8.
-/

namespace LineShell

inductive CodePoint
  | char (c : Char)
  /-- The surrogate whose code is `n` above U+D800. -/
  | surrogate (n : Fin 0x800)
  deriving Repr, DecidableEq

abbrev Text := List CodePoint

namespace CodePoint

instance : Coe Char CodePoint := ⟨char⟩

def toNat : CodePoint → Nat
  | char c => c.toNat
  | surrogate n => 0xD800 + n.val

def isSurrogate : CodePoint → Bool
  | char _ => false
  | surrogate _ => true

def map (f : Char → Char) : CodePoint → CodePoint
  | char c => char (f c)
  | surrogate n => surrogate n

@[simp] theorem toNat_char (c : Char) : (char c).toNat = c.toNat := rfl

/-- No character has the code of a surrogate, so code points are told apart by their codes. -/
theorem toNat_inj {c d : CodePoint} : c.toNat = d.toNat ↔ c = d := by
  refine ⟨fun h => ?_, fun h => congrArg toNat h⟩
  have hvalid : ∀ c : Char, c.toNat < 0xD800 ∨ 0xDFFF < c.toNat := by
    intro c
    have h := c.valid
    simp only [UInt32.isValidChar, Nat.isValidChar] at h
    exact h.imp_right And.left
  cases c with
  | char c =>
    cases d with
    | char d => exact congrArg char (Char.toNat_inj.mp h)
    | surrogate n =>
      have hn := n.isLt
      simp only [toNat] at h
      exact absurd (hvalid c) (by omega)
  | surrogate n =>
    have hn := n.isLt
    cases d with
    | char d =>
      simp only [toNat] at h
      exact absurd (hvalid d) (by omega)
    | surrogate k => exact congrArg surrogate (Fin.ext (Nat.add_left_cancel h))

/-! Code points are ordered by their codes. -/

instance : LE CodePoint := ⟨fun c d => c.toNat ≤ d.toNat⟩

instance : LT CodePoint := ⟨fun c d => c.toNat < d.toNat⟩

instance : DecidableLE CodePoint := fun c d => inferInstanceAs (Decidable (c.toNat ≤ d.toNat))

instance : DecidableLT CodePoint := fun c d => inferInstanceAs (Decidable (c.toNat < d.toNat))

instance : Std.IsLinearOrder CodePoint where
  le_refl c := Nat.le_refl c.toNat
  le_trans _ _ _ := Nat.le_trans
  le_antisymm _ _ h h' := toNat_inj.mp (Nat.le_antisymm h h')
  le_total c d := Nat.le_total c.toNat d.toNat

instance : Std.LawfulOrderLT CodePoint where
  lt_iff _ _ := Nat.lt_iff_le_and_not_ge

end CodePoint

namespace Text

def ofChars (cs : List Char) : Text := cs.map CodePoint.char

def chars? : Text → Option (List Char)
  | [] => some []
  | .char c :: rest => (chars? rest).map (c :: ·)
  | .surrogate _ :: _ => none

@[simp] theorem ofChars_nil : ofChars [] = [] := rfl

@[simp] theorem ofChars_cons (c : Char) (cs : List Char) :
    ofChars (c :: cs) = .char c :: ofChars cs :=
  rfl

@[simp] theorem ofChars_append (cs ds : List Char) :
    ofChars (cs ++ ds) = ofChars cs ++ ofChars ds :=
  List.map_append

theorem chars?_eq_some_iff {t : Text} {cs : List Char} : t.chars? = some cs ↔ t = ofChars cs := by
  induction t generalizing cs with
  | nil => cases cs <;> simp [chars?]
  | cons c rest ih =>
    cases c with
    | char c =>
      rw [chars?, Option.map_eq_some_iff]
      constructor
      · rintro ⟨ds, hds, rfl⟩
        rw [ih.mp hds, ofChars_cons]
      · intro h
        cases cs with
        | nil => cases h
        | cons d ds =>
          obtain ⟨hc, hrest⟩ := List.cons.inj h
          exact ⟨ds, ih.mpr hrest, by rw [CodePoint.char.inj hc]⟩
    | surrogate n => cases cs <;> simp [chars?]

end Text

end LineShell

def String.toText (s : String) : LineShell.Text := .ofChars s.toList

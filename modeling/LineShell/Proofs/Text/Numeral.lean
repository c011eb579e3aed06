import Mathlib.Data.List.TakeWhile
import LineShell.Text.Numeral

/-!
# Numerals that are read back

Every integer is read back from its numeral, as long as the numeral has no more digits than are
read: `parse?_render`.  A text that holds anything but digits, blanks, signs and underscores denotes
no integer: `parse?_of_foreign`.
-/

namespace LineShell

/-- The digits of ASCII are the first of all sets. -/
theorem digitValue?_of_isDigit {c : Char} (h : c.isDigit = true) :
    digitValue? (.char c) = some (c.toNat - '0'.toNat) := by
  obtain ⟨hlow, hhigh⟩ : 0x30 ≤ c.toNat ∧ c.toNat ≤ 0x39 := by
    simpa [Char.isDigit, UInt32.le_iff_toNat_le] using h
  rw [digitValue?, zeroCodes, List.find?_cons_of_pos]
  · rfl
  · show (decide (0x30 ≤ c.toNat) && decide (c.toNat ≤ 0x30 + 9)) = true
    rw [decide_eq_true hlow, decide_eq_true hhigh, Bool.and_self]

namespace Numeral

/-! ## Numerals in the digits of ASCII -/

section

variable {ds : List Char}

theorem digitsAfter_of_isDigit (h : ∀ c ∈ ds, c.isDigit = true) :
    digitsAfter (.ofChars ds) = some (ds.map fun c => c.toNat - '0'.toNat) := by
  induction ds with
  | nil => rfl
  | cons c rest ih =>
    obtain ⟨hc, hrest⟩ := List.forall_mem_cons.mp h
    have hunderscore : CodePoint.char c ≠ .char '_' := by
      rintro ⟨⟩
      cases hc
    rw [Text.ofChars_cons, digitsAfter.eq_def]
    simp only [if_neg hunderscore, digitValue?_of_isDigit hc, ih hrest]
    rfl

theorem digits?_of_isDigit (h : ∀ c ∈ ds, c.isDigit = true) (hne : ds ≠ []) :
    digits? (.ofChars ds) = some (ds.map fun c => c.toNat - '0'.toNat) := by
  cases ds with
  | nil => exact absurd rfl hne
  | cons c rest =>
    obtain ⟨hc, hrest⟩ := List.forall_mem_cons.mp h
    simp only [Text.ofChars_cons, digits?, digitValue?_of_isDigit hc, digitsAfter_of_isDigit hrest]
    rfl

/-- The value of digits is the number that they write. -/
theorem value_map (ds : List Char) :
    value (ds.map fun c => c.toNat - '0'.toNat) = Nat.ofDigitChars 10 ds 0 := by
  rw [value, List.foldl_map, Nat.ofDigitChars_eq_foldl]

theorem isDigit_of_mem_toDigits {n : Nat} : ∀ c ∈ Nat.toDigits 10 n, c.isDigit = true :=
  fun _ => Nat.isDigit_of_mem_toDigits (by decide) (by decide)

theorem magnitude?_toDigits (n : Nat) : magnitude? (.ofChars (Nat.toDigits 10 n)) =
    if (Nat.toDigits 10 n).length ≤ maxDigits then some n else none := by
  have hvalue : value ((Nat.toDigits 10 n).map fun c => c.toNat - '0'.toNat) = n := by
    rw [value_map, Nat.ofDigitChars_ten_toDigits]
  simp only [magnitude?, digits?_of_isDigit isDigit_of_mem_toDigits Nat.toDigits_ne_nil]
  simp only [bind, Option.bind, List.length_map, hvalue]

theorem signed?_toDigits (n : Nat) : signed? (.ofChars (Nat.toDigits 10 n)) =
    (magnitude? (.ofChars (Nat.toDigits 10 n))).map fun n => (n : Int) := by
  cases hdigits : Nat.toDigits 10 n with
  | nil => exact absurd hdigits Nat.toDigits_ne_nil
  | cons c rest =>
    have hc : c.isDigit = true := by
      apply isDigit_of_mem_toDigits (n := n)
      rw [hdigits]
      exact List.mem_cons_self
    have hminus : CodePoint.char c ≠ .char '-' := by
      rintro ⟨⟩
      cases hc
    have hplus : CodePoint.char c ≠ .char '+' := by
      rintro ⟨⟩
      cases hc
    rw [Text.ofChars_cons, signed?, if_neg hminus, if_neg hplus]

end

/-- An integer has digits, and a sign if it is negative. -/
theorem mem_render {n : Int} {c : Char} (h : c ∈ render n) : c = '-' ∨ c.isDigit = true := by
  unfold render at h
  split at h
  · rcases List.mem_cons.mp h with hc | hc
    · exact .inl hc
    · exact .inr (isDigit_of_mem_toDigits c hc)
  · exact .inr (isDigit_of_mem_toDigits c h)

theorem render_ne_nil (n : Int) : render n ≠ [] := by
  unfold render
  split
  · exact List.cons_ne_nil _ _
  · exact Nat.toDigits_ne_nil

theorem not_isBlank_of_mem_render {n : Int} {c : CodePoint} (h : c ∈ Text.ofChars (render n)) :
    isBlank c = false := by
  obtain ⟨c, hmem, rfl⟩ := List.mem_map.mp h
  rcases mem_render hmem with rfl | hc
  · decide
  · obtain ⟨hlow, hhigh⟩ : 0x30 ≤ c.toNat ∧ c.toNat ≤ 0x39 := by
      simpa [Char.isDigit, UInt32.le_iff_toNat_le] using hc
    rw [isBlank, inRanges, List.any_eq_false, CodePoint.toNat_char]
    intro range hrange
    simp only [blankRanges, List.mem_cons, List.not_mem_nil, or_false] at hrange
    simp only [Bool.and_eq_true, decide_eq_true_eq]
    rcases hrange with rfl | rfl | rfl | rfl | rfl | rfl | rfl | rfl | rfl | rfl <;> omega

/-- The numeral of an integer is read as the integer unless it has too many digits. -/
theorem signed?_render (n : Int) : signed? (.ofChars (render n)) =
    if (Nat.toDigits 10 n.natAbs).length ≤ maxDigits then some n else none := by
  unfold render
  split
  · next hneg =>
    have habs : -(n.natAbs : Int) = n := by omega
    rw [Text.ofChars_cons, signed?, if_pos rfl, magnitude?_toDigits]
    split
    · exact congrArg some habs
    · rfl
  · next hneg =>
    have habs : (n.natAbs : Int) = n := by omega
    rw [signed?_toDigits, magnitude?_toDigits]
    split
    · exact congrArg some habs
    · rfl

/-! ## Blanks around a numeral -/

def strip (t : Text) : Text := ((t.dropWhile isPadding).reverse.dropWhile isPadding).reverse

section

variable {t : Text}

theorem isPadding_of_not_isBlank {c : CodePoint} (h : isBlank c = false) : isPadding c = false := by
  rw [isPadding, h, Bool.false_and]

theorem dropWhile_isPadding (h : ∀ c ∈ t, isBlank c = false) : t.dropWhile isPadding = t := by
  apply List.dropWhile_eq_self_iff.mpr
  intro hpos
  rw [isPadding_of_not_isBlank (h _ (List.getElem_mem hpos))]
  exact Bool.false_ne_true

theorem strip_of_not_isBlank (h : ∀ c ∈ t, isBlank c = false) : strip t = t := by
  have hreverse : ∀ c ∈ t.reverse, isBlank c = false := fun c hc => h c (List.mem_reverse.mp hc)
  rw [strip, dropWhile_isPadding h, dropWhile_isPadding hreverse, List.reverse_reverse]

theorem mem_dropWhile_isPadding {c : CodePoint} (h : c ∈ t) (hc : isBlank c = false) :
    c ∈ t.dropWhile isPadding := by
  rw [← List.takeWhile_append_dropWhile (p := isPadding) (l := t), List.mem_append] at h
  rcases h with htaken | hleft
  · have hpadding := List.mem_takeWhile_imp htaken
    rw [isPadding_of_not_isBlank hc] at hpadding
    cases hpadding
  · exact hleft

theorem mem_strip {c : CodePoint} (h : c ∈ t) (hc : isBlank c = false) : c ∈ strip t := by
  have hleft := mem_dropWhile_isPadding h hc
  exact List.mem_reverse.mpr (mem_dropWhile_isPadding (List.mem_reverse.mpr hleft) hc)

end

/-- An integer is read back from its numeral, unless it has more digits than are read. -/
theorem parse?_render (n : Int) : parse? (.ofChars (render n)) =
    if (Nat.toDigits 10 n.natAbs).length ≤ maxDigits then some n else none := by
  have hstrip : strip (.ofChars (render n)) = .ofChars (render n) :=
    strip_of_not_isBlank fun c hc => not_isBlank_of_mem_render hc
  rw [← signed?_render, parse?]
  exact congrArg signed? hstrip

/-! ## Texts that are no numerals -/

/-- The character stands in no numeral, nor beside one. -/
def Foreign (c : CodePoint) : Prop :=
  digitValue? c = none ∧ isBlank c = false ∧ c ∉ [.char '+', .char '-', .char '_']

instance (c : CodePoint) : Decidable (Foreign c) := inferInstanceAs (Decidable (_ ∧ _ ∧ _))

section

variable {t : Text} {c : CodePoint}

theorem digitsAfter_of_foreign (hc : Foreign c) (h : c ∈ t) : digitsAfter t = none := by
  fun_induction digitsAfter t with
  | case1 => cases h
  | case2 => rfl
  | case3 d rest ih =>
    have hunderscore : c ≠ '_' := by
      rintro rfl
      exact hc.2.2 (by decide)
    rcases List.mem_cons.mp ((List.mem_cons.mp h).resolve_left hunderscore) with rfl | hrest
    · rw [hc.1]
      rfl
    · rw [ih hrest]
      cases digitValue? d <;> rfl
  | case4 d rest hd ih =>
    rcases List.mem_cons.mp h with rfl | hrest
    · rw [hc.1]
      rfl
    · rw [ih hrest]
      cases digitValue? d <;> rfl

theorem magnitude?_of_foreign (hc : Foreign c) (h : c ∈ t) : magnitude? t = none := by
  have hdigits : digits? t = none := by
    cases t with
    | nil => rfl
    | cons d rest =>
      rw [digits?]
      rcases List.mem_cons.mp h with rfl | hrest
      · rw [hc.1]
        rfl
      · rw [digitsAfter_of_foreign hc hrest]
        cases digitValue? d <;> rfl
  rw [magnitude?, hdigits]
  rfl

theorem signed?_of_foreign (hc : Foreign c) (h : c ∈ t) : signed? t = none := by
  cases t with
  | nil => rfl
  | cons d rest =>
    -- A sign is not the character that is foreign, so that stands behind it.
    have hrest : d ∈ [.char '+', .char '-'] → c ∈ rest := by
      intro hd
      rcases List.mem_cons.mp h with rfl | hrest
      · exact absurd (List.mem_append_left [CodePoint.char '_'] hd) hc.2.2
      · exact hrest
    rw [signed?]
    split
    · next hminus => rw [magnitude?_of_foreign hc (hrest (by simp [hminus]))]; rfl
    split
    · next hplus => rw [magnitude?_of_foreign hc (hrest (by simp [hplus]))]; rfl
    · rw [magnitude?_of_foreign hc h]; rfl

/-- A text that holds a foreign character denotes no integer. -/
theorem parse?_of_foreign (hc : Foreign c) (h : c ∈ t) : parse? t = none :=
  signed?_of_foreign hc (mem_strip h hc.2.1)

end

end Numeral

end LineShell

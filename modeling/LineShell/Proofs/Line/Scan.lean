import LineShell.Line.Scanner

/-!
# Where a scan ends

A text is refused by strict reading when its scan ends inside a quote, and by nothing else.  Main
statements: `readWords_true_eq_error_iff` and `readWords_true_eq_ok_iff`.
-/

namespace LineShell

def endMode (t : Text) : ScanMode := (Scanner.start.run t).2.mode

theorem ScanMode.openQuote_eq_none_iff {mode : ScanMode} :
    mode.openQuote = none ↔ mode = .bare ∨ mode = .bareEscape := by
  cases mode <;> simp [openQuote]

/-- The mode behind a backslash that is met in a mode, where the next character decides on it. -/
def ScanMode.behindBackslash : ScanMode → Option ScanMode
  | .bare => some .bareEscape
  | .double => some .doubleEscape
  | _ => none

theorem ScanMode.behindBackslash_eq_bareEscape_iff {mode : ScanMode} :
    mode.behindBackslash = some .bareEscape ↔ mode = .bare := by
  cases mode <;> simp [behindBackslash]

theorem ScanMode.behindBackslash_eq_doubleEscape_iff {mode : ScanMode} :
    mode.behindBackslash = some .doubleEscape ↔ mode = .double := by
  cases mode <;> simp [behindBackslash]

theorem wordsOf_eq (t : Text) :
    wordsOf t = (Scanner.start.run t).1 ++ (Scanner.start.run t).2.word.toList := rfl

theorem run_of_endMode {t : Text} {mode : ScanMode} (h : endMode t = mode) :
    Scanner.start.run t =
      ((Scanner.start.run t).1, { mode, word := (Scanner.start.run t).2.word }) := by
  rw [← h, endMode]

/-! ## Strict and lenient reading -/

/-- Strict reading fails exactly if a quote is open at the end. -/
theorem readWords_true_eq_error_iff {t : Text} {quote : Quote} :
    readWords true t = .error (.unterminated quote) ↔ (endMode t).openQuote = some quote := by
  unfold readWords endMode
  cases (Scanner.start.run t).2.mode.openQuote <;> simp

/-- Otherwise it reads the words of the text. -/
theorem readWords_true_eq_ok_iff {t : Text} {ws : List Text} :
    readWords true t = .ok ws ↔ (endMode t).openQuote = none ∧ wordsOf t = ws := by
  unfold readWords endMode
  cases (Scanner.start.run t).2.mode.openQuote <;> simp

theorem readWords_of_openQuote_eq_none {t : Text} (strict : Bool)
    (h : (endMode t).openQuote = none) : readWords strict t = .ok (wordsOf t) := by
  unfold endMode at h
  cases strict <;> simp [readWords, h]

theorem readWords_of_endMode_eq_bare {t : Text} (strict : Bool) (h : endMode t = .bare) :
    readWords strict t = .ok (wordsOf t) := by
  apply readWords_of_openQuote_eq_none
  rw [h, ScanMode.openQuote]

/-- What strict reading makes of a scan that is known to its end. -/
theorem readWords_true_of_run {t : Text} {front : List Text} {s : Scanner}
    (hrun : Scanner.start.run t = (front, s)) (hquote : s.mode.openQuote = none) :
    readWords true t = .ok (front ++ s.word.toList) := by
  have hmode : endMode t = s.mode := by rw [endMode, hrun]
  rw [readWords_of_openQuote_eq_none true (by rw [hmode, hquote]), wordsOf, hrun]

/-! ## A backslash at the end -/

/-- A backslash at the end of a text is still to be decided on and goes into no word. -/
theorem append_backslash {t : Text} {mode : ScanMode}
    (h : (endMode t).behindBackslash = some mode) :
    endMode (t ++ [.char '\\']) = mode ∧ wordsOf (t ++ [.char '\\']) = wordsOf t := by
  have hstep : (Scanner.start.run t).2.step '\\' =
      (none, { mode, word := (Scanner.start.run t).2.word }) := by
    rw [endMode] at h
    generalize (Scanner.start.run t).2 = s at h ⊢
    obtain ⟨before, word⟩ := s
    cases before <;> simp_all [ScanMode.behindBackslash, Scanner.step]
  rw [endMode, wordsOf_eq, wordsOf_eq, Scanner.run_append, Scanner.run_cons, hstep]
  simp

/-- Only a backslash leads to where a backslash is to be decided on. -/
theorem exists_append_backslash {t : Text}
    (h : endMode t = .bareEscape ∨ endMode t = .doubleEscape) :
    ∃ u, t = u ++ [.char '\\'] ∧ (endMode u).behindBackslash = some (endMode t) := by
  obtain rfl | ⟨u, c, rfl⟩ := List.eq_nil_or_concat t
  · rcases h with h | h <;> cases h
  · rw [List.concat_eq_append] at h ⊢
    have hstep : endMode (u ++ [c]) = ((Scanner.start.run u).2.step c).2.mode := by
      rw [endMode, Scanner.run_append, Scanner.run_cons]
      rfl
    have hback : c = '\\' ∧ (endMode u).behindBackslash = some (endMode (u ++ [c])) := by
      rw [hstep] at h ⊢
      rw [endMode]
      generalize (Scanner.start.run u).2 = s at h ⊢
      obtain ⟨mode, word⟩ := s
      cases mode <;>
        grind [Scanner.step, Scanner.extend, Scanner.start, ScanMode.behindBackslash]
    exact ⟨u, by rw [hback.1], hback.2⟩

/-! ## Blanks -/

theorem ne_of_isBlank {c : CodePoint} (h : isBlank c = true) : c ≠ '\\' ∧ c ≠ '\'' ∧ c ≠ '"' := by
  refine ⟨?_, ?_, ?_⟩ <;> (rintro rfl; revert h; decide)

theorem Scanner.step_blank (word : Option Text) {c : CodePoint} (h : isBlank c = true) :
    ({ mode := .bare, word } : Scanner).step c = (word, start) := by
  have hne := ne_of_isBlank h
  simp [step, h, hne.1, hne.2.1, hne.2.2]

theorem wordsOf_blank_cons {c : CodePoint} (h : isBlank c = true) (t : Text) :
    wordsOf (c :: t) = wordsOf t := by
  have hstep : Scanner.start.step c = (none, Scanner.start) := Scanner.step_blank none h
  simp [wordsOf, Scanner.run_cons, hstep]

/-- The blank ends the last word, which the end of the text would have ended as well. -/
theorem wordsOf_append_blank {t : Text} {c : CodePoint} (ht : endMode t = .bare)
    (h : isBlank c = true) : wordsOf (t ++ [c]) = wordsOf t := by
  have hrun : Scanner.start.run t =
      ((Scanner.start.run t).1,
        { mode := .bare, word := (Scanner.start.run t).2.word }) := by
    rw [← ht, endMode]
  rw [wordsOf, Scanner.run_append, hrun, Scanner.run_cons, Scanner.step_blank _ h, wordsOf]
  simp [Scanner.start]

end LineShell

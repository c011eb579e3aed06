import LineShell.Proofs.Line.Trim

/-!
# Texts that are put together

Behind a blank outside quotes a scan stands where it started, so texts with gaps between them are
read one after another, whatever the gaps are: `readWords_across_gap`.  A text that ends inside a
quote has the words of the text in which the quote is closed: `readWords_closed`.
-/

namespace LineShell

open Grammar (Gap)

/-! ## Gaps -/

/-- A row of texts that end outside quotes, each with a gap behind it that is not empty. -/
inductive Spaced : List Text → Text → Prop
  | nil : Spaced [] []
  | cons {a gap t : Text} {rest : List Text} : endMode a = .bare → Gap gap → gap ≠ [] →
      Spaced rest t → Spaced (a :: rest) (a ++ gap ++ t)

/-- A gap ends the last word and nothing else of the text is left in the scan. -/
theorem run_append_gap {a gap : Text} (ha : endMode a = .bare) (hgap : Gap gap) (hne : gap ≠ []) :
    Scanner.start.run (a ++ gap) = (wordsOf a, Scanner.start) :=
  Grammar.run_gap_of_run (run_of_endMode ha) (wordsOf_eq a).symm hgap fun _ => hne

/-- Each piece adds its own words. -/
theorem Spaced.run {pieces : List Text} {t : Text} (h : Spaced pieces t) :
    Scanner.start.run t = (pieces.flatMap wordsOf, Scanner.start) := by
  induction h with
  | nil => rfl
  | cons ha hgap hne _ ih =>
    rw [Scanner.run_append, run_append_gap ha hgap hne, ih, List.flatMap_cons]

/-- A text behind which the scan stands where it started is read apart from what follows it. -/
theorem wordsOf_append_of_run {t : Text} {ws : List Text}
    (h : Scanner.start.run t = (ws, Scanner.start)) (b : Text) :
    wordsOf (t ++ b) = ws ++ wordsOf b := by
  rw [wordsOf_eq, Scanner.run_append, h, List.append_assoc, ← wordsOf_eq]

/-- Behind a text that leaves a scan fresh, reading starts anew. -/
theorem readWords_append_of_run {t : Text} {ws : List Text}
    (h : Scanner.start.run t = (ws, Scanner.start)) (strict : Bool) (b : Text) :
    readWords strict (t ++ b) = (readWords strict b).map (ws ++ ·) := by
  have hwords := wordsOf_append_of_run h b
  have hmode : endMode (t ++ b) = endMode b := by rw [endMode, Scanner.run_append, h, endMode]
  cases strict with
  | false => rw [readWords_false, readWords_false, hwords, Except.map]
  | true =>
    cases hquote : (endMode b).openQuote with
    | none =>
      rw [readWords_of_openQuote_eq_none true (by rw [hmode, hquote]),
        readWords_of_openQuote_eq_none true hquote, hwords, Except.map]
    | some quote =>
      have hb : readWords true b = .error (.unterminated quote) :=
        readWords_true_eq_error_iff.mpr hquote
      rw [hb, readWords_true_eq_error_iff.mpr (by rw [hmode, hquote]), Except.map]

theorem readWords_append_trail {a trail : Text} (ha : endMode a = .bare) (htrail : Gap trail)
    (strict : Bool) : readWords strict (a ++ trail) = .ok (wordsOf a) := by
  have hquote : (endMode (a ++ trail)).openQuote = none := by
    rw [openQuote_append_gap a htrail, ha, ScanMode.openQuote]
  rw [readWords_of_openQuote_eq_none strict hquote, wordsOf_append_gap ha htrail]

/-- A gap behind a text that ends outside quotes sets what follows apart: the words are those of the
text and then those of what follows, and strict reading refuses the whole for the quote for which it
refuses what follows.  The scan keeps nothing of the text behind the gap.  So in a row of texts the
gaps in front of them, between them and behind them change nothing. -/
theorem readWords_across_gap {a gap : Text} (ha : endMode a = .bare) (hgap : Gap gap)
    (hne : gap ≠ []) (b : Text) :
    wordsOf (a ++ gap ++ b) = wordsOf a ++ wordsOf b ∧
      (∀ quote, readWords true (a ++ gap ++ b) = .error (.unterminated quote) ↔
        readWords true b = .error (.unterminated quote)) ∧
      (∀ strict, readWords strict (a ++ gap ++ b) = (readWords strict b).map (wordsOf a ++ ·) ∧
        readWords strict a = .ok (wordsOf a)) ∧
      Scanner.start.run (a ++ gap) = (wordsOf a, Scanner.start) ∧
      ∀ lead pieces row trail, Gap lead → Spaced pieces row → Gap trail → ∀ strict,
        readWords strict (lead ++ (row ++ (a ++ trail))) =
          .ok (pieces.flatMap wordsOf ++ wordsOf a) := by
  have hrun := run_append_gap ha hgap hne
  have happend := fun strict => readWords_append_of_run hrun strict b
  refine ⟨?_, ?_, fun strict => ⟨happend strict, readWords_of_endMode_eq_bare strict ha⟩, hrun, ?_⟩
  · exact Except.ok.inj (happend false)
  · intro quote
    rw [happend true]
    cases readWords true b <;> simp [Except.map]
  · intro lead pieces row trail hlead hrow htrail strict
    rw [readWords_gap_append strict hlead, readWords_append_of_run hrow.run,
      readWords_append_trail ha htrail, Except.map]

/-- The text in front ends with an escaped blank and empty quotes, the gap is no ASCII one, and what
follows ends inside a quote. -/
theorem readWords_across_gap_of_escaped_blank :
    let a := "x\\ ''".toText
    let gap : Text := [.char '\u3000', .char '\t']
    let b := "y \"z".toText
    endMode a = .bare ∧ Gap gap ∧ gap ≠ [] ∧
      wordsOf (a ++ gap ++ b) = ["x ".toText, "y".toText, "z".toText] ∧
      readWords true (a ++ gap ++ b) = .error (.unterminated .double) := by
  intro a gap b
  have ha : endMode a = .bare := by decide
  have hgap : Gap gap :=
    (Grammar.gap_singleton (by decide)).append (Grammar.gap_singleton (by decide))
  have hne : gap ≠ [] := by decide
  have hacross := readWords_across_gap ha hgap hne b
  refine ⟨ha, hgap, hne, ?_, ?_⟩
  · rw [hacross.1]
    decide
  · rw [hacross.2.1]
    decide

/-! ## Open quotes -/

/-- The text without a backslash at its end that is still to be decided on between double quotes. -/
def withoutDangling (t : Text) : Text := if endMode t = .doubleEscape then t.dropLast else t

theorem eq_withoutDangling_append {t : Text} (h : endMode t = .doubleEscape) :
    t = withoutDangling t ++ [.char '\\'] ∧ endMode (withoutDangling t) = .double ∧
      wordsOf (withoutDangling t) = wordsOf t := by
  obtain ⟨u, rfl, hbehind⟩ := exists_append_backslash (.inr h)
  have hkept : withoutDangling (u ++ [.char '\\']) = u := by
    rw [withoutDangling, if_pos h, List.dropLast_concat]
  rw [hkept, (append_backslash hbehind).2]
  rw [h] at hbehind
  exact ⟨rfl, ScanMode.behindBackslash_eq_doubleEscape_iff.mp hbehind, rfl⟩

/-- The character of the open quote closes it and takes nothing from the words. -/
theorem append_quote {t : Text} {quote : Quote} (hquote : (endMode t).openQuote = some quote)
    (hescape : endMode t ≠ .doubleEscape) :
    endMode (t ++ [.char quote.char]) = .bare ∧ wordsOf (t ++ [.char quote.char]) = wordsOf t := by
  have hstep : (Scanner.start.run t).2.step (.char quote.char) =
      (none, { mode := .bare, word := (Scanner.start.run t).2.word }) := by
    rw [endMode] at hquote hescape
    generalize (Scanner.start.run t).2 = s at hquote hescape ⊢
    obtain ⟨mode, word⟩ := s
    cases mode <;> cases quote <;> simp_all [ScanMode.openQuote, Scanner.step, Quote.char]
  rw [endMode, wordsOf_eq, wordsOf_eq, Scanner.run_append, Scanner.run_cons, hstep]
  simp

/-- The missing quote ends the word that the end of the text would have ended. -/
theorem append_quote_withoutDangling {t : Text} {quote : Quote}
    (hquote : (endMode t).openQuote = some quote) :
    endMode (withoutDangling t ++ [.char quote.char]) = .bare ∧
      wordsOf (withoutDangling t ++ [.char quote.char]) = wordsOf t := by
  by_cases hescape : endMode t = .doubleEscape
  · obtain ⟨-, hmode, hwords⟩ := eq_withoutDangling_append hescape
    rw [hescape] at hquote
    have hopen : (endMode (withoutDangling t)).openQuote = some quote := by
      rw [hmode]
      exact hquote
    have hclosed := append_quote hopen (by rw [hmode]; decide)
    rw [hwords] at hclosed
    exact hclosed
  · rw [withoutDangling, if_neg hescape]
    exact append_quote hquote hescape

/-- Quotes begin a word where none has begun. -/
theorem wordsOf_append_opening {t : Text} (ht : endMode t = .bare) (quote : Quote) :
    wordsOf (t ++ [.char quote.char]) =
      (Scanner.start.run t).1 ++ [(Scanner.start.run t).2.word.getD []] := by
  rw [wordsOf_eq, Scanner.run_append, run_of_endMode ht, Scanner.run_cons]
  cases quote <;> simp [Scanner.step, Scanner.extend, Quote.char]

/-- A text that ends outside quotes is read alike strictly and not.  A text that ends inside a quote
is refused for that quote by strict reading, and otherwise it has the words of the text in which the
quote is closed, without a backslash that is pending between double quotes.  That text is a line of
the grammar, so nothing else of it is lost.  A quote that is opened at the very end goes on with the
word in front of it or begins one. -/
theorem readWords_closed (t : Text) :
    ((endMode t).openQuote = none → ∀ strict, readWords strict t = .ok (wordsOf t)) ∧
      (∀ quote, (endMode t).openQuote = some quote →
        readWords true t = .error (.unterminated quote) ∧ readWords false t = .ok (wordsOf t) ∧
        readWords true (withoutDangling t ++ [.char quote.char]) = .ok (wordsOf t) ∧
        Grammar.Line (withoutDangling t ++ [.char quote.char]) (wordsOf t)) ∧
      (endMode t = .doubleEscape → t = withoutDangling t ++ [.char '\\']) ∧
      (endMode t ≠ .doubleEscape → withoutDangling t = t) ∧
      (endMode t = .bare → ∀ quote : Quote, wordsOf (t ++ [.char quote.char]) =
        (Scanner.start.run t).1 ++ [(Scanner.start.run t).2.word.getD []]) := by
  refine ⟨?_, ?_, fun h => (eq_withoutDangling_append h).1, ?_, wordsOf_append_opening⟩
  · intro hnone strict
    exact readWords_of_openQuote_eq_none strict hnone
  · intro quote hquote
    obtain ⟨hmode, hwords⟩ := append_quote_withoutDangling hquote
    have hclosed : readWords true (withoutDangling t ++ [.char quote.char]) = .ok (wordsOf t) := by
      rw [readWords_of_endMode_eq_bare true hmode, hwords]
    exact ⟨readWords_true_eq_error_iff.mpr hquote, readWords_false t, hclosed,
      Grammar.line_of_readWords hclosed⟩
  · intro h
    rw [withoutDangling, if_neg h]

-- A backslash dangles between double quotes: right behind it the quote would be taken.
example : wordsOf "a \"b\\".toText = ["a".toText, "b".toText] ∧
    wordsOf "a \"b\\\"".toText = ["a".toText, "b\"".toText] := by
  decide

end LineShell

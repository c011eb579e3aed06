import LineShell.Line.Scanner
import LineShell.Text.Split

/-!
# Quoting of words

Words are written so that they read back: each between single quotes, with single spaces between
them.  Main statement: `wordsOf_quoteWords`, the words of what is written are the words that were
written, whatever characters they hold.
-/

namespace LineShell

/-- A character between single quotes.  A single quote closes the quotes, stands escaped, and opens
them again. -/
def quoteChar (c : CodePoint) : Text := if c = '\'' then ['\'', '\\', '\'', '\''] else [c]

def quoteWord (w : Text) : Text := '\'' :: (w.flatMap quoteChar ++ [.char '\''])

def quoteWords (ws : List Text) : Text := joinWith [' '] (ws.map quoteWord)

namespace Scanner

/-- Between single quotes a quoted character adds the character to the word. -/
theorem run_quoteChar (u : Text) (c : CodePoint) :
    ({ mode := .single, word := some u } : Scanner).run (quoteChar c) =
      ([], { mode := .single, word := some (u ++ [c]) }) := by
  unfold quoteChar
  split
  · next hc => subst hc; simp [run_cons, step, extend]
  · next hc => simp [run_cons, step, extend, hc]

theorem run_flatMap_quoteChar (u w : Text) :
    ({ mode := .single, word := some u } : Scanner).run (w.flatMap quoteChar) =
      ([], { mode := .single, word := some (u ++ w) }) := by
  induction w generalizing u with
  | nil => simp
  | cons c rest ih =>
    rw [List.flatMap_cons, run_append, run_quoteChar]
    simp [ih]

/-- Outside quotes a quoted word is added to the word being read. -/
theorem run_quoteWord (u : Option Text) (w : Text) :
    ({ mode := .bare, word := u } : Scanner).run (quoteWord w) =
      ([], { mode := .bare, word := some (u.getD [] ++ w) }) := by
  have hopen : ({ mode := .bare, word := u } : Scanner).step '\'' =
      (none, { mode := .single, word := some (u.getD []) }) := by
    simp [step, extend]
  rw [quoteWord, run_cons, hopen, run_append, run_flatMap_quoteChar]
  simp [run_cons, step]

end Scanner

theorem wordsOf_quoteWord (w : Text) : wordsOf (quoteWord w) = [w] := by
  simp [wordsOf, Scanner.start, Scanner.run_quoteWord]

theorem quoteWords_cons_cons (w v : Text) (ws : List Text) :
    quoteWords (w :: v :: ws) = quoteWord w ++ .char ' ' :: quoteWords (v :: ws) := by
  simp [quoteWords, joinWith]

/-- Words that were written read back. -/
theorem wordsOf_quoteWords (ws : List Text) : wordsOf (quoteWords ws) = ws := by
  match ws with
  | [] => rfl
  | [w] => exact wordsOf_quoteWord w
  | w :: v :: rest =>
    have ih := wordsOf_quoteWords (v :: rest)
    have hspace : ({ mode := .bare, word := some w } : Scanner).step ' ' =
        (some w, Scanner.start) := by
      simp [Scanner.step, isBlank, inRanges, blankRanges]
    rw [wordsOf] at ih ⊢
    rw [quoteWords_cons_cons, Scanner.start, Scanner.run_append, Scanner.run_quoteWord,
      Scanner.run_cons]
    simp only [Option.getD_none, List.nil_append, hspace]
    simpa using ih

end LineShell

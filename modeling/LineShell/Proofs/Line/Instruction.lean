import LineShell.Line.Instruction
import LineShell.Line.Quoting
import LineShell.Proofs.Line.Cut

/-!
# Instructions that are written and instructions that are refused

An instruction can be written so that quote-aware reading finds exactly its words and its
redirection, whatever characters the words and the path hold: `ofLine_writeInstruction`.  Strict
reading looks at the command of a line and not at the target of its redirection, so it refuses the
lines that end inside a quote and do not redirect: `ofLine_strict_error_iff`.
-/

namespace LineShell

/-- A line that asks for words and a redirection: the quoted words, and behind them an operator and
a quoted path. -/
def writeInstruction (ws : List Text) : Option (Operator × Text) → Text
  | none => quoteWords ws
  | some (op, path) => quoteWords ws ++ .char ' ' :: (op.spelling ++ .char ' ' :: quoteWord path)

/-! ## Quoted text holds no live character -/

namespace Guard

/-- No character of the text is live. -/
def Quiet (g : Guard) (t : Text) : Prop := ∀ p ∈ g.mark t, p.2 = false

theorem quiet_nil (g : Guard) : g.Quiet [] := by simp [Quiet]

theorem quiet_cons {g : Guard} {c : CodePoint} {t : Text} :
    g.Quiet (c :: t) ↔ g.admits c = false ∧ (g.next c).Quiet t := by
  simp [Quiet]

/-- A text is quiet if its parts are, each behind what stands in front of it. -/
theorem quiet_append {g : Guard} {a b : Text} :
    g.Quiet (a ++ b) ↔ g.Quiet a ∧ (g.after a).Quiet b := by
  simp [Quiet, mark_append, or_imp, forall_and]

/-- No character of a quiet text is marked. -/
theorem Quiet.not_mem {g : Guard} {t : Text} (h : g.Quiet t) (c : CodePoint) :
    (c, true) ∉ g.mark t := by
  intro hc
  exact absurd (h _ hc) (by simp)

/-- Between single quotes a quoted character is quiet and leads back there. -/
theorem quiet_quoteChar (c : CodePoint) :
    ({ quote := some .single } : Guard).Quiet (quoteChar c) ∧
      ({ quote := some .single } : Guard).after (quoteChar c) = { quote := some .single } := by
  unfold quoteChar
  split
  · simp [quiet_cons, quiet_nil, admits, next]
  · next hc => simp [quiet_cons, quiet_nil, admits, next, hc]

theorem quiet_flatMap_quoteChar (w : Text) :
    ({ quote := some .single } : Guard).Quiet (w.flatMap quoteChar) ∧
      ({ quote := some .single } : Guard).after (w.flatMap quoteChar) =
        { quote := some .single } := by
  induction w with
  | nil => exact ⟨quiet_nil _, rfl⟩
  | cons c rest ih =>
    have hc := quiet_quoteChar c
    rw [List.flatMap_cons, quiet_append, after_append, hc.2]
    exact ⟨⟨hc.1, ih.1⟩, ih.2⟩

/-- Between single quotes no character is live, and behind them nothing is open. -/
theorem quiet_quoteWord (w : Text) :
    ({} : Guard).Quiet (quoteWord w) ∧ ({} : Guard).after (quoteWord w) = {} := by
  have hcontent := quiet_flatMap_quoteChar w
  have hopen : ({} : Guard).next '\'' = { quote := some .single } := by simp [next]
  rw [quoteWord, quiet_cons, after_cons, hopen, quiet_append, after_append, hcontent.2]
  refine ⟨⟨by simp [admits], hcontent.1, ?_⟩, by simp [next]⟩
  simp [quiet_cons, quiet_nil, admits]

/-- Of quoted words only the spaces between them are live. -/
theorem mark_quoteWords (ws : List Text) :
    (.char '>', true) ∉ ({} : Guard).mark (quoteWords ws) ∧
      ({} : Guard).after (quoteWords ws) = {} := by
  match ws with
  | [] => exact ⟨by simp [quoteWords, joinWith], rfl⟩
  | [w] =>
    have hw := quiet_quoteWord w
    exact ⟨hw.1.not_mem '>', hw.2⟩
  | w :: v :: rest =>
    have hw := quiet_quoteWord w
    have hrest := mark_quoteWords (v :: rest)
    have hspace : ({} : Guard).next ' ' = {} := by simp [next]
    rw [quoteWords_cons_cons, mark_append, after_append, hw.2, mark_cons, after_cons, hspace]
    refine ⟨?_, hrest.2⟩
    simp [hw.1.not_mem '>', hrest.1]

end Guard

/-! ## Lines that end outside quotes -/

theorem ofLine_of_endMode_eq_bare (modes : Modes) {line : Text} (hmode : endMode line = .bare)
    (h : ¬ Redirects modes.quoteAware line) :
    Instruction.ofLine modes line = .ok { words := wordsOf line, redirection := none } := by
  rcases cutRedirection_cases modes.quoteAware line with ⟨-, hcut⟩ | ⟨hredirects, -⟩
  · rw [Instruction.ofLine, hcut]
    simp only [readWords_of_endMode_eq_bare modes.strict hmode]
  · exact absurd hredirects h

/-- A redirection behind a line adds nothing to its words. -/
theorem ofLine_directive (modes : Modes) {op : Operator} (hop : op ∈ Operator.table)
    {command target : Text} (hmode : endMode command = .bare)
    (hcommand : ¬ Redirects modes.quoteAware command)
    (htarget : ¬ Redirects modes.quoteAware target) :
    Instruction.ofLine modes (command ++ .char ' ' :: (op.spelling ++ .char ' ' :: target)) =
      .ok { words := wordsOf command
            redirection := some
              { stream := op.stream, mode := op.mode
                path := targetPath modes.quoteAware (.char ' ' :: target) } } := by
  have hblank : isBlank ' ' = true := by decide
  -- The space before the operator stays with the command and is part of no word.
  have hspace : endMode (command ++ [.char ' ']) = .bare := by
    rw [← Guard.after_eq_empty_iff, Guard.after_append, Guard.after_eq_empty_iff.mpr hmode]
    rfl
  rw [Instruction.ofLine, cutRedirection_directive modes.quoteAware hop hmode hcommand htarget]
  simp only [readWords_of_endMode_eq_bare modes.strict hspace, wordsOf_append_blank hmode hblank]

/-! ## Reading what was written -/

theorem endMode_quoteWords (ws : List Text) : endMode (quoteWords ws) = .bare :=
  Guard.after_eq_empty_iff.mp (Guard.mark_quoteWords ws).2

/-- Quoted words hold no operator. -/
theorem cutRedirection_quoteWords (ws : List Text) :
    cutRedirection true (quoteWords ws) = (quoteWords ws, none) := by
  rcases cutRedirection_cases true (quoteWords ws) with ⟨-, hcut⟩ | ⟨hredirects, -⟩
  · exact hcut
  · exact absurd hredirects (Guard.mark_quoteWords ws).1

theorem not_redirects_quoteWord (w : Text) : ¬ Redirects true (quoteWord w) :=
  (Guard.quiet_quoteWord w).1.not_mem '>'

theorem targetPath_quoteWord (path : Text) :
    targetPath true (.char ' ' :: quoteWord path) = path := by
  have hblank : isBlank ' ' = true := by decide
  rw [targetPath, if_pos rfl, wordsOf_blank_cons hblank, wordsOf_quoteWord, List.headD_cons]

/-- The operator that was written is the one at which the line is cut. -/
theorem cutRedirection_writeInstruction {op : Operator} (hop : op ∈ Operator.table)
    (ws : List Text) (path : Text) :
    cutRedirection true (writeInstruction ws (some (op, path))) = (quoteWords ws ++ [.char ' '],
      some { stream := op.stream, mode := op.mode, path }) := by
  rw [writeInstruction, cutRedirection_directive true hop (endMode_quoteWords ws)
    (Guard.mark_quoteWords ws).1 (not_redirects_quoteWord path), targetPath_quoteWord]

/-- Quote-aware reading finds in a written line exactly the words and the redirection that were
written, strict or not. -/
theorem ofLine_writeInstruction (strict : Bool) (ws : List Text)
    (directive : Option (Operator × Text)) (h : ∀ d ∈ directive, d.1 ∈ Operator.table) :
    Instruction.ofLine { quoteAware := true, strict } (writeInstruction ws directive) =
      .ok { words := ws
            redirection := directive.map fun (op, path) =>
              { stream := op.stream, mode := op.mode, path } } := by
  cases directive with
  | none =>
    have hread := readWords_of_endMode_eq_bare strict (endMode_quoteWords ws)
    rw [writeInstruction, Instruction.ofLine, cutRedirection_quoteWords]
    simp only [hread, wordsOf_quoteWords, Option.map_none]
  | some d =>
    rcases d with ⟨op, path⟩
    have hop : op ∈ Operator.table := h _ rfl
    have hblank : isBlank ' ' = true := by decide
    -- The space before the operator stays with the command and is part of no word.
    have hmode : endMode (quoteWords ws ++ [.char ' ']) = .bare := by
      rw [← Guard.after_eq_empty_iff, Guard.after_append, (Guard.mark_quoteWords ws).2]
      rfl
    have hread := readWords_of_endMode_eq_bare strict hmode
    rw [wordsOf_append_blank (endMode_quoteWords ws) hblank, wordsOf_quoteWords] at hread
    rw [Instruction.ofLine, cutRedirection_writeInstruction hop]
    simp only [hread, Option.map_some]

/-- Words that look like operators, quotes and line ends, and a path of the same kind. -/
theorem ofLine_writeInstruction_hostile :
    ({ spelling := ['2', '>', '>'], stream := .stderr, mode := .append } : Operator) ∈
        Operator.table ∧
      Instruction.ofLine { quoteAware := true, strict := true }
        "'' '1>' 'it'\\''s \"' '\n\\' 2>> 'a > b'".toText =
        .ok { words := [[], "1>".toText, "it's \"".toText, "\n\\".toText]
              redirection :=
                some { stream := .stderr, mode := .append, path := "a > b".toText } } := by
  have hop : ({ spelling := ['2', '>', '>'], stream := .stderr, mode := .append } : Operator) ∈
      Operator.table := by
    decide
  refine ⟨hop, ?_⟩
  have hd : ∀ d ∈ some (({ spelling := ['2', '>', '>'], stream := .stderr, mode := .append } :
      Operator), "a > b".toText), d.1 ∈ Operator.table := by
    rintro d ⟨rfl⟩
    exact hop
  exact ofLine_writeInstruction true [[], "1>".toText, "it's \"".toText, "\n\\".toText] _ hd

/-! ## Lines that strict reading refuses -/

/-- A quote that is open at the end of a line that was cut is opened behind the operator. -/
theorem openQuote_of_split {op : Operator} {line command rest : Text}
    (hop : op ∈ Operator.table) (h : op.split true line = some (command, rest)) :
    (endMode line).openQuote = (endMode rest).openQuote := by
  rcases Operator.endMode_of_split hop h with ⟨rfl, -, hafter⟩
  rw [← Guard.after_eq_empty_iff] at hafter
  rw [← Guard.quote_after, Guard.after_append, hafter, Guard.quote_after]

theorem ofLine_of_not_redirects {line : Text} (strict : Bool) (h : ¬ Redirects true line) :
    Instruction.ofLine { quoteAware := true, strict } line =
      (readWords strict line).map ({ words := ·, redirection := none }) := by
  rcases cutRedirection_cases true line with ⟨-, hcut⟩ | ⟨hredirects, -⟩
  · rw [Instruction.ofLine, hcut]
    cases hread : readWords strict line <;> simp [hread, Except.map]
  · exact absurd hredirects h

/-- A line that redirects is always accepted, because its command ends outside quotes. -/
theorem ofLine_of_redirects {line : Text} (strict : Bool) (h : Redirects true line) :
    ∃ op ∈ Operator.table, ∃ command rest, op.split true line = some (command, rest) ∧
      Instruction.ofLine { quoteAware := true, strict } line =
        .ok { words := wordsOf command
              redirection := some
                { stream := op.stream, mode := op.mode, path := targetPath true rest } } := by
  rcases cutRedirection_cases true line with
    ⟨hno, -⟩ | ⟨-, op, hop, command, rest, hsplit, hcut⟩
  · exact absurd h hno
  · have hread := Operator.readWords_of_split hop hsplit strict
    refine ⟨op, hop, command, rest, hsplit, ?_⟩
    rw [Instruction.ofLine, hcut]
    simp only [hread]

/-- Strict quote-aware reading refuses a line for the quote that is open at its end, unless the line
redirects.  So it agrees with strict reading of the whole line except where a line redirects and
ends inside a quote.  Such a line is accepted, and the quote is opened behind the operator. -/
theorem ofLine_strict_error_iff (line : Text) :
    (∀ quote, Instruction.ofLine { quoteAware := true, strict := true } line =
        .error (.unterminated quote) ↔
      (endMode line).openQuote = some quote ∧ ¬ Redirects true line) ∧
    ((∀ quote, Instruction.ofLine { quoteAware := true, strict := true } line =
        .error (.unterminated quote) ↔ readWords true line = .error (.unterminated quote)) ↔
      ((endMode line).openQuote = none ∨ ¬ Redirects true line)) ∧
    (Redirects true line → ∃ op ∈ Operator.table, ∃ command rest,
      op.split true line = some (command, rest) ∧
      Instruction.ofLine { quoteAware := true, strict := true } line =
        .ok { words := wordsOf command
              redirection := some
                { stream := op.stream, mode := op.mode, path := targetPath true rest } } ∧
      (endMode rest).openQuote = (endMode line).openQuote) := by
  have herror : ∀ quote, Instruction.ofLine { quoteAware := true, strict := true } line =
        .error (.unterminated quote) ↔
      (endMode line).openQuote = some quote ∧ ¬ Redirects true line := by
    intro quote
    by_cases hredirects : Redirects true line
    · rcases ofLine_of_redirects true hredirects with ⟨op, -, command, rest, -, hok⟩
      simp [hok, hredirects]
    · rw [ofLine_of_not_redirects true hredirects, ← readWords_true_eq_error_iff]
      cases readWords true line <;> simp [Except.map, hredirects]
  refine ⟨herror, ?_, ?_⟩
  · simp only [herror, readWords_true_eq_error_iff]
    constructor
    · intro hagree
      by_cases hredirects : Redirects true line
      · -- An open quote would make the line a refused one, and those do not redirect.
        left
        apply Option.eq_none_iff_forall_ne_some.mpr
        intro quote hquote
        exact ((hagree quote).mpr hquote).2 hredirects
      · exact .inr hredirects
    · rintro (hnone | hno) quote
      · simp [hnone]
      · simp [hno]
  · intro hredirects
    rcases ofLine_of_redirects true hredirects with ⟨op, hop, command, rest, hsplit, hok⟩
    exact ⟨op, hop, command, rest, hsplit, hok, (openQuote_of_split hop hsplit).symm⟩

/-- A line whose target ends inside a quote is accepted, though strict reading refuses the whole. -/
theorem ofLine_strict_open_target :
    Instruction.ofLine { quoteAware := true, strict := true } "a > \"f".toText =
        .ok { words := ["a".toText]
              redirection :=
                some { stream := .stdout, mode := .truncate, path := "f".toText } } ∧
      (endMode "a > \"f".toText).openQuote = some .double ∧
      readWords true "a > \"f".toText = .error (.unterminated .double) :=
  ⟨rfl, rfl, rfl⟩

end LineShell

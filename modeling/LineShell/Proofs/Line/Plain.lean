import LineShell.Proofs.Line.Trim

/-!
# Names that are words as they stand

Words are never longer than the text that they are read from, and they are shorter if a blank, a
quote or a backslash stands in it: `length_flatten_wordsOf_le` and `length_flatten_wordsOf_lt`.  So
a name is read back from a line of its own exactly when it holds none of these, nor the `>` of an
operator: `ofLine_of_plain` and `not_mem_words_of_not_plain`.
-/

namespace LineShell

open Grammar (Gap)

/-- Does the character stand for itself outside quotes, within a word? -/
def isBare (c : CodePoint) : Bool := !isBlank c && c != '\\' && c != '\'' && c != '"'

/-- Every character of the name stands for itself, and none spells an operator. -/
def Plain (name : Text) : Prop := (∀ c ∈ name, isBare c = true) ∧ .char '>' ∉ name

instance (name : Text) : Decidable (Plain name) :=
  decidable_of_iff (name.all isBare = true ∧ .char '>' ∉ name) (by rw [Plain, List.all_eq_true])

theorem isBare_iff {c : CodePoint} :
    isBare c = true ↔ isBlank c = false ∧ c ∉ [.char '\\', .char '\'', .char '"'] := by
  simp [isBare, and_assoc]

def Unquoted (t : Text) : Prop := ∀ c ∈ t, c ∉ [.char '\\', .char '\'', .char '"']

-- The instance is named: all characters could be tried as well, not only those of the text.
instance (t : Text) : Decidable (Unquoted t) := List.decidableBAll _ t

theorem unquoted_of_isBare {t : Text} (h : ∀ c ∈ t, isBare c = true) : Unquoted t :=
  fun c hc => (isBare_iff.mp (h c hc)).2

/-! ## Texts of characters that stand for themselves -/

namespace Scanner

/-- A bare character is put into the word that is being read. -/
theorem step_of_isBare {c : CodePoint} (h : isBare c = true) (word : Option Text) :
    ({ mode := .bare, word } : Scanner).step c =
      (none, { mode := .bare, word := some (word.getD [] ++ [c]) }) := by
  obtain ⟨hblank, hc⟩ := isBare_iff.mp h
  simp only [List.mem_cons, List.not_mem_nil, or_false, not_or] at hc
  simp [step, extend, hblank, hc]

theorem run_of_isBare {t : Text} (h : ∀ c ∈ t, isBare c = true) (u : Text) :
    ({ mode := .bare, word := some u } : Scanner).run t =
      ([], { mode := .bare, word := some (u ++ t) }) := by
  induction t generalizing u with
  | nil => simp
  | cons c rest ih =>
    have hrest := ih (fun d hd => h d (List.mem_cons_of_mem c hd)) (u ++ [c])
    rw [run_cons, step_of_isBare (h c List.mem_cons_self), Option.getD_some, hrest]
    simp

end Scanner

theorem run_start_of_isBare {t : Text} (h : ∀ c ∈ t, isBare c = true) (hne : t ≠ []) :
    Scanner.start.run t = ([], { mode := .bare, word := some t }) := by
  cases t with
  | nil => exact absurd rfl hne
  | cons c rest =>
    have hrest := Scanner.run_of_isBare (fun d hd => h d (List.mem_cons_of_mem c hd)) [c]
    rw [Scanner.run_cons, Scanner.start, Scanner.step_of_isBare (h c List.mem_cons_self),
      Option.getD_none, List.nil_append, hrest]
    rfl

namespace Guard

/-- Without quotes and backslashes every character of a text is live. -/
theorem mark_of_unquoted {t : Text} (h : Unquoted t) : ({} : Guard).mark t = t.map (·, true) := by
  induction t with
  | nil => rfl
  | cons c rest ih =>
    have hadmits : ({} : Guard).admits c = true :=
      admits_ofMode_iff.mpr ⟨rfl, h c List.mem_cons_self⟩
    rw [mark_cons, (eq_of_admits hadmits).2, hadmits,
      ih fun d hd => h d (List.mem_cons_of_mem c hd)]
    rfl

end Guard

theorem not_redirects_of_not_mem (quoteAware : Bool) {line : Text} (h : .char '>' ∉ line) :
    ¬ Redirects quoteAware line := by
  intro hmem
  apply h
  rw [← map_fst_markedLine quoteAware line]
  exact List.mem_map_of_mem (f := Prod.fst) hmem

/-- Where no character quotes, reading knows no quotes to be aware of. -/
theorem markedLine_of_unquoted (quoteAware : Bool) {line : Text} (h : Unquoted line) :
    markedLine quoteAware line = line.map (·, true) := by
  cases quoteAware with
  | false => rfl
  | true => rw [markedLine_true, Guard.mark_of_unquoted h]

/-- In a text of bare characters every arrow counts. -/
theorem redirects_of_isBare (quoteAware : Bool) {line : Text} (h : ∀ c ∈ line, isBare c = true)
    (hmem : .char '>' ∈ line) : Redirects quoteAware line := by
  rw [Redirects, markedLine_of_unquoted quoteAware (unquoted_of_isBare h)]
  exact List.mem_map_of_mem hmem

/-- A plain name on a line of its own is the only word of the line. -/
theorem ofLine_of_plain (modes : Modes) {name : Text} (h : Plain name) (hne : name ≠ []) :
    Instruction.ofLine modes name = .ok { words := [name], redirection := none } := by
  have hrun := run_start_of_isBare h.1 hne
  have hmode : endMode name = .bare := by rw [endMode, hrun]
  have hwords : wordsOf name = [name] := by
    rw [wordsOf, hrun]
    rfl
  rw [ofLine_of_endMode_eq_bare modes hmode (not_redirects_of_not_mem modes.quoteAware h.2), hwords]

theorem trim_of_isBare {t : Text} (h : ∀ c ∈ t, isBare c = true) : Text.trim t = t := by
  obtain ⟨lead, trail, hlead, htrail, ht, -⟩ := Text.exists_gaps_trim t
  have hnil : ∀ {g : Text}, Gap g → (∀ c ∈ g, c ∈ t) → g = [] := by
    intro g hg hmem
    rw [List.eq_nil_iff_forall_not_mem]
    intro c hc
    have hblank := (isBare_iff.mp (h c (hmem c hc))).1
    rw [hg c hc] at hblank
    cases hblank
  have hlead := hnil hlead fun c hc => by rw [ht]; simp [hc]
  have htrail := hnil htrail fun c hc => by rw [ht]; simp [hc]
  rw [hlead, htrail, List.nil_append, List.append_nil] at ht
  exact ht.symm

/-! ## The length of words -/

namespace Scanner

/-- The characters that a scan holds on to: the word being read, and a backslash that is still to be
put into it if the next character does not need it. -/
def held (s : Scanner) : Nat :=
  (s.word.getD []).length + if s.mode = .doubleEscape then 1 else 0

/-- Outside quotes a character that does not stand for itself adds nothing to what is read. -/
theorem held_step_of_not_bare {c : CodePoint} (h : isBare c = false) (word : Option Text) :
    (({ mode := .bare, word } : Scanner).step c).1.toList.flatten.length +
        (({ mode := .bare, word } : Scanner).step c).2.held = (word.getD []).length := by
  simp only [step]
  split_ifs with hslash hsingle hdouble hblank
  · simp [held]
  · simp [held, extend]
  · simp [held, extend]
  · cases word <;> simp [held, start]
  · simp [isBare, hslash, hsingle, hdouble, hblank] at h

/-- A step makes no more characters of words than it reads. -/
theorem held_step_le (s : Scanner) (c : CodePoint) :
    (s.step c).1.toList.flatten.length + (s.step c).2.held ≤ s.held + 1 := by
  obtain ⟨mode, word⟩ := s
  cases mode with
  | bare =>
    cases hbare : isBare c with
    | true =>
      rw [step_of_isBare hbare]
      simp [held]
    | false =>
      rw [held_step_of_not_bare hbare]
      simp [held]
  | bareEscape => simp [step, held, extend]
  | single =>
    simp only [step]
    split_ifs
    · simp [held]
    · simp [held, extend]
  | double =>
    simp only [step]
    split_ifs
    · simp [held]
    · simp [held]
    · simp [held, extend]
  | doubleEscape =>
    -- The backslash is paid for here, if it goes into the word after all.
    simp only [step]
    split_ifs
    · simp [held, extend]
    · simp [held, extend]

/-- Words hold no more characters than the text they are read from. -/
theorem held_run_le (s : Scanner) (t : Text) :
    (s.run t).1.flatten.length + (s.run t).2.held ≤ s.held + t.length := by
  induction t generalizing s with
  | nil => simp
  | cons c rest ih =>
    have hstep := held_step_le s c
    have hrest := ih (s.step c).2
    rw [run_cons]
    dsimp only
    rw [List.flatten_append, List.length_append, List.length_cons]
    omega

theorem length_word_le (s : Scanner) : s.word.toList.flatten.length ≤ s.held := by
  obtain ⟨mode, word⟩ := s
  cases word <;> simp [held]

end Scanner

/-- Words are never longer than the text that they are read from. -/
theorem length_flatten_wordsOf_le (t : Text) : (wordsOf t).flatten.length ≤ t.length := by
  have hrun := Scanner.held_run_le Scanner.start t
  have hword := (Scanner.start.run t).2.length_word_le
  have hstart : Scanner.start.held = 0 := rfl
  rw [wordsOf_eq, List.flatten_append, List.length_append]
  omega

/-- The first character that does not stand for itself is met outside quotes, and goes into no
word. -/
theorem length_flatten_wordsOf_lt {t : Text} (h : ∃ c ∈ t, isBare c = false) :
    (wordsOf t).flatten.length < t.length := by
  have hfirst : (t.find? fun c => !isBare c).isSome = true := by simpa using h
  obtain ⟨c, hfind⟩ := Option.isSome_iff_exists.mp hfirst
  obtain ⟨hc, front, rest, rfl, hfront⟩ := List.find?_eq_some_iff_append.mp hfind
  simp only [Bool.not_eq_true', Bool.not_not] at hc hfront
  have hmeets : ∃ word, (word.getD []).length ≤ front.length ∧
      Scanner.start.run front = ([], { mode := .bare, word }) := by
    by_cases hne : front = []
    · subst hne
      exact ⟨none, Nat.le_refl 0, rfl⟩
    · exact ⟨some front, Nat.le_refl _, run_start_of_isBare hfront hne⟩
  obtain ⟨word, hlength, hrun⟩ := hmeets
  have hstep := Scanner.held_step_of_not_bare hc word
  have hrest := Scanner.held_run_le (({ mode := .bare, word } : Scanner).step c).2 rest
  have hword := ((({ mode := .bare, word } : Scanner).step c).2.run rest).2.length_word_le
  rw [wordsOf_eq, Scanner.run_append, hrun, Scanner.run_cons]
  simp only [List.nil_append, List.flatten_append, List.length_append, List.length_cons]
  omega

/-! ## Names that are no words as they stand -/

theorem eq_wordsOf_of_readWords {strict : Bool} {t : Text} {words : List Text}
    (h : readWords strict t = .ok words) : words = wordsOf t := by
  unfold readWords at h
  split at h
  · cases h
  · exact (Except.ok.inj h).symm

/-- The words of a line are those of its command, which is the whole line or shorter. -/
theorem exists_command_of_ofLine {modes : Modes} {line : Text} {words : List Text}
    {redirection : Option Redirection}
    (h : Instruction.ofLine modes line = .ok { words, redirection }) :
    ∃ command, words = wordsOf command ∧
      (command = line ∧ ¬ Redirects modes.quoteAware line ∨ command.length < line.length) := by
  obtain ⟨hno, hcut⟩ | ⟨-, op, hop, command, rest, hsplit, hcut⟩ :=
    cutRedirection_cases modes.quoteAware line
  · rw [Instruction.ofLine, hcut] at h
    dsimp only at h
    split at h
    · cases h
    · next ws hread =>
      cases h
      exact ⟨line, eq_wordsOf_of_readWords hread, .inl ⟨rfl, hno⟩⟩
  · rw [Instruction.ofLine, hcut] at h
    dsimp only at h
    split at h
    · cases h
    · next ws hread =>
      cases h
      refine ⟨command, eq_wordsOf_of_readWords hread, .inr ?_⟩
      -- The operator has been cut off, and it is not empty.
      have hspelling := List.length_pos_of_mem (Operator.mem_spelling hop)
      have hline := congrArg List.length (append_of_splitAtMarked hsplit)
      rw [map_fst_markedLine, List.length_append, List.length_append] at hline
      omega

/-- What is cut off a line, is trimmed, or does not stand for itself, is missing from the words. -/
theorem length_words_lt {modes : Modes} {name : Text} {words : List Text}
    {redirection : Option Redirection} (hplain : ¬ Plain name)
    (h : Instruction.ofLine modes (Text.trim name) = .ok { words, redirection }) :
    words.flatten.length < name.length := by
  obtain ⟨lead, trail, -, -, hname, -⟩ := Text.exists_gaps_trim name
  have hlength := congrArg List.length hname
  rw [List.length_append, List.length_append] at hlength
  obtain ⟨command, rfl, ⟨rfl, hno⟩ | hshorter⟩ := exists_command_of_ofLine h
  · by_cases hbare : ∃ c ∈ Text.trim name, isBare c = false
    · have hlt := length_flatten_wordsOf_lt hbare
      omega
    · -- Every character stands for itself, so it is blanks that the name has lost.
      have hbare : ∀ c ∈ Text.trim name, isBare c = true := by simpa using hbare
      have harrow : .char '>' ∉ Text.trim name := fun hmem =>
        hno (redirects_of_isBare modes.quoteAware hbare hmem)
      have hle := length_flatten_wordsOf_le (Text.trim name)
      have hne : Text.trim name ≠ name := by
        intro heq
        rw [heq] at hbare harrow
        exact hplain ⟨hbare, harrow⟩
      have hgaps : lead.length + trail.length ≠ 0 := by
        intro hzero
        have hlead := List.eq_nil_of_length_eq_zero (by omega : lead.length = 0)
        have htrail := List.eq_nil_of_length_eq_zero (by omega : trail.length = 0)
        rw [hlead, htrail, List.nil_append, List.append_nil] at hname
        exact hne hname.symm
      omega
  · have hle := length_flatten_wordsOf_le command
    omega

/-- A name that is not plain is no word of the line that it makes. -/
theorem not_mem_words_of_not_plain {modes : Modes} {name : Text} {words : List Text}
    {redirection : Option Redirection} (hplain : ¬ Plain name)
    (h : Instruction.ofLine modes (Text.trim name) = .ok { words, redirection }) :
    name ∉ words := by
  intro hmem
  have hlt := length_words_lt hplain h
  have hle := (List.infix_of_mem_flatten hmem).length_le
  omega

end LineShell

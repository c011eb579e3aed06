import LineShell.Proofs.Line.Joining
import LineShell.Proofs.Line.Occurrence
import LineShell.Proofs.Line.Plain

/-!
# Lines without quotes

Where no character quotes or escapes, words are the fields of a text: what stands between its
blanks.  So such a line is read alike whether or not operators inside quotes count, except that
quote-aware reading takes only the first field of what stands behind the operator.  Main statements:
`wordsOf_of_unquoted` and `quoteAware_reading_of_unquoted`.
-/

namespace LineShell

open Grammar (Gap)

/-! ## Fields -/

/-- What stands between the blanks of a text, without the empty pieces. -/
def Text.fields (t : Text) : List Text := (t.splitOnP isBlank).filter (· ≠ [])

namespace Text

/-- A blank ends a field. -/
theorem fields_append_blank {c : CodePoint} (hc : isBlank c = true) (t u : Text) :
    fields (t ++ c :: u) = fields t ++ fields u := by
  rw [fields, List.splitOnP_append_cons t u hc, List.filter_append]
  rfl

theorem fields_gap_append {g : Text} (hg : Gap g) (t : Text) : fields (g ++ t) = fields t := by
  induction g with
  | nil => rfl
  | cons c rest ih =>
    have hrest : Gap rest := fun d hd => hg d (List.mem_cons_of_mem c hd)
    have hcut := fields_append_blank (hg c List.mem_cons_self) [] (rest ++ t)
    rw [ih hrest] at hcut
    exact hcut

theorem fields_of_gap {g : Text} (hg : Gap g) : fields g = [] := by
  have hnil := fields_gap_append hg []
  rw [List.append_nil] at hnil
  rw [hnil]
  rfl

theorem fields_append_gap (t : Text) {g : Text} (hg : Gap g) : fields (t ++ g) = fields t := by
  cases g with
  | nil => rw [List.append_nil]
  | cons c rest =>
    have hrest : Gap rest := fun d hd => hg d (List.mem_cons_of_mem c hd)
    rw [fields_append_blank (hg c List.mem_cons_self), fields_of_gap hrest, List.append_nil]

theorem fields_trim (t : Text) : fields (trim t) = fields t := by
  obtain ⟨lead, trail, hlead, htrail, ht, -⟩ := exists_gaps_trim t
  conv_rhs => rw [ht, fields_append_gap _ htrail, fields_gap_append hlead]

/-- A text without blanks is one field, unless it is empty. -/
theorem fields_of_not_blank {t : Text} (h : ∀ c ∈ t, isBlank c = false) (hne : t ≠ []) :
    fields t = [t] := by
  rw [fields, List.splitOnP_eq_singleton h]
  simp [hne]

end Text

/-! ## Words of a text without quotes -/

section

variable {t line : Text}

theorem Unquoted.of_subset (h : Unquoted t) {u : Text} (hu : u ⊆ t) : Unquoted u :=
  fun c hc => h c (hu hc)

theorem endMode_of_unquoted (h : Unquoted t) : endMode t = .bare := by
  rw [← Guard.after_eq_empty_iff]
  by_cases hne : t = []
  · rw [hne, Guard.after_nil]
  · exact (Guard.eq_of_mark_eq_map hne (Guard.mark_of_unquoted h)).2

theorem wordsOf_of_isBare (h : ∀ c ∈ t, isBare c = true) : wordsOf t = Text.fields t := by
  by_cases hne : t = []
  · rw [hne]
    rfl
  · have hblank : ∀ c ∈ t, isBlank c = false := fun c hc => (isBare_iff.mp (h c hc)).1
    rw [Text.fields_of_not_blank hblank hne, wordsOf, run_start_of_isBare h hne]
    rfl

theorem isBare_of_mem_nil : ∀ c ∈ ([] : Text), isBare c = true := List.forall_mem_nil _

/-- The induction goes through a word, so what has been read of the word stands in front. -/
theorem wordsOf_append_of_unquoted {front : Text} (hfront : ∀ c ∈ front, isBare c = true)
    (h : Unquoted t) : wordsOf (front ++ t) = Text.fields (front ++ t) := by
  induction t generalizing front with
  | nil =>
    rw [List.append_nil]
    exact wordsOf_of_isBare hfront
  | cons c rest ih =>
    have hrest : Unquoted rest := h.of_subset (List.subset_cons_self c rest)
    cases hblank : isBlank c with
    | true =>
      -- The blank ends the word, and what follows begins anew.
      have hmode : endMode front = .bare := endMode_of_unquoted (unquoted_of_isBare hfront)
      have hrun := run_append_gap hmode (Grammar.gap_singleton hblank) (List.cons_ne_nil c [])
      have hwords := wordsOf_append_of_run hrun rest
      have hanew : wordsOf rest = Text.fields rest := ih isBare_of_mem_nil hrest
      rw [List.append_assoc, List.singleton_append] at hwords
      rw [hwords, Text.fields_append_blank hblank, wordsOf_of_isBare hfront, hanew]
    | false =>
      have hbare : isBare c = true := isBare_iff.mpr ⟨hblank, h c List.mem_cons_self⟩
      have hfront' : ∀ d ∈ front ++ [c], isBare d = true := by
        rw [List.forall_mem_append]
        exact ⟨hfront, by simpa using hbare⟩
      have hwords := ih hfront' hrest
      rw [List.append_assoc] at hwords
      exact hwords

/-- Where no character quotes or escapes, words are fields. -/
theorem wordsOf_of_unquoted (h : Unquoted t) : wordsOf t = Text.fields t :=
  wordsOf_append_of_unquoted isBare_of_mem_nil h

/-- Without quotes and backslashes the words are the fields. -/
theorem readWords_of_unquoted (strict : Bool) (h : Unquoted t) :
    readWords strict t = .ok (Text.fields t) := by
  rw [readWords_of_endMode_eq_bare strict (endMode_of_unquoted h), wordsOf_of_unquoted h]

/-! ## Cuts of a line without quotes -/

theorem Text.trim_subset (t : Text) : trim t ⊆ t := by
  obtain ⟨lead, trail, -, -, ht, -⟩ := exists_gaps_trim t
  intro c hc
  rw [ht]
  simp [hc]

theorem firstSplit_of_unquoted (h : Unquoted line) :
    firstSplit true line = firstSplit false line := by
  have hmarked : markedLine true line = markedLine false line := by
    rw [markedLine_of_unquoted true h, markedLine_of_unquoted false h]
  simp only [firstSplit, Operator.split, hmarked]

theorem targetPath_of_unquoted {rest : Text} (h : Unquoted rest) :
    targetPath true rest = (targetPath false rest).fields.headD [] := by
  have hraw : targetPath false rest = Text.trim rest := rfl
  have haware : targetPath true rest = (wordsOf rest).headD [] := rfl
  rw [hraw, haware, Text.fields_trim, wordsOf_of_unquoted h]

/-- A blank that a path holds is in none of its fields. -/
theorem headD_fields_eq_self_iff {path : Text} (h : Unquoted path) :
    path.fields.headD [] = path ↔ path = [] ∨ path.fields = [path] := by
  constructor
  · intro heq
    by_cases hbare : ∃ c ∈ path, isBare c = false
    · -- Quotes, escapes and blanks are lost by reading, so the words are shorter than the path.
      have hlt := length_flatten_wordsOf_lt hbare
      rw [wordsOf_of_unquoted h] at hlt
      cases hfields : path.fields with
      | nil =>
        rw [hfields] at heq
        exact .inl heq.symm
      | cons first rest =>
        rw [hfields, List.headD_cons] at heq
        rw [hfields, List.flatten_cons, List.length_append, heq] at hlt
        omega
    · by_cases hne : path = []
      · exact .inl hne
      · have hblank : ∀ c ∈ path, isBlank c = false := by
          intro c hc
          have hbare : isBare c = true := by
            simpa using fun hno => hbare ⟨c, hc, hno⟩
          exact (isBare_iff.mp hbare).1
        exact .inr (Text.fields_of_not_blank hblank hne)
  · rintro (hnil | hone)
    · rw [hnil]
      rfl
    · rw [hone, List.headD_cons]

end

def Redirection.toFirstField (r : Redirection) : Redirection :=
  { r with path := r.path.fields.headD [] }

section

variable {line : Text}

theorem cutRedirection_subset (line : Text) : (cutRedirection false line).1 ⊆ line ∧
    ∀ r ∈ (cutRedirection false line).2, r.path ⊆ line := by
  rw [cutRedirection_eq]
  cases hfirst : firstSplit false line with
  | none => exact ⟨List.Subset.refl line, by simp⟩
  | some cut =>
    obtain ⟨op, command, rest⟩ := cut
    obtain ⟨-, hline⟩ := cutAt_of_firstSplit hfirst
    have hrest : Text.trim rest ⊆ line := by
      intro c hc
      rw [hline]
      exact List.mem_append_right _ (Text.trim_subset rest hc)
    refine ⟨?_, ?_⟩
    · rw [hline, List.append_assoc]
      exact List.subset_append_left command _
    · rintro r ⟨⟩
      exact hrest

/-- Without quotes and backslashes quote-aware reading cuts alike and takes the first field of the
path. -/
theorem cutRedirection_of_unquoted (h : Unquoted line) : cutRedirection true line =
    ((cutRedirection false line).1,
      (cutRedirection false line).2.map Redirection.toFirstField) := by
  rw [cutRedirection_eq, cutRedirection_eq, firstSplit_of_unquoted h]
  cases hfirst : firstSplit false line with
  | none => rfl
  | some cut =>
    obtain ⟨op, command, rest⟩ := cut
    obtain ⟨-, hline⟩ := cutAt_of_firstSplit hfirst
    have hrest : Unquoted rest := by
      apply h.of_subset
      rw [hline]
      exact List.subset_append_right _ rest
    simp only [targetPath_of_unquoted hrest, Option.map_some, Redirection.toFirstField]

theorem ofLine_of_unquoted (modes : Modes) (h : Unquoted line) :
    Instruction.ofLine modes line =
      .ok { words := (cutRedirection false line).1.fields
            redirection := (cutRedirection modes.quoteAware line).2 } := by
  have hcommand : (cutRedirection modes.quoteAware line).1 = (cutRedirection false line).1 := by
    cases modes.quoteAware with
    | false => rfl
    | true => rw [cutRedirection_of_unquoted h]
  have hread := readWords_of_unquoted modes.strict (h.of_subset (cutRedirection_subset line).1)
  rw [← hcommand] at hread ⊢
  simp only [Instruction.ofLine, hread]

/-- A line without quotes and backslashes is cut at the same place, by the same operator, whether or
not operators inside quotes count; only the path is its first field under quote-aware reading, and
empty if there is none.  So the words are the fields of the same command, strict or not, and the
whole line asks for the same exactly when the path is empty or one field. -/
theorem quoteAware_reading_of_unquoted (h : Unquoted line) :
    (cutRedirection true line).1 = (cutRedirection false line).1 ∧
      (cutRedirection true line).2 =
        (cutRedirection false line).2.map Redirection.toFirstField ∧
      (∀ quoteAware strict, Instruction.ofLine { quoteAware, strict } line =
        .ok { words := (cutRedirection false line).1.fields
              redirection := (cutRedirection quoteAware line).2 }) ∧
      ∀ strict, Instruction.ofLine { quoteAware := true, strict } line =
          Instruction.ofLine { quoteAware := false, strict } line ↔
        ∀ r ∈ (cutRedirection false line).2, r.path = [] ∨ r.path.fields = [r.path] := by
  have hcut := cutRedirection_of_unquoted h
  refine ⟨by rw [hcut], by rw [hcut], fun _ _ => ofLine_of_unquoted _ h, fun strict => ?_⟩
  have hpath := (cutRedirection_subset line).2
  rw [ofLine_of_unquoted _ h, ofLine_of_unquoted _ h, hcut]
  cases hraw : (cutRedirection false line).2 with
  | none => simp
  | some r =>
    have hself := headD_fields_eq_self_iff (h.of_subset (hpath r hraw))
    obtain ⟨stream, mode, path⟩ := r
    simpa [Redirection.toFirstField] using hself

/-- Digits and arrows run together, the blanks are no ASCII ones, and the path has several
fields. -/
theorem quoteAware_reading_of_arrows :
    let line := "a\u30001 21>>>\u2003x\u0085y ".toText
    Unquoted line ∧
      cutRedirection false line = ("a\u30001 2".toText,
        some { stream := .stdout, mode := .append, path := ">\u2003x\u0085y".toText }) ∧
      Instruction.ofLine { quoteAware := true, strict := true } line =
        .ok { words := ["a".toText, "1".toText, "2".toText]
              redirection := some { stream := .stdout, mode := .append, path := ">".toText } } ∧
      Instruction.ofLine { quoteAware := true } line ≠
        Instruction.ofLine { quoteAware := false } line := by
  intro line
  have hline : Unquoted line := by decide
  have hcut : cutRedirection false line = ("a\u30001 2".toText,
      some { stream := .stdout, mode := .append, path := ">\u2003x\u0085y".toText }) := by
    decide
  obtain ⟨-, haware, hread, hsame⟩ := quoteAware_reading_of_unquoted hline
  refine ⟨hline, hcut, ?_, ?_⟩
  · rw [hread, haware, hcut]
    decide
  · rw [Ne, hsame, hcut]
    decide

end

end LineShell

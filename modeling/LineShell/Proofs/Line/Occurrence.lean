import LineShell.Proofs.Line.Trim

/-!
# Where a line is cut

An operator counts at a place of a line where its spelling stands and, under quote-aware reading,
every character of the spelling is live.  The marks of a line say the same of each of its
characters, so a search through the marked line is a search for such places: `liveAt_iff_marked`.
Main statement: `cutRedirection_at_first_operator`, a line is cut at the leftmost place of the first
operator of the table that counts anywhere on it.
-/

namespace LineShell

/-! ## Places that count -/

/-- The scan of what stands before the place ends outside quotes and not behind a backslash, and no
quoting character stands at the place itself. -/
def LiveChar (t : Text) (i : Nat) : Prop :=
  endMode (t.take i) = .bare ∧ ∀ c ∈ t[i]?, c ∉ [.char '\\', .char '\'', .char '"']

instance (t : Text) (i : Nat) : Decidable (LiveChar t i) := inferInstanceAs (Decidable (_ ∧ _))

/-- A spelling stands at a place of the line, and it counts there: without quote-aware reading
always, and otherwise if none of its characters is quoted, escaped or quoting itself. -/
def LiveAt (quoteAware : Bool) (spelling line : Text) (i : Nat) : Prop :=
  spelling <+: line.drop i ∧
    (quoteAware = true → ∀ k < spelling.length, LiveChar line (i + k))

instance (quoteAware : Bool) (spelling line : Text) (i : Nat) :
    Decidable (LiveAt quoteAware spelling line i) :=
  inferInstanceAs (Decidable (_ ∧ _))

/-- A spelling counts somewhere on the line. -/
def Occurs (quoteAware : Bool) (spelling line : Text) : Prop :=
  ∃ i, LiveAt quoteAware spelling line i

/-- The operators that a line is searched for before this one. -/
def Operator.earlier (op : Operator) : List Operator := Operator.table.takeWhile (· ≠ op)

/-- Where a line is to be cut: no operator that comes before this one in the table counts anywhere
on the line, and this one counts at the place and nowhere to the left of it. -/
structure CutAt (quoteAware : Bool) (line : Text) (op : Operator) (i : Nat) : Prop where
  known : op ∈ Operator.table
  first : ∀ other ∈ op.earlier, ¬ Occurs quoteAware other.spelling line
  live : LiveAt quoteAware op.spelling line i
  leftmost : ∀ j, LiveAt quoteAware op.spelling line j → i ≤ j

section

variable {quoteAware : Bool} {spelling line : Text} {i : Nat}

/-! ## Places in the marked line -/

/-- A character is marked where it is live, and everywhere without quote-aware reading. -/
theorem getElem?_markedLine_eq_true_iff {t : Text} {c : CodePoint} :
    (markedLine quoteAware t)[i]? = some (c, true) ↔
      t[i]? = some c ∧ (quoteAware = true → LiveChar t i) := by
  cases quoteAware with
  | false => simp [markedLine]
  | true =>
    rw [markedLine, if_pos rfl, List.getElem?_zip_eq_some]
    refine and_congr_right fun hc => ?_
    rw [getElem?_liveMarks_eq_true_iff hc, LiveChar, hc]
    simp

/-- A spelling counts where it stands in the marked line with every character marked. -/
theorem liveAt_iff_marked : LiveAt quoteAware spelling line i ↔
    spelling.map (·, true) <+: (markedLine quoteAware line).drop i := by
  rw [LiveAt, List.prefix_iff_getElem?, List.prefix_iff_getElem?]
  simp only [List.getElem?_drop, List.length_map, List.getElem_map,
    getElem?_markedLine_eq_true_iff]
  constructor
  · intro h k hk
    exact ⟨h.1 k hk, fun haware => h.2 haware k hk⟩
  · intro h
    exact ⟨fun k hk => (h k hk).1, fun haware k hk => (h k hk).2 haware⟩

/-- A spelling counts where all of its characters are marked. -/
theorem occurs_iff_marked : Occurs quoteAware spelling line ↔
    spelling.map (·, true) <:+: markedLine quoteAware line := by
  simp only [Occurs, liveAt_iff_marked]
  constructor
  · rintro ⟨i, h⟩
    exact h.isInfix.trans (List.drop_suffix i _).isInfix
  · rintro ⟨p, q, h⟩
    refine ⟨p.length, q, ?_⟩
    rw [← h, List.append_assoc, List.drop_left]

theorem Occurs.of_infix {part : Text} (h : Occurs quoteAware spelling line)
    (hpart : part <:+: spelling) : Occurs quoteAware part line := by
  rw [occurs_iff_marked] at h ⊢
  exact (hpart.map _).trans h

theorem LiveAt.length_le (h : LiveAt quoteAware spelling line i) (hne : spelling ≠ []) :
    i + spelling.length ≤ line.length := by
  have hlength := h.1.length_le
  have hpos := List.length_pos_of_ne_nil hne
  rw [List.length_drop] at hlength
  omega

/-- What stands behind a text has no part in where the text is quoted. -/
theorem LiveChar.append {t : Text} (h : LiveChar t i) (hi : i < t.length) (u : Text) :
    LiveChar (t ++ u) i := by
  rw [LiveChar, List.take_append_of_le_length (Nat.le_of_lt hi), List.getElem?_append_left hi]
  exact h

theorem LiveAt.append {t : Text} (h : LiveAt quoteAware spelling t i) (hne : spelling ≠ [])
    (u : Text) : LiveAt quoteAware spelling (t ++ u) i := by
  have hlength := h.length_le hne
  refine ⟨?_, fun haware k hk => (h.2 haware k hk).append (by omega) u⟩
  rw [List.drop_append_of_le_length (by omega)]
  exact h.1.trans (List.prefix_append _ u)

end

/-! ## The place of the cut -/

section

variable {quoteAware : Bool} {line command rest : Text} {op : Operator}

/-- An operator is not found exactly if its spelling counts nowhere. -/
theorem Operator.split_eq_none_iff (hop : op ∈ Operator.table) :
    op.split quoteAware line = none ↔ ¬ Occurs quoteAware op.spelling line := by
  rw [Operator.split, ← Option.not_isSome_iff_eq_none,
    isSome_splitAtMarked_iff (Operator.spelling_ne_nil hop), occurs_iff_marked]

/-- An operator is split off at the leftmost place where it counts. -/
theorem Operator.split_spec (h : op.split quoteAware line = some (command, rest)) :
    line = command ++ op.spelling ++ rest ∧
      LiveAt quoteAware op.spelling line command.length ∧
      ∀ j, LiveAt quoteAware op.spelling line j → command.length ≤ j := by
  obtain ⟨p, q, hmarked, rfl, rfl, hleft⟩ := eq_append_of_splitAtMarked h
  rw [List.length_map]
  refine ⟨?_, ?_, ?_⟩
  · rw [append_of_splitAtMarked h, map_fst_markedLine]
  · rw [liveAt_iff_marked, hmarked, List.append_assoc, List.drop_left]
    exact List.prefix_append _ q
  · intro j hj
    rw [liveAt_iff_marked] at hj
    obtain ⟨q', hq'⟩ := hj
    have hle := hleft ((markedLine quoteAware line).take j) q' (by
      rw [List.append_assoc, hq', List.take_append_drop])
    exact hle.trans (List.length_take_le j _)

/-- The first operator that is found cuts the line where it counts first. -/
theorem cutAt_of_firstSplit (h : firstSplit quoteAware line = some (op, command, rest)) :
    CutAt quoteAware line op command.length ∧ line = command ++ op.spelling ++ rest := by
  obtain ⟨front, found, back, htable, hfound, hfront⟩ := List.findSome?_eq_some_iff.mp h
  obtain ⟨cut, hsplit, heq⟩ := Option.map_eq_some_iff.mp hfound
  cases heq
  have hmem : ∀ other ∈ front ++ op :: back, other ∈ Operator.table := by
    rw [htable]
    exact fun _ h => h
  have hop : op ∈ Operator.table := hmem op (by simp)
  obtain ⟨hline, hlive, hleftmost⟩ := Operator.split_spec hsplit
  have hnone : ∀ other ∈ front, ¬ Occurs quoteAware other.spelling line := by
    intro other hother
    rw [← Operator.split_eq_none_iff (hmem other (by simp [hother]))]
    exact Option.map_eq_none_iff.mp (hfront other hother)
  -- The operator that is found is none of those that are not.
  have hearlier : op.earlier = front := by
    have hne : ∀ other ∈ front, decide (other ≠ op) = true := by
      intro other hother
      rw [decide_eq_true_iff]
      rintro rfl
      exact hnone other hother ⟨_, hlive⟩
    rw [Operator.earlier, htable, List.takeWhile_append_of_pos hne,
      List.takeWhile_cons_of_neg (by simp), List.append_nil]
  refine ⟨⟨hop, ?_, hlive, hleftmost⟩, hline⟩
  rw [hearlier]
  exact hnone

/-- A line is not cut exactly if no arrow counts on it. -/
theorem firstSplit_eq_none_iff :
    firstSplit quoteAware line = none ↔ ¬ Occurs quoteAware ['>'] line := by
  rw [firstSplit, List.findSome?_eq_none_iff]
  constructor
  · intro h
    have hlone : { spelling := ['>'], stream := .stdout, mode := .truncate } ∈ Operator.table := by
      decide
    exact (Operator.split_eq_none_iff hlone).mp (Option.map_eq_none_iff.mp (h _ hlone))
  · intro h op hop
    rw [Option.map_eq_none_iff, Operator.split_eq_none_iff hop]
    intro hoccurs
    obtain ⟨s, t, hspelling⟩ := List.append_of_mem (Operator.mem_spelling hop)
    exact h (hoccurs.of_infix ⟨s, t, by simp [hspelling]⟩)

/-! ## What the operator asks for -/

/-- An operator that asks for appending holds the double arrow, and the others come behind it. -/
theorem CutAt.mode_eq_append_iff {i : Nat} (h : CutAt quoteAware line op i) :
    op.mode = .append ↔ Occurs quoteAware ['>', '>'] line := by
  have htable : ∀ op ∈ Operator.table,
      (op.mode = .append → [.char '>', .char '>'] <:+: op.spelling) ∧
      (op.mode ≠ .append → ∃ other ∈ op.earlier, other.spelling = [.char '>', .char '>']) := by
    decide
  obtain ⟨happend, htruncate⟩ := htable op h.known
  constructor
  · intro hmode
    exact Occurs.of_infix ⟨i, h.live⟩ (happend hmode)
  · intro hoccurs
    by_contra hmode
    obtain ⟨other, hother, hspelling⟩ := htruncate hmode
    exact h.first other hother (by rwa [hspelling])

/-- The error stream is redirected if its operator counts and no operator in front of it in the
table does. -/
theorem CutAt.stream_eq_stderr_iff {i : Nat} (h : CutAt quoteAware line op i) :
    op.stream = .stderr ↔
      (Occurs quoteAware ['2', '>', '>'] line ∧ ¬ Occurs quoteAware ['1', '>', '>'] line) ∨
      (Occurs quoteAware ['2', '>'] line ∧ ¬ Occurs quoteAware ['>', '>'] line ∧
        ¬ Occurs quoteAware ['1', '>'] line) := by
  -- Everything that is needed of the table: which spellings come before which operator.
  have htable : ∀ op ∈ Operator.table,
      (op.stream = .stderr →
        (op.spelling = [.char '2', .char '>', .char '>'] ∧
          ∃ other ∈ op.earlier, other.spelling = [.char '1', .char '>', .char '>']) ∨
        (op.spelling = [.char '2', .char '>'] ∧
          (∃ other ∈ op.earlier, other.spelling = [.char '>', .char '>']) ∧
          ∃ other ∈ op.earlier, other.spelling = [.char '1', .char '>'])) ∧
      (op.stream ≠ .stderr →
        (op.spelling = [.char '1', .char '>', .char '>'] ∨
          ∃ other ∈ op.earlier, other.spelling = [.char '2', .char '>', .char '>']) ∧
        ([.char '>', .char '>'] <:+: op.spelling ∨ op.spelling = [.char '1', .char '>'] ∨
          ∃ other ∈ op.earlier, other.spelling = [.char '2', .char '>'])) := by
    decide
  -- An earlier operator does not occur, since the first that does is the one that counts.
  have hfirst : ∀ {spelling : Text}, (∃ other ∈ op.earlier, other.spelling = spelling) →
      ¬ Occurs quoteAware spelling line := by
    rintro spelling ⟨other, hother, rfl⟩
    exact h.first other hother
  have hfound : Occurs quoteAware op.spelling line := ⟨i, h.live⟩
  obtain ⟨hstderr, hstdout⟩ := htable op h.known
  constructor
  · intro hstream
    rcases hstderr hstream with ⟨hspelling, hone⟩ | ⟨hspelling, harrows, hone⟩
    · exact .inl ⟨hspelling ▸ hfound, hfirst hone⟩
    · exact .inr ⟨hspelling ▸ hfound, hfirst harrows, hfirst hone⟩
  · intro hoccurs
    by_contra hstream
    obtain ⟨hdouble, hsingle⟩ := hstdout hstream
    rcases hoccurs with ⟨htwo, hone⟩ | ⟨htwo, harrows, hone⟩
    · rcases hdouble with hspelling | hearlier
      · exact hone (hspelling ▸ hfound)
      · exact hfirst hearlier htwo
    · rcases hsingle with hpart | hspelling | hearlier
      · exact harrows (hfound.of_infix hpart)
      · exact hone (hspelling ▸ hfound)
      · exact hfirst hearlier htwo

end

/-- A line on which no `>` counts is left whole.  Any other line is cut at the leftmost place of the
first operator that counts anywhere on it: nothing but the operator is lost, it counts nowhere in
the command, and it tells the stream and the mode.  The path is the rest of the line without the
blanks at its ends, or under quote-aware reading the first word of the rest.  So data is added to
the file exactly when `>>` counts somewhere, and it is the error stream that goes there exactly when
`2>>` counts and `1>>` does not, or `2>` does and neither `>>` nor `1>`. -/
theorem cutRedirection_at_first_operator (quoteAware : Bool) (line : Text) :
    (¬ Occurs quoteAware ['>'] line ∧ cutRedirection quoteAware line = (line, none) ∨
      Occurs quoteAware ['>'] line ∧ ∃ op command rest,
        CutAt quoteAware line op command.length ∧ line = command ++ op.spelling ++ rest ∧
        ¬ Occurs quoteAware op.spelling command ∧
        cutRedirection quoteAware line = (command, some
          { stream := op.stream, mode := op.mode
            path := if quoteAware then (wordsOf rest).headD [] else Text.trim rest })) ∧
    ((∃ r ∈ (cutRedirection quoteAware line).2, r.mode = .append) ↔
      Occurs quoteAware ['>', '>'] line) ∧
    ((∃ r ∈ (cutRedirection quoteAware line).2, r.stream = .stderr) ↔
      (Occurs quoteAware ['2', '>', '>'] line ∧ ¬ Occurs quoteAware ['1', '>', '>'] line) ∨
      (Occurs quoteAware ['2', '>'] line ∧ ¬ Occurs quoteAware ['>', '>'] line ∧
        ¬ Occurs quoteAware ['1', '>'] line)) := by
  cases hfirst : firstSplit quoteAware line with
  | none =>
    have hcut : cutRedirection quoteAware line = (line, none) := by
      rw [cutRedirection_eq, hfirst]
    have harrow := firstSplit_eq_none_iff.mp hfirst
    -- Every operator holds the arrow that occurs nowhere.
    have hnone : ∀ spelling : Text, [.char '>'] <:+: spelling → ¬ Occurs quoteAware spelling line :=
      fun _ hpart hoccurs => harrow (hoccurs.of_infix hpart)
    refine ⟨.inl ⟨harrow, hcut⟩, ?_, ?_⟩
    · rw [hcut]
      simp [hnone ['>', '>'] (by decide)]
    · rw [hcut]
      simp [hnone ['2', '>', '>'] (by decide), hnone ['2', '>'] (by decide)]
  | some cut =>
    obtain ⟨op, command, rest⟩ := cut
    obtain ⟨hat, hline⟩ := cutAt_of_firstSplit hfirst
    have hcut : cutRedirection quoteAware line = (command, some
        { stream := op.stream, mode := op.mode, path := targetPath quoteAware rest }) := by
      rw [cutRedirection_eq, hfirst]
    have harrow : Occurs quoteAware ['>'] line := by
      by_contra hno
      rw [firstSplit_eq_none_iff.mpr hno] at hfirst
      cases hfirst
    have hcommand : ¬ Occurs quoteAware op.spelling command := by
      rintro ⟨j, hj⟩
      have hne := Operator.spelling_ne_nil hat.known
      have hline' : line = command ++ (op.spelling ++ rest) := by
        rw [← List.append_assoc, ← hline]
      -- It would count there on the line too, to the left of the cut.
      have hleft := hat.leftmost j (by rw [hline']; exact hj.append hne _)
      have hlength := hj.length_le hne
      have hpos := List.length_pos_of_ne_nil hne
      omega
    refine ⟨.inr ⟨harrow, op, command, rest, hat, hline, hcommand, hcut⟩, ?_, ?_⟩
    · rw [hcut, ← hat.mode_eq_append_iff]
      simp
    · rw [hcut, ← hat.stream_eq_stderr_iff]
      simp

-- The first arrow is escaped, so the double arrow is found one character further on.
example : cutRedirection true "a\\>>>b".toText =
    ("a\\>".toText, some { stream := .stdout, mode := .append, path := "b".toText }) := by
  decide

end LineShell

import LineShell.Line.Operator
import LineShell.Proofs.Line.Liveness

/-!
# Cutting a line at its redirection

A line has a redirection exactly when a `>` in it may spell an operator.  Under quote-aware reading
the cut stands outside quotes: what is before it can be read on its own, and what is behind it is
read as if nothing came before.  Main statement: `liveMarks_agree_with_scan`.
-/

namespace LineShell

theorem Operator.mem_spelling {op : Operator} (h : op ∈ Operator.table) :
    .char '>' ∈ op.spelling := by
  revert op
  decide

theorem Operator.spelling_ne_nil {op : Operator} (h : op ∈ Operator.table) : op.spelling ≠ [] :=
  List.ne_nil_of_mem (Operator.mem_spelling h)

theorem Operator.space_not_mem_spelling {op : Operator} (h : op ∈ Operator.table) :
    .char ' ' ∉ op.spelling := by
  revert op
  decide

/-! ## Places where a spelling stands -/

section SplitAtMarked

variable {spelling : Text} {marked : List (CodePoint × Bool)}

/-- A text is cut exactly when the spelling stands in it with every character marked. -/
theorem isSome_splitAtMarked_iff (hne : spelling ≠ []) :
    (splitAtMarked spelling marked).isSome ↔ spelling.map (·, true) <:+: marked := by
  constructor
  · intro h
    rcases Option.isSome_iff_exists.mp h with ⟨⟨before, after⟩, hcut⟩
    rcases eq_append_of_splitAtMarked hcut with ⟨p, q, hmarked, -⟩
    exact ⟨p, q, hmarked.symm⟩
  · intro h
    induction marked with
    | nil => simp [hne] at h
    | cons c rest ih =>
      unfold splitAtMarked
      split
      · rfl
      · next hno =>
        rw [Option.isSome_map]
        rcases List.infix_cons_iff.mp h with h | h
        · exact absurd (List.isPrefixOf_iff_prefix.mpr h) hno
        · exact ih h

/-- A spelling is not found if one of its characters is marked nowhere. -/
theorem splitAtMarked_eq_none_of_not_mem {c : CodePoint} (hc : c ∈ spelling)
    (h : (c, true) ∉ marked) : splitAtMarked spelling marked = none := by
  rw [← Option.not_isSome_iff_eq_none, isSome_splitAtMarked_iff (List.ne_nil_of_mem hc)]
  intro hoccurs
  exact h (hoccurs.subset (List.mem_map.mpr ⟨c, hc, rfl⟩))

/-- A prefix reaches no further than the first element that it does not hold. -/
theorem prefix_of_prefix_append_cons {α : Type} {l a b : List α} {x : α}
    (h : l <+: a ++ x :: b) (hx : x ∉ l) : l <+: a := by
  rcases List.prefix_or_prefix_of_prefix h (List.prefix_append a (x :: b)) with hla | hal
  · exact hla
  · rcases hal with ⟨l', rfl⟩
    have hl' : l' <+: x :: b := (List.prefix_append_right_inj a).mp h
    rcases List.prefix_cons_iff.mp hl' with rfl | ⟨l'', rfl, -⟩
    · simp
    · simp at hx

/-- A spelling stands on one side of a character that it does not hold. -/
theorem splitAtMarked_append_cons {x : CodePoint × Bool} (hne : spelling ≠ [])
    (hx : x ∉ spelling.map (·, true)) (p q : List (CodePoint × Bool)) :
    splitAtMarked spelling (p ++ x :: q) =
      match splitAtMarked spelling p with
      | some (before, after) => some (before, after ++ x.1 :: q.map Prod.fst)
      | none => (splitAtMarked spelling q).map fun (before, after) =>
          (p.map Prod.fst ++ x.1 :: before, after) := by
  -- Induction on what stands in front: the spelling begins there, or further on.
  induction p with
  | nil =>
    have hno : (spelling.map (·, true)).isPrefixOf (x :: q) = false := by
      rw [Bool.eq_false_iff, ne_eq, List.isPrefixOf_iff_prefix]
      intro h
      -- A spelling that began here would have to hold the character.
      have hnil := prefix_of_prefix_append_cons (a := []) h hx
      simp [hne] at hnil
    simp [splitAtMarked, hno]
  | cons c p ih =>
    rw [List.cons_append, splitAtMarked]
    by_cases hc : (spelling.map (·, true)).isPrefixOf (c :: p) = true
    · have hstands := List.isPrefixOf_iff_prefix.mp hc
      have hlen : spelling.length ≤ (c :: p).length := by simpa using hstands.length_le
      have hc' : (spelling.map (·, true)).isPrefixOf (c :: (p ++ x :: q)) = true :=
        List.isPrefixOf_iff_prefix.mpr (hstands.trans (List.prefix_append (c :: p) (x :: q)))
      have hdrop : (c :: (p ++ x :: q)).drop spelling.length =
          (c :: p).drop spelling.length ++ x :: q := by
        rw [← List.cons_append, List.drop_append_of_le_length hlen]
      simp [splitAtMarked, hc, hc', hdrop]
    · have hc' : ¬ (spelling.map (·, true)).isPrefixOf (c :: (p ++ x :: q)) = true := by
        intro h
        -- If it begins in front it also ends there, or it would hold the character.
        have h' := prefix_of_prefix_append_cons (a := c :: p) (List.isPrefixOf_iff_prefix.mp h) hx
        exact hc (List.isPrefixOf_iff_prefix.mpr h')
      have hcons : splitAtMarked spelling (c :: p) =
          (splitAtMarked spelling p).map fun (before, after) => (c.1 :: before, after) := by
        rw [splitAtMarked, if_neg hc]
      rw [if_neg hc', ih, hcons]
      cases splitAtMarked spelling p <;> cases splitAtMarked spelling q <;> rfl

end SplitAtMarked

/-! ## Cuts of a line -/

/-- A line redirects when a `>` in it may spell an operator. -/
def Redirects (quoteAware : Bool) (line : Text) : Prop :=
  (.char '>', true) ∈ markedLine quoteAware line

instance (quoteAware : Bool) (line : Text) : Decidable (Redirects quoteAware line) :=
  inferInstanceAs (Decidable (_ ∈ _))

theorem markedLine_true (line : Text) : markedLine true line = ({} : Guard).mark line := rfl

theorem redirects_false_iff {line : Text} : Redirects false line ↔ .char '>' ∈ line := by
  simp [Redirects, markedLine]

theorem map_fst_markedLine (quoteAware : Bool) (line : Text) :
    (markedLine quoteAware line).map Prod.fst = line := by
  cases quoteAware with
  | false => simp [markedLine, Function.comp_def]
  | true => rw [markedLine_true, Guard.map_fst_mark]

/-- Either a line does not redirect and is left whole, or it is cut at an operator of the table. -/
theorem cutRedirection_cases (quoteAware : Bool) (line : Text) :
    (¬ Redirects quoteAware line ∧ cutRedirection quoteAware line = (line, none)) ∨
      (Redirects quoteAware line ∧ ∃ op ∈ Operator.table, ∃ command rest,
        op.split quoteAware line = some (command, rest) ∧
        cutRedirection quoteAware line = (command, some
          { stream := op.stream, mode := op.mode, path := targetPath quoteAware rest })) := by
  cases hfind : Operator.table.findSome? fun op => (op.split quoteAware line).map (op, ·) with
  | none =>
    refine .inl ⟨?_, by simp [cutRedirection, hfind]⟩
    intro hredirects
    -- The operator that is a lone `>` stands at every place of a `>`.
    have hlone : { spelling := ['>'], stream := .stdout, mode := .truncate } ∈ Operator.table := by
      decide
    have hnone := List.findSome?_eq_none_iff.mp hfind _ hlone
    rw [Option.map_eq_none_iff, Operator.split, ← Option.not_isSome_iff_eq_none,
      isSome_splitAtMarked_iff (by simp)] at hnone
    rcases List.append_of_mem hredirects with ⟨p, q, hmarked⟩
    exact hnone ⟨p, q, by simp [hmarked]⟩
  | some found =>
    rcases List.exists_of_findSome?_eq_some hfind with ⟨op, hop, hsplit⟩
    rcases Option.map_eq_some_iff.mp hsplit with ⟨⟨command, rest⟩, hcut, rfl⟩
    refine .inr ⟨?_, op, hop, command, rest, hcut, by simp [cutRedirection, hfind]⟩
    by_cases hredirects : Redirects quoteAware line
    · exact hredirects
    · have hnone := splitAtMarked_eq_none_of_not_mem (Operator.mem_spelling hop) hredirects
      rw [Operator.split, hnone] at hcut
      cases hcut

/-- An operator comes before all others that stand in its spelling. -/
theorem Operator.findSome?_spelling {op : Operator} (h : op ∈ Operator.table) :
    (Operator.table.findSome? fun other =>
      (splitAtMarked other.spelling (op.spelling.map (·, true))).map (other, ·)) =
        some (op, [], []) := by
  revert op
  decide

/-- An operator between spaces is where a line is cut if no other `>` may spell one. -/
theorem cutRedirection_of_marked {quoteAware : Bool} {line : Text} {op : Operator}
    {p q : List (CodePoint × Bool)} (hop : op ∈ Operator.table) (hp : (.char '>', true) ∉ p)
    (hq : (.char '>', true) ∉ q)
    (hline : markedLine quoteAware line =
      p ++ (.char ' ', true) :: (op.spelling.map (·, true) ++ (.char ' ', true) :: q)) :
    cutRedirection quoteAware line = (p.map Prod.fst ++ [.char ' '], some
      { stream := op.stream, mode := op.mode,
        path := targetPath quoteAware (.char ' ' :: q.map Prod.fst) }) := by
  -- The spaces keep every operator within the spelling of this one.
  have hsplit : ∀ other ∈ Operator.table, other.split quoteAware line =
      (splitAtMarked other.spelling (op.spelling.map (·, true))).map fun (before, after) =>
        (p.map Prod.fst ++ .char ' ' :: before, after ++ .char ' ' :: q.map Prod.fst) := by
    intro other hother
    have harrow := Operator.mem_spelling hother
    have hne := Operator.spelling_ne_nil hother
    have hspace : (.char ' ', true) ∉ other.spelling.map (·, true) := by
      simpa using Operator.space_not_mem_spelling hother
    rw [Operator.split, hline, splitAtMarked_append_cons hne hspace,
      splitAtMarked_eq_none_of_not_mem harrow hp, splitAtMarked_append_cons hne hspace]
    cases splitAtMarked other.spelling (op.spelling.map (·, true)) with
    | none => simp [splitAtMarked_eq_none_of_not_mem harrow hq]
    | some cut => rfl
  have hfind : (Operator.table.findSome? fun other =>
      (other.split quoteAware line).map (other, ·)) =
        some (op, p.map Prod.fst ++ [.char ' '], .char ' ' :: q.map Prod.fst) := by
    rcases List.findSome?_eq_some_iff.mp (Operator.findSome?_spelling hop) with
      ⟨front, first, back, htable, hfirst, hfront⟩
    rcases Option.map_eq_some_iff.mp hfirst with ⟨cut, hcut, heq⟩
    rcases Prod.mk.inj heq with ⟨rfl, rfl⟩
    refine List.findSome?_eq_some_iff.mpr ⟨front, first, back, htable, ?_, ?_⟩
    · rw [hsplit first hop, hcut]
      rfl
    · intro other hother
      have hmem : other ∈ Operator.table := by rw [htable]; simp [hother]
      rw [hsplit other hmem]
      simpa using hfront other hother
  rw [cutRedirection, hfind]

/-- The marks of an operator do not depend on the command, if that ends outside quotes. -/
theorem markedLine_directive (quoteAware : Bool) {op : Operator} (hop : op ∈ Operator.table)
    {command : Text} (hmode : endMode command = .bare) (target : Text) :
    markedLine quoteAware (command ++ .char ' ' :: (op.spelling ++ .char ' ' :: target)) =
      markedLine quoteAware command ++ (.char ' ', true) ::
        (op.spelling.map (·, true) ++ (.char ' ', true) :: markedLine quoteAware target) := by
  cases quoteAware with
  | false => simp [markedLine]
  | true =>
    have hspace : ({} : Guard).admits ' ' = true ∧ ({} : Guard).next ' ' = {} := by
      simp [Guard.admits, Guard.next]
    have hspelling : ({} : Guard).mark op.spelling = op.spelling.map (·, true) ∧
        ({} : Guard).after op.spelling = {} := by
      revert op
      decide
    rw [markedLine_true, markedLine_true, markedLine_true, Guard.mark_append,
      Guard.after_eq_empty_iff.mpr hmode, Guard.mark_cons, hspace.1, hspace.2, Guard.mark_append,
      hspelling.1, hspelling.2, Guard.mark_cons, hspace.1, hspace.2]

/-- A command and a target that spell no operator are cut apart at the operator between them. -/
theorem cutRedirection_directive (quoteAware : Bool) {op : Operator} (hop : op ∈ Operator.table)
    {command target : Text} (hmode : endMode command = .bare)
    (hcommand : ¬ Redirects quoteAware command) (htarget : ¬ Redirects quoteAware target) :
    cutRedirection quoteAware (command ++ .char ' ' :: (op.spelling ++ .char ' ' :: target)) =
      (command ++ [.char ' '], some
        { stream := op.stream, mode := op.mode
          path := targetPath quoteAware (.char ' ' :: target) }) := by
  rw [cutRedirection_of_marked hop hcommand htarget
      (markedLine_directive quoteAware hop hmode target),
    map_fst_markedLine, map_fst_markedLine]

/-- Under quote-aware reading a cut stands outside quotes, and so does what follows it. -/
theorem Operator.endMode_of_split {op : Operator} {line command rest : Text}
    (hop : op ∈ Operator.table) (h : op.split true line = some (command, rest)) :
    line = command ++ op.spelling ++ rest ∧ endMode command = .bare ∧
      endMode (command ++ op.spelling) = .bare := by
  rcases eq_append_of_splitAtMarked h with ⟨p, q, hmarked, rfl, rfl, -⟩
  rw [markedLine_true] at hmarked
  -- The marked line falls into three marked texts, and the one in the middle is the spelling.
  rcases Guard.mark_eq_append hmarked with ⟨front, rest, rfl, hfront, hrest⟩
  rcases Guard.mark_eq_append hfront.symm with ⟨command, spelling, rfl, hcommand, hspelling⟩
  have heq : spelling = op.spelling := by
    have hfst := congrArg (List.map Prod.fst) hspelling
    simpa [List.map_map, Function.comp_def] using hfst.symm
  subst heq
  have hne := Operator.spelling_ne_nil hop
  have hlive := Guard.eq_of_mark_eq_map hne hspelling.symm
  rw [← Guard.after_append] at hlive
  rw [hcommand, hrest, Guard.map_fst_mark, Guard.map_fst_mark]
  exact ⟨rfl, Guard.after_eq_empty_iff.mp hlive.1, Guard.after_eq_empty_iff.mp hlive.2⟩

/-- What stands before an operator ends outside quotes, so strict reading takes it too. -/
theorem Operator.readWords_of_split {op : Operator} {line command rest : Text}
    (hop : op ∈ Operator.table) (h : op.split true line = some (command, rest)) (strict : Bool) :
    readWords strict command = .ok (wordsOf command) := by
  apply readWords_of_endMode_eq_bare
  exact (Operator.endMode_of_split hop h).2.1

/-- The marks of a line and the scan of its words know the same quotes: a character is live exactly
when the scan before it ends outside quotes with no backslash pending and it is no quoting character
itself.  Hence a command that was cut off can be read strictly and has the words of lenient
reading. -/
theorem liveMarks_agree_with_scan :
    (∀ t : Text, (liveMarks t).length = t.length ∧ ∀ i : Fin t.length,
      ((liveMarks t)[i.val]? = some true ↔
        endMode (t.take i) = .bare ∧ t.get i ∉ [.char '\\', .char '\'', .char '"'])) ∧
      ∀ line command redirection, cutRedirection true line = (command, some redirection) →
        endMode command = .bare ∧ ∀ strict, readWords strict command = .ok (wordsOf command) := by
  constructor
  · intro t
    refine ⟨Guard.length_marks {} t, fun i => ?_⟩
    apply getElem?_liveMarks_eq_true_iff
    simp
  · intro line command redirection h
    rcases cutRedirection_cases true line with
      ⟨-, hcut⟩ | ⟨-, op, hop, command', rest, hsplit, hcut⟩
    · rw [hcut] at h
      cases h
    · have heq : command' = command := by
        rw [hcut] at h
        exact congrArg Prod.fst h
      subst heq
      exact ⟨(Operator.endMode_of_split hop hsplit).2.1, Operator.readWords_of_split hop hsplit⟩

/-- A line whose first operators stand between quotes and behind a backslash. -/
theorem liveMarks_agree_with_scan_of_quoted :
    cutRedirection true "a 'b>' \\> c2>>x 'y".toText =
        ("a 'b>' \\> c".toText,
          some { stream := .stderr, mode := .append, path := "x".toText }) ∧
      endMode "a 'b>' \\> c".toText = .bare ∧
      ∀ strict, readWords strict "a 'b>' \\> c".toText =
        .ok (wordsOf "a 'b>' \\> c".toText) := by
  have hcut : cutRedirection true "a 'b>' \\> c2>>x 'y".toText =
      ("a 'b>' \\> c".toText,
        some { stream := .stderr, mode := .append, path := "x".toText }) := by
    decide
  exact ⟨hcut, liveMarks_agree_with_scan.2 _ _ _ hcut⟩

end LineShell

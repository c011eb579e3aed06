import Mathlib.Data.List.DropRight
import LineShell.Proofs.Line.Grammar
import LineShell.Proofs.Line.Instruction

/-!
# Lines without the blanks at their ends

Blanks in front of a line mean nothing, and those behind it mean nothing unless a backslash takes
the first of them.  A line that ends outside quotes asks for the same with and without the blanks at
its ends, except where such a taken blank belongs to a word that is read: `ofLine_trim_eq_iff`.
-/

namespace LineShell

open Grammar (Gap gap_nil)

/-! ## Texts and the blanks at their ends -/

namespace Text

theorem trimLeft_of_gap {g : Text} (hg : Gap g) : trimLeft g = [] :=
  List.dropWhile_eq_nil_iff.mpr hg

theorem trimRight_append_gap (t : Text) {g : Text} (hg : Gap g) :
    trimRight (t ++ g) = trimRight t := by
  have hall : ∀ c ∈ g.reverse, isBlank c = true := fun c hc => hg c (List.mem_reverse.mp hc)
  rw [trimRight, List.reverse_append, List.dropWhile_append_of_pos hall]
  rfl

theorem exists_gap_trimRight (t : Text) : ∃ g, Gap g ∧ t = trimRight t ++ g :=
  ⟨t.rtakeWhile isBlank, fun _ hc => List.mem_rtakeWhile_imp hc,
    List.rdropWhile_append_rtakeWhile.symm⟩

theorem exists_gap_trimLeft (t : Text) : ∃ g, Gap g ∧ t = g ++ trimLeft t :=
  ⟨t.takeWhile isBlank, fun _ hc => List.mem_takeWhile_imp hc,
    List.takeWhile_append_dropWhile.symm⟩

theorem trim_gap_append {g : Text} (hg : Gap g) (t : Text) : trim (g ++ t) = trim t := by
  rw [trim, trimLeft, List.dropWhile_append_of_pos hg]
  rfl

theorem trim_append_gap (t : Text) {g : Text} (hg : Gap g) : trim (t ++ g) = trim t := by
  unfold trim
  by_cases hblank : trimLeft t = []
  · -- The text is blank altogether, so the gap is dropped from the left.
    have hall : Gap (t ++ g) := Gap.append (List.dropWhile_eq_nil_iff.mp hblank) hg
    rw [hblank, trimLeft_of_gap hall]
  · have hleft : trimLeft (t ++ g) = trimLeft t ++ g := by
      have hne : (t.dropWhile isBlank).isEmpty = false := by simpa [trimLeft] using hblank
      rw [trimLeft, List.dropWhile_append, hne]
      rfl
    rw [hleft, trimRight_append_gap _ hg]

/-- Which end is trimmed first makes no difference. -/
theorem exists_gap_trim (t : Text) : ∃ g, Gap g ∧ trimRight t = g ++ trim t := by
  rcases exists_gap_trimLeft t with ⟨g, hg, ht⟩
  by_cases hblank : trimRight (trimLeft t) = []
  · refine ⟨[], gap_nil, ?_⟩
    rcases exists_gap_trimRight (trimLeft t) with ⟨g', hg', hleft⟩
    rw [hblank, List.nil_append] at hleft
    have hall : Gap t := by
      rw [ht, hleft]
      exact hg.append hg'
    have hnil : trimRight ([] ++ t) = trimRight [] := trimRight_append_gap [] hall
    rw [trim, hblank]
    exact hnil
  · refine ⟨g, hg, ?_⟩
    have hne : ((trimLeft t).reverse.dropWhile isBlank).isEmpty = false := by
      simpa [trimRight] using hblank
    have hright : trimRight (g ++ trimLeft t) = g ++ trimRight (trimLeft t) := by
      rw [trimRight, List.reverse_append, List.dropWhile_append, hne]
      simp [trimRight]
    rw [← ht] at hright
    exact hright

/-- A line is its trimmed form between two gaps. -/
theorem exists_gaps_trim (t : Text) :
    ∃ lead trail, Gap lead ∧ Gap trail ∧ t = lead ++ trim t ++ trail ∧
      trimRight t = lead ++ trim t := by
  rcases exists_gap_trimRight t with ⟨trail, htrail, ht⟩
  rcases exists_gap_trim t with ⟨lead, hlead, hright⟩
  exact ⟨lead, trail, hlead, htrail, by rw [← hright, ← ht], hright⟩

theorem not_isBlank_of_getLast?_trim {t : Text} {c : CodePoint} (h : (trim t).getLast? = some c) :
    isBlank c = false := by
  rw [trim, trimRight, List.getLast?_reverse] at h
  have hhead := List.head?_dropWhile_not isBlank (trimLeft t).reverse
  rw [h] at hhead
  exact hhead

/-- Without a blank at its end a line loses nothing there. -/
theorem exists_gap_append_trim {t : Text} (h : ∀ c, t.getLast? = some c → isBlank c = false) :
    ∃ lead, Gap lead ∧ t = lead ++ trim t := by
  rcases exists_gaps_trim t with ⟨lead, trail, hlead, htrail, ht, -⟩
  rcases List.eq_nil_or_concat' trail with rfl | ⟨front, c, rfl⟩
  · exact ⟨lead, hlead, by rw [List.append_nil] at ht; exact ht⟩
  · have hlast : t.getLast? = some c := by rw [ht, ← List.append_assoc, List.getLast?_concat]
    have hblank := htrail c (by simp)
    rw [h c hlast] at hblank
    cases hblank

end Text

/-! ## Reading a text between gaps -/

/-- A gap in front of a text is not noticed. -/
theorem run_gap_append {g : Text} (hg : Gap g) (t : Text) :
    Scanner.start.run (g ++ t) = Scanner.start.run t := by
  by_cases hne : g = []
  · rw [hne, List.nil_append]
  · have hgap : Scanner.start.run g = ([], Scanner.start) := hg.run hne none
    rw [Scanner.run_append, hgap]
    rfl

theorem endMode_gap_append {g : Text} (hg : Gap g) (t : Text) : endMode (g ++ t) = endMode t := by
  rw [endMode, run_gap_append hg, endMode]

theorem after_gap {g : Text} (hg : Gap g) : ({} : Guard).after g = {} := by
  rw [Guard.after_eq_empty_iff, ← List.append_nil g, endMode_gap_append hg]
  rfl

theorem readWords_gap_append (strict : Bool) {g : Text} (hg : Gap g) (t : Text) :
    readWords strict (g ++ t) = readWords strict t := by
  unfold readWords wordsOf
  rw [run_gap_append hg]

/-- A blank neither opens nor closes a quote, whatever comes before it. -/
theorem Guard.quote_next_blank (guard : Guard) {c : CodePoint} (hc : isBlank c = true) :
    (guard.next c).quote = guard.quote := by
  have hne := ne_of_isBlank hc
  rcases guard with ⟨quote, escaped⟩
  rcases quote with _ | _ | _ <;> cases escaped <;>
    simp [Guard.next, hne.1, hne.2.1, hne.2.2]

theorem openQuote_append_gap (t : Text) {g : Text} (hg : Gap g) :
    (endMode (t ++ g)).openQuote = (endMode t).openQuote := by
  rw [← Guard.quote_after, ← Guard.quote_after, Guard.after_append]
  generalize ({} : Guard).after t = guard
  induction g generalizing guard with
  | nil => rfl
  | cons c rest ih =>
    have hc : isBlank c = true := hg c (by simp)
    have hrest : Gap rest := fun d hd => hg d (List.mem_cons_of_mem _ hd)
    rw [Guard.after_cons, ih hrest, Guard.quote_next_blank guard hc]

theorem wordsOf_append_gap {t g : Text} (ht : endMode t = .bare) (hg : Gap g) :
    wordsOf (t ++ g) = wordsOf t := by
  by_cases hne : g = []
  · rw [hne, List.append_nil]
  · rw [wordsOf, Scanner.run_append, run_of_endMode ht, hg.run hne]
    simp [wordsOf, Scanner.start]

/-- The taken blank is the last character of the last word. -/
theorem wordsOf_append_taken {t g : Text} {b : CodePoint} (ht : endMode t = .bareEscape) (hg : Gap g) :
    wordsOf (t ++ b :: g) =
      (Scanner.start.run t).1 ++ [(Scanner.start.run t).2.word.getD [] ++ [b]] := by
  have htaken : Scanner.start.run (t ++ [b]) = ((Scanner.start.run t).1,
      { mode := .bare, word := some ((Scanner.start.run t).2.word.getD [] ++ [b]) }) := by
    rw [Scanner.run_append, run_of_endMode ht]
    simp [Scanner.run_cons, Scanner.step, Scanner.extend]
  have hbare : endMode (t ++ [b]) = .bare := by rw [endMode, htaken]
  have hsplit : t ++ b :: g = t ++ [b] ++ g := by simp
  rw [hsplit, wordsOf_append_gap hbare hg, wordsOf, htaken]
  rfl

/-- A gap behind a text changes its words exactly if a backslash takes a blank of it. -/
theorem wordsOf_append_gap_eq_iff {t g : Text} (hquote : (endMode t).openQuote = none)
    (hg : Gap g) :
    wordsOf (t ++ g) = wordsOf t ↔ ¬ (endMode t = .bareEscape ∧ g ≠ []) := by
  rcases ScanMode.openQuote_eq_none_iff.mp hquote with hmode | hmode
  · simp [wordsOf_append_gap hmode hg, hmode]
  · cases g with
    | nil => simp
    | cons b g =>
      have hg' : Gap g := fun c hc => hg c (List.mem_cons_of_mem _ hc)
      rw [wordsOf_append_taken hmode hg', wordsOf_eq]
      cases (Scanner.start.run t).2.word <;> simp [hmode]

/-- The first word is another one exactly when the taken blank belongs to it. -/
theorem headD_wordsOf_append_gap_eq_iff {t g : Text} (hquote : (endMode t).openQuote = none)
    (hg : Gap g) :
    (wordsOf (t ++ g)).headD [] = (wordsOf t).headD [] ↔
      ¬ (endMode t = .bareEscape ∧ g ≠ [] ∧ (wordsOf (t ++ g)).length = 1) := by
  rcases ScanMode.openQuote_eq_none_iff.mp hquote with hmode | hmode
  · simp [wordsOf_append_gap hmode hg, hmode]
  · cases g with
    | nil => simp
    | cons b g =>
      have hg' : Gap g := fun c hc => hg c (List.mem_cons_of_mem _ hc)
      rw [wordsOf_append_taken hmode hg', wordsOf_eq]
      rcases (Scanner.start.run t).1 with _ | ⟨first, front⟩
      · cases (Scanner.start.run t).2.word <;> simp [hmode]
      · simp

/-! ## Cutting a line between texts that spell no operator -/

/-- No operator holds a character of the text. -/
def Inert (t : Text) : Prop := ∀ c ∈ t, ∀ op ∈ Operator.table, c ∉ op.spelling

theorem inert_nil : Inert [] := by simp [Inert]

theorem inert_backslash : Inert ['\\'] := by
  intro c hc op hop
  have hnone : Operator.table.all (fun op => !op.spelling.contains '\\') = true := by decide
  have hspelling := List.all_eq_true.mp hnone op hop
  rw [List.mem_singleton.mp hc]
  simpa using hspelling

theorem Inert.append {t u : Text} (ht : Inert t) (hu : Inert u) : Inert (t ++ u) := by
  intro c hc
  rcases List.mem_append.mp hc with hc | hc
  · exact ht c hc
  · exact hu c hc

theorem inert_of_gap {g : Text} (hg : Gap g) : Inert g := by
  intro c hc op hop hspelling
  have hnone : Operator.table.all (fun op => !op.spelling.any isBlank) = true := by decide
  have hbare := List.all_eq_true.mp hnone op hop
  rw [List.any_eq_true.mpr ⟨c, hspelling, hg c hc⟩] at hbare
  cases hbare

section SplitAtMarked

variable {spelling : Text}

theorem not_mem_marked {x : CodePoint × Bool} (hx : x.1 ∉ spelling) :
    x ∉ spelling.map (·, true) := by
  intro hmem
  rcases List.mem_map.mp hmem with ⟨c, hc, rfl⟩
  exact hx hc

variable (hne : spelling ≠ [])
include hne

theorem splitAtMarked_append_left {p : List (CodePoint × Bool)} (hp : ∀ x ∈ p, x.1 ∉ spelling)
    (marked : List (CodePoint × Bool)) :
    splitAtMarked spelling (p ++ marked) =
      (splitAtMarked spelling marked).map fun (before, after) =>
        (p.map Prod.fst ++ before, after) := by
  induction p with
  | nil => simp
  | cons x p ih =>
    have hx : x ∉ spelling.map (·, true) := not_mem_marked (hp x List.mem_cons_self)
    have hcons := splitAtMarked_append_cons hne hx [] (p ++ marked)
    have hnil : splitAtMarked spelling [] = none := rfl
    rw [hnil, List.nil_append, ih fun y hy => hp y (List.mem_cons_of_mem _ hy)] at hcons
    rw [List.cons_append, hcons]
    cases splitAtMarked spelling marked <;> simp

theorem splitAtMarked_append_right {p : List (CodePoint × Bool)} (hp : ∀ x ∈ p, x.1 ∉ spelling)
    (marked : List (CodePoint × Bool)) :
    splitAtMarked spelling (marked ++ p) =
      (splitAtMarked spelling marked).map fun (before, after) =>
        (before, after ++ p.map Prod.fst) := by
  cases p with
  | nil => simp
  | cons x p =>
    have hx : x ∉ spelling.map (·, true) := not_mem_marked (hp x List.mem_cons_self)
    have hnone : splitAtMarked spelling p = none := by
      rcases List.exists_mem_of_ne_nil spelling hne with ⟨c, hc⟩
      refine splitAtMarked_eq_none_of_not_mem hc fun hmem => ?_
      exact hp _ (List.mem_cons_of_mem _ hmem) hc
    rw [splitAtMarked_append_cons hne hx, hnone]
    cases splitAtMarked spelling marked <;> simp

end SplitAtMarked

theorem findSome?_congr_mem {α β : Type} {f g : α → Option β} {l : List α}
    (h : ∀ a ∈ l, f a = g a) : l.findSome? f = l.findSome? g := by
  induction l with
  | nil => rfl
  | cons a l ih =>
    rw [List.findSome?_cons, List.findSome?_cons, h a List.mem_cons_self,
      ih fun b hb => h b (List.mem_cons_of_mem a hb)]

/-- The first operator of the table that occurs in a line, with what stands before it and behind
it. -/
def firstSplit (quoteAware : Bool) (line : Text) : Option (Operator × Text × Text) :=
  Operator.table.findSome? fun op => (op.split quoteAware line).map (op, ·)

theorem cutRedirection_eq (quoteAware : Bool) (line : Text) :
    cutRedirection quoteAware line =
      match firstSplit quoteAware line with
      | none => (line, none)
      | some (op, command, rest) => (command, some
          { stream := op.stream, mode := op.mode, path := targetPath quoteAware rest }) := rfl

/-- Marks of a text do not depend on what stands behind it, nor on what stands in front of it if
that ends outside quotes. -/
theorem exists_markedLine_between (quoteAware : Bool) {lead : Text}
    (hafter : ({} : Guard).after lead = {}) (t trail : Text) :
    ∃ p r, markedLine quoteAware (lead ++ t ++ trail) = p ++ markedLine quoteAware t ++ r ∧
      p.map Prod.fst = lead ∧ r.map Prod.fst = trail := by
  cases quoteAware with
  | false =>
    refine ⟨lead.map (·, true), trail.map (·, true), by simp [markedLine], ?_, ?_⟩ <;>
      simp [Function.comp_def]
  | true =>
    refine ⟨({} : Guard).mark lead, (({} : Guard).after t).mark trail, ?_, by simp, by simp⟩
    rw [markedLine_true, markedLine_true, Guard.mark_append, Guard.mark_append,
      Guard.after_append, hafter]

/-- Where no operator can reach into the ends of a line, the cut is that of the middle. -/
theorem firstSplit_between (quoteAware : Bool) {lead trail : Text} (hlead : Inert lead)
    (hafter : ({} : Guard).after lead = {}) (htrail : Inert trail) (t : Text) :
    firstSplit quoteAware (lead ++ t ++ trail) =
      (firstSplit quoteAware t).map fun (op, command, rest) =>
        (op, lead ++ command, rest ++ trail) := by
  -- The marks of the middle do not depend on the ends.
  rcases exists_markedLine_between quoteAware hafter t trail with ⟨p, r, hmarked, hp, hr⟩
  -- One operator at a time, the two inert ends are moved out of the cut.
  have hsplit : ∀ op ∈ Operator.table, op.split quoteAware (lead ++ t ++ trail) =
      (op.split quoteAware t).map fun (command, rest) => (lead ++ command, rest ++ trail) := by
    intro op hop
    have hne := Operator.spelling_ne_nil hop
    have hp' : ∀ x ∈ p, x.1 ∉ op.spelling := by
      intro x hx
      exact hlead x.1 (by rw [← hp]; exact List.mem_map_of_mem hx) op hop
    have hr' : ∀ x ∈ r, x.1 ∉ op.spelling := by
      intro x hx
      exact htrail x.1 (by rw [← hr]; exact List.mem_map_of_mem hx) op hop
    rw [Operator.split, hmarked, splitAtMarked_append_right hne hr',
      splitAtMarked_append_left hne hp', hp, hr, Operator.split]
    cases splitAtMarked op.spelling (markedLine quoteAware t) <;> rfl
  rw [firstSplit, firstSplit, List.map_findSome?]
  apply findSome?_congr_mem
  intro op hop
  rw [hsplit op hop, Function.comp_apply]
  cases op.split quoteAware t <;> rfl

theorem endMode_of_firstSplit {line command rest : Text} {op : Operator}
    (h : firstSplit true line = some (op, command, rest)) :
    endMode command = .bare ∧ endMode rest = endMode line := by
  rcases List.exists_of_findSome?_eq_some h with ⟨op', hop, hsplit⟩
  rcases Option.map_eq_some_iff.mp hsplit with ⟨cut, hcut, heq⟩
  cases heq
  rcases Operator.endMode_of_split hop hcut with ⟨hline, hcommand, hafter⟩
  refine ⟨hcommand, ?_⟩
  -- Behind the operator the guard starts afresh, and the guard tells the mode.
  have hguard : Guard.ofMode (endMode line) = Guard.ofMode (endMode rest) := by
    rw [Guard.ofMode_endMode, Guard.ofMode_endMode, hline, Guard.after_append,
      Guard.after_eq_empty_iff.mpr hafter]
  revert hguard
  cases endMode line <;> cases endMode rest <;> simp [Guard.ofMode]

/-- A line is read as its command, or as a whole if it is not cut. -/
theorem ofLine_eq (modes : Modes) (line : Text) :
    Instruction.ofLine modes line =
      match firstSplit modes.quoteAware line with
      | none => (readWords modes.strict line).map ({ words := ·, redirection := none })
      | some (op, command, rest) => (readWords modes.strict command).map
          ({ words := ·, redirection := some
              { stream := op.stream, mode := op.mode
                path := targetPath modes.quoteAware rest } }) := by
  rw [Instruction.ofLine, cutRedirection_eq]
  cases firstSplit modes.quoteAware line with
  | none => cases hread : readWords modes.strict line <;> simp [hread, Except.map]
  | some cut => cases hread : readWords modes.strict cut.2.1 <;> simp [hread, Except.map]

/-! ## What is lost with the blanks -/

/-- Blanks in front of a line are not noticed. -/
theorem ofLine_gap_append (modes : Modes) {g : Text} (hg : Gap g) (t : Text) :
    Instruction.ofLine modes (g ++ t) = Instruction.ofLine modes t := by
  have hcut := firstSplit_between modes.quoteAware (inert_of_gap hg) (after_gap hg) inert_nil t
  rw [List.append_nil] at hcut
  rw [ofLine_eq, ofLine_eq, hcut]
  cases firstSplit modes.quoteAware t with
  | none => simp only [Option.map_none, readWords_gap_append _ hg]
  | some cut => simp only [Option.map_some, List.append_nil, readWords_gap_append _ hg]

theorem ofLine_trim_of_getLast? (modes : Modes) {line : Text}
    (h : ∀ c, line.getLast? = some c → isBlank c = false) :
    Instruction.ofLine modes (Text.trim line) = Instruction.ofLine modes line := by
  rcases Text.exists_gap_append_trim h with ⟨lead, hlead, hline⟩
  have hread := ofLine_gap_append modes hlead (Text.trim line)
  rw [← hline] at hread
  exact hread.symm

/-- A blank at the end of the line is taken by a backslash and belongs to what the line asks for: to
a word of a line that is not cut, or to the only word behind a quote-aware cut. -/
def LosesBlank (modes : Modes) (line : Text) : Prop :=
  endMode (Text.trimRight line) = .bareEscape ∧ Text.trimRight line ≠ line ∧
    ∀ cut ∈ firstSplit modes.quoteAware line,
      modes.quoteAware = true ∧ (wordsOf cut.2.2).length = 1

instance (modes : Modes) (line : Text) : Decidable (LosesBlank modes line) :=
  inferInstanceAs (Decidable (_ ∧ _ ∧ _))

/-- Blanks behind a line change its reading exactly if one of them is taken by a backslash. -/
theorem ofLine_append_gap_eq_iff (modes : Modes) {t g : Text}
    (hquote : (endMode t).openQuote = none) (hg : Gap g) :
    Instruction.ofLine modes t = Instruction.ofLine modes (t ++ g) ↔
      ¬ (endMode t = .bareEscape ∧ g ≠ [] ∧ ∀ cut ∈ firstSplit modes.quoteAware (t ++ g),
          modes.quoteAware = true ∧ (wordsOf cut.2.2).length = 1) := by
  have hcut := firstSplit_between modes.quoteAware inert_nil rfl (inert_of_gap hg) t
  rw [List.nil_append] at hcut
  rw [ofLine_eq, ofLine_eq, hcut]
  cases hfirst : firstSplit modes.quoteAware t with
  | none =>
    have hquote' : (endMode (t ++ g)).openQuote = none := by rw [openQuote_append_gap t hg, hquote]
    rw [Option.map_none, readWords_of_openQuote_eq_none _ hquote,
      readWords_of_openQuote_eq_none _ hquote']
    -- Without a cut the gap is behind the last word of the command.
    have hwords := wordsOf_append_gap_eq_iff hquote hg
    rw [eq_comm] at hwords
    simpa [Except.map] using hwords
  | some cut =>
    rcases cut with ⟨op, command, rest⟩
    rcases modes with ⟨quoteAware, strict⟩
    cases quoteAware with
    | false =>
      -- The path is trimmed, and the gap is cut off with its end.
      simp [targetPath, Text.trim_append_gap rest hg]
    | true =>
      -- Only the first word of the target counts, which the gap can only reach if it is the last.
      have hmodes := endMode_of_firstSplit hfirst
      have hhead := headD_wordsOf_append_gap_eq_iff (hmodes.2 ▸ hquote) hg
      rw [hmodes.2, eq_comm] at hhead
      simpa [Except.map, readWords_of_endMode_eq_bare strict hmodes.1, targetPath] using hhead

/-- A line that ends outside quotes asks for the same with and without the blanks at its ends,
unless a blank is lost. -/
theorem ofLine_trim_eq_iff (modes : Modes) {line : Text} (hquote : (endMode line).openQuote = none) :
    Instruction.ofLine modes (Text.trim line) = Instruction.ofLine modes line ↔
      ¬ LosesBlank modes line := by
  rcases Text.exists_gaps_trim line with ⟨lead, trail, hlead, htrail, hline, hright⟩
  have hmode : endMode (Text.trimRight line) = endMode (Text.trim line) := by
    rw [hright, endMode_gap_append hlead]
  have hquote' : (endMode (Text.trimRight line)).openQuote = none := by
    rw [hright, ← openQuote_append_gap _ htrail, ← hline, hquote]
  have htail : line = Text.trimRight line ++ trail := by rw [hright, ← hline]
  have hne : Text.trimRight line ≠ line ↔ trail ≠ [] := by
    conv_lhs => rhs; rw [htail]
    simp
  -- Blanks at the start are never lost, so only those at the end matter.
  have hread : Instruction.ofLine modes (Text.trim line) =
      Instruction.ofLine modes (Text.trimRight line) := by
    rw [hright, ofLine_gap_append modes hlead]
  have hiff := ofLine_append_gap_eq_iff modes hquote' htrail
  rw [← htail, ← hread, ← hne] at hiff
  exact hiff

theorem ofLine_append_backslash (modes : Modes) {t : Text} (ht : endMode t = .bare)
    (hcut : ∀ cut ∈ firstSplit modes.quoteAware t, modes.quoteAware = true) :
    Instruction.ofLine modes (t ++ [.char '\\']) = Instruction.ofLine modes t := by
  -- A backslash at the end takes nothing and stands for nothing.
  have hwords : ∀ {u : Text}, endMode u = .bare →
      endMode (u ++ [.char '\\']) = .bareEscape ∧ wordsOf (u ++ [.char '\\']) = wordsOf u := by
    intro u hu
    exact append_backslash (by rw [hu, ScanMode.behindBackslash])
  have hfirst := firstSplit_between modes.quoteAware inert_nil rfl inert_backslash t
  rw [List.nil_append] at hfirst
  rw [ofLine_eq, ofLine_eq, hfirst]
  cases hsplit : firstSplit modes.quoteAware t with
  | none =>
    have hescape : (endMode (t ++ [.char '\\'])).openQuote = none := by rw [(hwords ht).1]; rfl
    rw [Option.map_none]
    show (readWords modes.strict (t ++ [.char '\\'])).map _ = (readWords modes.strict t).map _
    rw [readWords_of_openQuote_eq_none _ hescape, readWords_of_endMode_eq_bare _ ht, (hwords ht).2]
  | some cut =>
    rcases cut with ⟨op, command, rest⟩
    have haware : modes.quoteAware = true := hcut _ hsplit
    rw [haware] at hsplit ⊢
    have hrest : endMode rest = .bare := by rw [(endMode_of_firstSplit hsplit).2, ht]
    simp [targetPath, (hwords hrest).2]

/-- A line that loses a blank is read as if its last backslash and the blanks behind it were not
there. -/
theorem ofLine_trim_of_losesBlank {modes : Modes} {line : Text} (h : LosesBlank modes line) :
    ∃ u b g, line = u ++ .char '\\' :: b :: g ∧ isBlank b = true ∧ Gap g ∧
      Instruction.ofLine modes (Text.trim line) = Instruction.ofLine modes u := by
  rcases Text.exists_gaps_trim line with ⟨lead, trail, hlead, htrail, hline, hright⟩
  rcases h with ⟨hescape, hne, hcut⟩
  rw [hright, endMode_gap_append hlead] at hescape
  rcases exists_append_backslash (.inl hescape) with ⟨u, hu, hbehind⟩
  rw [hescape] at hbehind
  have hbare : endMode u = .bare := ScanMode.behindBackslash_eq_bareEscape_iff.mp hbehind
  cases trail with
  | nil =>
    rw [List.append_nil] at hline
    exact absurd (hright.trans hline.symm) hne
  | cons b g =>
    refine ⟨lead ++ u, b, g, ?_, htrail b (by simp), fun c hc => htrail c (by simp [hc]), ?_⟩
    · rw [hline, hu]
      simp
    · rw [hu, ofLine_gap_append modes hlead]
      apply ofLine_append_backslash modes hbare
      intro cut hfirst
      -- The cut of the line is the cut of what is kept of it, with the rest of the line added.
      have hrest : Inert ([.char '\\'] ++ b :: g) := inert_backslash.append (inert_of_gap htrail)
      have hfirst' := firstSplit_between modes.quoteAware (inert_of_gap hlead)
        (after_gap hlead) hrest u
      have hline' : line = lead ++ u ++ ([.char '\\'] ++ b :: g) := by
        rw [hline, hu]
        simp
      rw [← hline', Option.mem_def.mp hfirst] at hfirst'
      exact (hcut _ hfirst').1

end LineShell

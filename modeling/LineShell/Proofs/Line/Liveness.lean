import Mathlib.Tactic.SplitIfs
import LineShell.Line.Liveness
import LineShell.Proofs.Line.Scan

/-!
# Live characters and the scanner

Liveness is told by a guard of its own, which knows nothing of words.  The guard and the scanner
move in step: `Guard.ofMode` forgets what a scan has read, and what it keeps is the guard of the
text.  Hence a character is live exactly when the scanner meets it outside quotes and not behind a
backslash.
-/

namespace LineShell

namespace Guard

/-! ## Marked texts -/

def after (g : Guard) (t : Text) : Guard := t.foldl next g

@[simp] theorem after_nil (g : Guard) : g.after [] = g := rfl

@[simp] theorem after_cons (g : Guard) (c : CodePoint) (t : Text) :
    g.after (c :: t) = (g.next c).after t := rfl

theorem after_append (g : Guard) (a b : Text) : g.after (a ++ b) = (g.after a).after b := by
  rw [after, List.foldl_append]
  rfl

def mark (g : Guard) (t : Text) : List (CodePoint × Bool) := t.zip (g.marks t)

@[simp] theorem mark_nil (g : Guard) : g.mark [] = [] := rfl

@[simp] theorem mark_cons (g : Guard) (c : CodePoint) (t : Text) :
    g.mark (c :: t) = (c, g.admits c) :: (g.next c).mark t := rfl

@[simp] theorem map_fst_mark (g : Guard) (t : Text) : (g.mark t).map Prod.fst = t := by
  induction t generalizing g with
  | nil => rfl
  | cons c rest ih => simp [ih]

theorem mark_append (g : Guard) (a b : Text) :
    g.mark (a ++ b) = g.mark a ++ (g.after a).mark b := by
  induction a generalizing g with
  | nil => rfl
  | cons c rest ih => simp [ih]

/-- A cut of the marked text is a cut of the text, and the marks of both parts are their own. -/
theorem mark_eq_append {g : Guard} {t : Text} {p q : List (CodePoint × Bool)}
    (h : g.mark t = p ++ q) :
    ∃ a b, t = a ++ b ∧ p = g.mark a ∧ q = (g.after a).mark b := by
  have ht : t = p.map Prod.fst ++ q.map Prod.fst := by
    rw [← List.map_append, ← h, map_fst_mark]
  have hlen : (g.mark (p.map Prod.fst)).length = p.length := by simp [mark]
  rw [ht, mark_append] at h
  have hparts := List.append_inj h hlen
  exact ⟨_, _, ht, hparts.1.symm, hparts.2.symm⟩

/-- Whether a character is live is decided by what stands in front of it. -/
theorem getElem?_marks (g : Guard) (t : Text) (i : Nat) :
    (g.marks t)[i]? = t[i]?.map (g.after (t.take i)).admits := by
  induction t generalizing g i with
  | nil => simp [marks]
  | cons c rest ih =>
    cases i with
    | zero => simp [marks]
    | succ i => simp [marks, ih]

theorem eq_of_admits {g : Guard} {c : CodePoint} (h : g.admits c = true) :
    g = {} ∧ g.next c = {} := by
  rcases g with ⟨quote, escaped⟩
  simp only [admits, Bool.and_eq_true, Bool.not_eq_true', Option.isNone_iff_eq_none, bne_iff_ne,
    ne_eq] at h
  rcases h with ⟨⟨⟨⟨hescaped, hquote⟩, hslash⟩, hsingle⟩, hdouble⟩
  subst hescaped hquote
  exact ⟨rfl, by simp [next, hslash, hsingle, hdouble]⟩

/-- A text of live characters stands outside quotes, and so does what follows it. -/
theorem eq_of_mark_eq_map {g : Guard} {t : Text} (hne : t ≠ [])
    (h : g.mark t = t.map (·, true)) : g = {} ∧ g.after t = {} := by
  induction t generalizing g with
  | nil => exact absurd rfl hne
  | cons c rest ih =>
    simp only [mark_cons, List.map_cons, List.cons.injEq, Prod.mk.injEq, true_and] at h
    have hg := eq_of_admits h.1
    refine ⟨hg.1, ?_⟩
    rw [after_cons, hg.2]
    rw [hg.2] at h
    by_cases hrest : rest = []
    · rw [hrest, after_nil]
    · exact (ih hrest h.2).2

/-! ## The guard of a scan -/

def ofMode : ScanMode → Guard
  | .bare => {}
  | .bareEscape => { escaped := true }
  | .single => { quote := some .single }
  | .double => { quote := some .double }
  | .doubleEscape => { quote := some .double, escaped := true }

@[simp] theorem quote_ofMode (mode : ScanMode) : (ofMode mode).quote = mode.openQuote := by
  cases mode <;> rfl

theorem ofMode_eq_empty_iff {mode : ScanMode} : ofMode mode = {} ↔ mode = .bare := by
  cases mode <;> simp [ofMode]

theorem admits_ofMode_iff {mode : ScanMode} {c : CodePoint} :
    (ofMode mode).admits c = true ↔ mode = .bare ∧ c ∉ [.char '\\', .char '\'', .char '"'] := by
  cases mode <;> simp [ofMode, admits, and_assoc]

/-- One character moves the scanner and the guard alike. -/
theorem ofMode_step (s : Scanner) (c : CodePoint) :
    ofMode (s.step c).2.mode = (ofMode s.mode).next c := by
  rcases s with ⟨mode, word⟩
  cases mode with
  | bare =>
    -- A blank ends the word and leaves the mode, so the guard need not know blanks.
    simp only [Scanner.step, ofMode, next, Bool.false_eq_true, if_false]
    split_ifs <;> rfl
  | single =>
    simp only [Scanner.step, ofMode, next, Bool.false_eq_true, if_false]
    split_ifs <;> rfl
  | double =>
    simp only [Scanner.step, ofMode, next, Bool.false_eq_true, if_false]
    split_ifs <;> rfl
  -- Behind a backslash any character leads back to where the backslash was met.
  | bareEscape => rfl
  | doubleEscape => rfl

/-- A guard follows a scan through a text. -/
theorem ofMode_run (s : Scanner) (t : Text) :
    ofMode (s.run t).2.mode = (ofMode s.mode).after t := by
  induction t generalizing s with
  | nil => rfl
  | cons c rest ih => rw [Scanner.run_cons, after_cons, ← ofMode_step, ih]

theorem ofMode_endMode (t : Text) : ofMode (endMode t) = ({} : Guard).after t :=
  ofMode_run Scanner.start t

theorem after_eq_empty_iff {t : Text} : ({} : Guard).after t = {} ↔ endMode t = .bare := by
  rw [← ofMode_endMode, ofMode_eq_empty_iff]

theorem quote_after (t : Text) : (({} : Guard).after t).quote = (endMode t).openQuote := by
  rw [← ofMode_endMode, quote_ofMode]

end Guard

/-- A character is live when the scan of what stands before it ends outside quotes and not behind a
backslash, and it is neither a backslash nor a quote itself. -/
theorem getElem?_liveMarks_eq_true_iff {t : Text} {i : Nat} {c : CodePoint} (h : t[i]? = some c) :
    (liveMarks t)[i]? = some true ↔
      endMode (t.take i) = .bare ∧ c ∉ [.char '\\', .char '\'', .char '"'] := by
  rw [liveMarks, Guard.getElem?_marks, h, Option.map_some, Option.some.injEq,
    ← Guard.ofMode_endMode, Guard.admits_ofMode_iff]

end LineShell

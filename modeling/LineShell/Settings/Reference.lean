import LineShell.Text.Blank

/-!
# References to variables

In a value `${NAME}` refers to a variable, and `${NAME:-TEXT}` also gives the text that is taken if
the variable is not set.  A name holds neither a colon nor a closing brace, and the text no closing
brace.  What does not spell a reference stands for itself, and what a reference is replaced by is
not read again.
-/

namespace LineShell

structure Reference where
  name : Text
  /-- What is taken if the variable is not set. -/
  fallback : Text := []
  deriving Repr, DecidableEq

namespace Reference

def isNameChar (c : CodePoint) : Bool := c != '}' && c != ':'

/-- Reads what stands behind the name of a reference: the fallback, and what stands behind the
closing brace. -/
def readFallback : Text → Option (Text × Text)
  | [] => none
  | c :: rest =>
    if c = '}' then some ([], rest)
    else if c = ':' ∧ rest.head? = some '-' then
      match (rest.drop 1).dropWhile (· != .char '}') with
      | [] => none
      | _ :: behind => some ((rest.drop 1).takeWhile (· != .char '}'), behind)
    else none

/-- Reads a reference at the start of a text, and what stands behind it. -/
def read (t : Text) : Option (Reference × Text) :=
  if "$\x7b".toText.isPrefixOf t then
    let body := t.drop 2
    (readFallback (body.dropWhile isNameChar)).map fun (fallback, behind) =>
      ({ name := body.takeWhile isNameChar, fallback }, behind)
  else none

/-- What stands behind a fallback is shorter. -/
theorem length_of_readFallback {t fallback behind : Text}
    (h : readFallback t = some (fallback, behind)) : behind.length < t.length := by
  cases t with
  | nil => simp [readFallback] at h
  | cons c rest =>
    rw [readFallback] at h
    split at h
    · simp only [Option.some.injEq, Prod.mk.injEq] at h
      simp [← h.2]
    · split at h
      · have hle : ((rest.drop 1).dropWhile (· != .char '}')).length ≤ (rest.drop 1).length :=
          (List.dropWhile_suffix _).length_le
        split at h
        · simp at h
        · next hd =>
          simp only [Option.some.injEq, Prod.mk.injEq] at h
          rw [hd, List.length_cons, List.length_drop] at hle
          rw [← h.2, List.length_cons]
          omega
      · simp at h

/-- What stands behind a reference is shorter. -/
theorem length_of_read {t behind : Text} {r : Reference} (h : read t = some (r, behind)) :
    behind.length < t.length := by
  unfold read at h
  split at h
  · obtain ⟨⟨fallback, rest⟩, hf, hr⟩ := Option.map_eq_some_iff.1 h
    simp only [Prod.mk.injEq] at hr
    have hle : ((t.drop 2).dropWhile isNameChar).length ≤ (t.drop 2).length :=
      (List.dropWhile_suffix _).length_le
    have hlt := length_of_readFallback hf
    rw [List.length_drop] at hle
    rw [← hr.2]
    omega
  · simp at h

def expand (value : Reference → Text) (t : Text) : Text :=
  match t with
  | [] => []
  | c :: rest =>
    match _h : read (c :: rest) with
    | some (r, behind) => value r ++ expand value behind
    | none => c :: expand value rest
termination_by t.length
decreasing_by
  · exact length_of_read _h
  · simp

end Reference

end LineShell

import LineShell.Command.Basic

/-!
# Completion

The first word of a line is completed from the builtins and from the executable files on the search
path.  Candidates are listed in ascending order, each once: `mem_sortedOnce` and
`pairwise_sortedOnce` say so.
-/

namespace LineShell

def insertSorted (t : Text) : List Text → List Text
  | [] => [t]
  | u :: rest =>
    if t < u then t :: u :: rest
    else if t = u then u :: rest
    else u :: insertSorted t rest

def sortedOnce (ts : List Text) : List Text := ts.foldr insertSorted []

@[simp] theorem mem_insertSorted (t u : Text) (ts : List Text) :
    u ∈ insertSorted t ts ↔ u = t ∨ u ∈ ts := by
  induction ts with
  | nil => simp [insertSorted]
  | cons v rest ih =>
    simp only [insertSorted]
    split
    · simp
    · split
      · next h => simp [h]
      · simp [ih, or_left_comm]

@[simp] theorem mem_sortedOnce (t : Text) (ts : List Text) : t ∈ sortedOnce ts ↔ t ∈ ts := by
  induction ts with
  | nil => simp [sortedOnce]
  | cons u rest ih =>
    simp only [sortedOnce, List.foldr_cons] at ih ⊢
    simp [ih]

/-- A text put into an ascending list leaves it ascending. -/
theorem pairwise_insertSorted (t : Text) {ts : List Text} (h : ts.Pairwise (· < ·)) :
    (insertSorted t ts).Pairwise (· < ·) := by
  induction ts with
  | nil => simp [insertSorted]
  | cons u rest ih =>
    obtain ⟨hu, hrest⟩ := List.pairwise_cons.1 h
    simp only [insertSorted]
    split
    · next htu =>
      refine List.pairwise_cons.2 ⟨fun v hv => ?_, h⟩
      rcases List.mem_cons.1 hv with rfl | hv
      · exact htu
      · exact List.lt_trans htu (hu v hv)
    · next htu =>
      split
      · exact h
      · next hne =>
        refine List.pairwise_cons.2 ⟨fun v hv => ?_, ih hrest⟩
        rcases (mem_insertSorted t v rest).1 hv with rfl | hv
        · exact Std.lt_of_le_of_ne (Std.not_lt.1 htu) (Ne.symm hne)
        · exact hu v hv

/-- Sorted texts ascend strictly, so none is there twice. -/
theorem pairwise_sortedOnce (ts : List Text) : (sortedOnce ts).Pairwise (· < ·) := by
  induction ts with
  | nil => simp [sortedOnce]
  | cons u rest ih => exact pairwise_insertSorted u ih

structure Completion where
  /-- What replaces the characters before the cursor. -/
  text : Text
  /-- How many characters before the cursor are replaced. -/
  replaced : Nat
  display : Text
  deriving Repr, DecidableEq

namespace Host

def entryPath (directory entry : Text) : Text :=
  if directory = [] then entry
  else if directory.getLast? = some '/' then directory ++ entry
  else directory ++ .char '/' :: entry

/-- The executable files of a directory whose names begin with what was typed; a directory that
cannot be listed has none. -/
def programsIn (host : Host) (typed directory : Text) : Except Failure (List Text) :=
  match host.listDirectory directory with
  | .ok entries =>
    .ok (entries.filter fun entry =>
      typed.isPrefixOf entry && host.isExecutable (entryPath directory entry))
  | .error failure => if failure.isAnswer then .ok [] else .error failure

def completingNames (host : Host) (directories : List Text) (typed : Text) :
    Except Failure (List Text) := do
  let programs ← directories.mapM (host.programsIn typed)
  let builtins := (Builtin.all.map Builtin.name).filter fun name => typed.isPrefixOf name
  return sortedOnce (builtins ++ programs.flatten)

/-- The completions of the text before the cursor.  There are none once a blank follows the first
word. -/
def completions (host : Host) (directories : List Text) (beforeCursor : Text) :
    Except Failure (List Completion) := do
  let typed := Text.trimLeft beforeCursor
  if typed.any isBlank then return []
  else
    let names ← host.completingNames directories typed
    return names.map fun name =>
      { text := name ++ " ".toText, replaced := typed.length, display := name }

end Host

end LineShell

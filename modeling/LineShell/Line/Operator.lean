import LineShell.Line.Liveness
import LineShell.Redirection

/-!
# Redirection operators

An operator in a line sends one output stream to a file.  The line is cut at the first operator of
`Operator.table` that occurs in it, at its leftmost occurrence: what stands before is the command,
and what stands behind names the file.  Quote-aware reading counts only live occurrences and takes
the first word behind the operator; otherwise every occurrence counts, and the whole rest is the
name.
-/

namespace LineShell

structure Operator where
  spelling : Text
  stream : Stream
  mode : OpenMode
  deriving Repr, DecidableEq

/-- The operators, in the order in which a line is searched for them. -/
def Operator.table : List Operator :=
  [{ spelling := ['1', '>', '>'], stream := .stdout, mode := .append },
   { spelling := ['2', '>', '>'], stream := .stderr, mode := .append },
   { spelling := ['>', '>'], stream := .stdout, mode := .append },
   { spelling := ['1', '>'], stream := .stdout, mode := .truncate },
   { spelling := ['2', '>'], stream := .stderr, mode := .truncate },
   { spelling := ['>'], stream := .stdout, mode := .truncate }]

/-- Cuts a marked text at the leftmost place where the spelling stands with every character
marked. -/
def splitAtMarked (spelling : Text) : List (CodePoint × Bool) → Option (Text × Text)
  | [] => none
  | c :: rest =>
    if (spelling.map (·, true)).isPrefixOf (c :: rest) then
      some ([], ((c :: rest).drop spelling.length).map Prod.fst)
    else (splitAtMarked spelling rest).map fun (before, after) => (c.1 :: before, after)

def markedLine (quoteAware : Bool) (line : Text) : List (CodePoint × Bool) :=
  if quoteAware then line.zip (liveMarks line) else line.map (·, true)

def Operator.split (op : Operator) (quoteAware : Bool) (line : Text) : Option (Text × Text) :=
  splitAtMarked op.spelling (markedLine quoteAware line)

def targetPath (quoteAware : Bool) (rest : Text) : Text :=
  if quoteAware then (wordsOf rest).headD [] else Text.trim rest

/-- The command of a line, and the redirection that it asks for. -/
def cutRedirection (quoteAware : Bool) (line : Text) : Text × Option Redirection :=
  match Operator.table.findSome? fun op => (op.split quoteAware line).map (op, ·) with
  | none => (line, none)
  | some (op, command, rest) =>
    (command, some { stream := op.stream, mode := op.mode, path := targetPath quoteAware rest })

/-- A cut stands at the leftmost place where the spelling does. -/
theorem eq_append_of_splitAtMarked {spelling : Text} {marked : List (CodePoint × Bool)}
    {before after : Text} (h : splitAtMarked spelling marked = some (before, after)) :
    ∃ p q, marked = p ++ spelling.map (·, true) ++ q ∧ before = p.map Prod.fst ∧
      after = q.map Prod.fst ∧
      ∀ p' q', marked = p' ++ spelling.map (·, true) ++ q' → p.length ≤ p'.length := by
  induction marked generalizing before with
  | nil => simp [splitAtMarked] at h
  | cons c rest ih =>
    unfold splitAtMarked at h
    split at h
    · next hp =>
      obtain ⟨tail, ht⟩ := List.isPrefixOf_iff_prefix.1 hp
      simp only [Option.some.injEq, Prod.mk.injEq] at h
      obtain ⟨rfl, rfl⟩ := h
      have hd : (c :: rest).drop spelling.length = tail := by
        rw [← ht]; simp
      exact ⟨[], tail, by simp [ht], rfl, by rw [hd], by simp⟩
    · next hp =>
      obtain ⟨⟨b, a⟩, hb, hba⟩ := Option.map_eq_some_iff.1 h
      simp only [Prod.mk.injEq] at hba
      obtain ⟨rfl, rfl⟩ := hba
      obtain ⟨p, q, hrest, rfl, rfl, hleft⟩ := ih hb
      refine ⟨c :: p, q, by simp [hrest], by simp, rfl, ?_⟩
      intro p' q' hmarked
      cases p' with
      | nil =>
        -- The spelling does not stand at the first character.
        exact absurd (List.isPrefixOf_iff_prefix.2 ⟨q', by simpa using hmarked.symm⟩) hp
      | cons d p' =>
        simp only [List.cons_append, List.cons.injEq] at hmarked
        simpa using hleft p' q' hmarked.2

/-- A cut loses nothing but the operator. -/
theorem append_of_splitAtMarked {spelling : Text} {marked : List (CodePoint × Bool)}
    {before after : Text} (h : splitAtMarked spelling marked = some (before, after)) :
    before ++ spelling ++ after = marked.map Prod.fst := by
  obtain ⟨p, q, hmarked, rfl, rfl, -⟩ := eq_append_of_splitAtMarked h
  simp [hmarked, List.map_map, Function.comp_def]

end LineShell

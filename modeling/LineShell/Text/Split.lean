/-!
# Splitting and joining

A list is cut at every occurrence of a separator, and put together again with the separator in
between.  Main statements: `joinWith_splitOn` and `splitOn_joinWith`, the two undo each other.
-/

namespace LineShell

variable {α : Type}

def joinWith (separator : List α) : List (List α) → List α
  | [] => []
  | [t] => t
  | t :: u :: rest => t ++ separator ++ joinWith separator (u :: rest)

variable [DecidableEq α]

/-- The pieces of a list between the occurrences of a separator, empty ones included. -/
def splitOn (separator : α) : List α → List (List α)
  | [] => [[]]
  | c :: rest =>
    if c = separator then [] :: splitOn separator rest
    else match splitOn separator rest with
      | [] => [[c]]
      | piece :: pieces => (c :: piece) :: pieces

theorem splitOn_ne_nil (separator : α) (t : List α) : splitOn separator t ≠ [] := by
  induction t with
  | nil => simp [splitOn]
  | cons c rest ih =>
    by_cases hc : c = separator
    · simp [splitOn, hc]
    · cases hs : splitOn separator rest with
      | nil => exact absurd hs ih
      | cons piece pieces => simp [splitOn, hc, hs]

/-- No piece holds a separator. -/
theorem not_mem_of_mem_splitOn {separator : α} {t piece : List α}
    (h : piece ∈ splitOn separator t) : separator ∉ piece := by
  induction t generalizing piece with
  | nil => simp [splitOn] at h; simp [h]
  | cons c rest ih =>
    by_cases hc : c = separator
    · rw [splitOn, if_pos hc, List.mem_cons] at h
      rcases h with rfl | h
      · simp
      · exact ih h
    · rw [splitOn, if_neg hc] at h
      cases hs : splitOn separator rest with
      | nil => exact absurd hs (splitOn_ne_nil separator rest)
      | cons first pieces =>
        rw [hs] at h ih
        rcases List.mem_cons.1 h with rfl | h
        · have := @ih first (by simp)
          simp [Ne.symm hc, this]
        · exact ih (by simp [h])

/-- The pieces with the separator between them are the list again. -/
theorem joinWith_splitOn (separator : α) (t : List α) :
    joinWith [separator] (splitOn separator t) = t := by
  induction t with
  | nil => rfl
  | cons c rest ih =>
    cases hs : splitOn separator rest with
    | nil => exact absurd hs (splitOn_ne_nil separator rest)
    | cons first pieces =>
      rw [hs] at ih
      by_cases hc : c = separator
      · subst hc; simp [splitOn, hs, joinWith, ih]
      · cases pieces with
        | nil => simp_all [splitOn, joinWith]
        | cons second pieces => simp_all [splitOn, joinWith]

/-- Without a separator there is one piece. -/
theorem splitOn_of_not_mem {separator : α} {t : List α} (h : separator ∉ t) :
    splitOn separator t = [t] := by
  induction t with
  | nil => rfl
  | cons c rest ih =>
    rw [List.mem_cons, not_or] at h
    rw [splitOn, if_neg (Ne.symm h.1), ih h.2]

/-- A separator always ends a piece, so the texts on its two sides are split apart. -/
theorem splitOn_append (separator : α) (t u : List α) :
    splitOn separator (t ++ separator :: u) = splitOn separator t ++ splitOn separator u := by
  induction t with
  | nil => simp [splitOn]
  | cons c rest ih =>
    by_cases hc : c = separator
    · simp [splitOn, hc, ih]
    · cases hs : splitOn separator rest with
      | nil => exact absurd hs (splitOn_ne_nil separator rest)
      | cons piece pieces => simp [splitOn, hc, ih, hs]

/-- Pieces that were joined split again. -/
theorem splitOn_joinWith {separator : α} {ts : List (List α)} (hne : ts ≠ [])
    (h : ∀ t ∈ ts, separator ∉ t) : splitOn separator (joinWith [separator] ts) = ts := by
  match ts with
  | [] => exact absurd rfl hne
  | [t] => exact splitOn_of_not_mem (h t (by simp))
  | t :: u :: rest =>
    have hrest := splitOn_joinWith (List.cons_ne_nil u rest) fun v hv =>
      h v (List.mem_cons_of_mem t hv)
    rw [joinWith, List.append_assoc, List.singleton_append, splitOn_append,
      splitOn_of_not_mem (h t List.mem_cons_self), hrest]
    rfl

end LineShell

import LineShell.CommandLine.Options

/-!
# Options and the command among them

Reading an argument sets the command, or leaves the command alone and does not look at it:
`argument_sets`.  So a command line without a command reads as before with one put in front of it.
Main statement: `ofArguments_command`.
-/

namespace LineShell

def Options.withCommand (o : Options) (command : Option Text) : Options := { o with command }

def Options.Sets (set : Options → Options) : Prop :=
  (∀ o command, set (o.withCommand command) = (set o).withCommand command) ∨
    ∀ o, (set o).command ≠ none

def OptionKind.Sets : OptionKind → Prop
  | .flag set => Options.Sets set
  | .value set => ∀ v, Options.Sets (set v)

namespace Options

def Argument.Sets : Argument → Prop
  | .flag set | .valued set => Options.Sets set
  | .awaiting _ set => ∀ v, Options.Sets (set v)
  | .endOfOptions | .plain | .bad _ => True

/-- What has not set the command goes by whatever the command is. -/
theorem Sets.of_command_eq_none {set : Options → Options} {o : Options} (h : Sets set)
    (hnone : (set o).command = none) :
    o.command = none ∧ ∀ command, set (o.withCommand command) = (set o).withCommand command := by
  rcases h with hother | hcommand
  · refine ⟨?_, hother o⟩
    have hsame : set o = (set o).withCommand o.command := hother o o.command
    rw [hsame] at hnone
    exact hnone
  · exact absurd hnone (hcommand o)

theorem long?_sets {name : Text} {kind : OptionKind} (h : long? name = some kind) :
    kind.Sets := by
  unfold long? at h
  split at h
  · cases h
    exact fun v => .inr fun o => Option.some_ne_none v
  split at h
  · cases h
    exact fun v => .inl fun o command => rfl
  split at h
  · cases h
    exact .inl fun o command => rfl
  split at h
  · cases h
    exact .inl fun o command => rfl
  split at h
  · cases h
    exact .inl fun o command => rfl
  · cases h

theorem argument_sets (arg : Text) : (argument arg).Sets := by
  unfold argument
  split
  · trivial
  · dsimp only
    split
    · next hlong _ => exact long?_sets hlong
    · trivial
    · next hlong _ => exact long?_sets hlong
    · next v _ hlong _ => exact long?_sets hlong v
    · trivial
    · unfold shortArgument
      split
      · split
        · exact fun v => .inr fun o => Option.some_ne_none v
        · exact .inr fun o => Option.some_ne_none _
      · trivial
    · trivial

/-- Arguments that set no command read alike whatever the command is. -/
theorem readFrom_withCommand {o read : Options} {args extra : List Text} (command : Option Text)
    (h : readFrom o args = .ok (read, extra)) (hnone : read.command = none) :
    o.command = none ∧
      readFrom (o.withCommand command) args = .ok (read.withCommand command, extra) := by
  -- One case for each equation of `readFrom`; only those that set an option are not routine.
  fun_induction readFrom o args generalizing extra with
  | case1 o =>
    cases h
    exact ⟨hnone, rfl⟩
  | case2 o arg rest harg =>
    cases h
    exact ⟨hnone, by rw [readFrom, harg]⟩
  | case3 o arg rest harg ih =>
    cases hrest : readFrom o rest with
    | error error =>
      rw [hrest] at h
      cases h
    | ok result =>
      rw [hrest] at h
      cases h
      obtain ⟨hcommand, hwith⟩ := ih hrest
      refine ⟨hcommand, ?_⟩
      rw [readFrom, harg]
      simp only [hwith]
      rfl
  -- An argument that sets another option sets it whatever the command is.
  | case4 o arg rest set harg ih | case5 o arg rest set harg ih =>
    obtain ⟨hcommand, hwith⟩ := ih h
    have hsets := argument_sets arg
    rw [harg] at hsets
    obtain ⟨hnone, hset⟩ := hsets.of_command_eq_none hcommand
    refine ⟨hnone, ?_⟩
    rw [readFrom, harg]
    simp only [hset]
    exact hwith
  | case6 => cases h
  | case7 o arg name set harg value rest ih =>
    obtain ⟨hcommand, hwith⟩ := ih h
    have hsets := argument_sets arg
    rw [harg] at hsets
    obtain ⟨hnone, hset⟩ := (hsets value).of_command_eq_none hcommand
    refine ⟨hnone, ?_⟩
    rw [readFrom, harg]
    simp only [hset]
    exact hwith
  | case8 => cases h

/-- A line that is given in front of a command line without one is the only thing that it adds. -/
theorem ofArguments_command {args : List Text} {o : Options} (line : Text)
    (h : ofArguments args = .ok o) (hnone : o.command = none) :
    ofArguments ("-c".toText :: line :: args) = .ok (o.withCommand (some line)) := by
  have hfirst : readFrom {} ("-c".toText :: line :: args) =
      readFrom (withCommand {} (some line)) args := rfl
  unfold ofArguments at h ⊢
  rw [hfirst]
  split at h
  · cases h
  · next read extra hread =>
    split at h
    · next hallowed =>
      cases h
      rw [(readFrom_withCommand (some line) hread hnone).2]
      exact if_pos hallowed
    · cases h

end Options

end LineShell

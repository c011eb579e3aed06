import LineShell.Proofs.Completion.Candidates
import LineShell.Proofs.Line.Plain
import LineShell.Proofs.Shell.Answer

/-!
# Lines that completion makes

A completion that is accepted puts a name into the line as it stands.  The line then asks for the
command of that name if the name is plain, and for something else if it is not:
`accepted_completions`.
-/

namespace LineShell

open Grammar (Gap gap_singleton)

/-- The line that is there once a completion at the end of a text has been accepted. -/
def Completion.accept (c : Completion) (text : Text) : Text :=
  text.take (text.length - c.replaced) ++ c.text

/-- The command is the builtin of the name, or the executable file of the name in one of the
directories. -/
def Command.Names (host : Host) (directories : List Text) (name : Text) (command : Command) :
    Prop :=
  (∃ b : Builtin, b.name = name ∧ command = .builtin b []) ∨
    ∃ directory ∈ directories, host.isExecutable (pathIn directory name) = true ∧
      command = .external name (pathIn directory name) []

namespace Host

variable {host : Host} {directories : List Text} {name : Text}

/-- A program without a slash in its name is found in one of the directories. -/
theorem findProgram_eq_pathIn {path : Text} (hslash : .char '/' ∉ name)
    (h : host.findProgram directories name = some path) :
    ∃ directory ∈ directories, path = pathIn directory name := by
  by_cases hname : name = []
  · rw [findProgram, if_pos hname] at h
    cases h
  · rw [findProgram, if_neg hname, if_neg hslash] at h
    obtain ⟨directory, hd, hpath⟩ := List.mem_map.mp (List.mem_of_find?_eq_some h)
    exact ⟨directory, hd, hpath.symm⟩

/-- A name that is known makes a command of itself. -/
theorem Knows.exists_names (h : host.Knows directories name) (hslash : .char '/' ∉ name) :
    ∃ command, Command.ofWords? host directories [name] = some command ∧
      command.Names host directories name := by
  rcases h with ⟨b, hb⟩ | ⟨path, hpath⟩
  · have hname := (List.cons.inj (Command.ofWords?_eq_builtin hb)).1
    exact ⟨_, hb, .inl ⟨b, hname.symm, rfl⟩⟩
  · obtain ⟨-, -, hfind⟩ := Command.ofWords?_eq_external hpath
    obtain ⟨directory, hd, rfl⟩ := findProgram_eq_pathIn hslash hfind
    exact ⟨_, hpath, .inr ⟨directory, hd, (findProgram_eq_some hfind).1, rfl⟩⟩

end Host

/-! ## The line with a completion in it -/

/-- What was typed begins behind the blanks, and these mean nothing. -/
theorem Completion.trim_accept {text : Text} {c : Completion}
    (htext : c.text = c.display ++ " ".toText) (hreplaced : c.replaced = (Text.trimLeft text).length) :
    Text.trim (c.accept text) = Text.trim c.display := by
  obtain ⟨gap, hgap, hsplit⟩ := Text.exists_gap_trimLeft text
  have hlength := congrArg List.length hsplit
  rw [List.length_append] at hlength
  have hkept : text.take (text.length - c.replaced) = gap := by
    have hcount : text.length - c.replaced = gap.length := by omega
    rw [hcount, hsplit]
    exact List.take_left
  have hspace : Gap " ".toText := gap_singleton (by decide)
  rw [Completion.accept, hkept, htext, ← List.append_assoc, Text.trim_append_gap _ hspace,
    Text.trim_gap_append hgap]

namespace Host

/-- Completion offers names to be put behind what was typed, and accepting one puts the name
there. -/
theorem completions_eq_ok (host : Host) {directories : List Text}
    (hdirectories : ∀ directory ∈ directories, directory ≠ [] ∧ directory.Askable) (text : Text) :
    ∃ offered, host.completions directories text = .ok offered ∧ ∀ c ∈ offered,
      Text.trim (c.accept text) = Text.trim c.display ∧
        .char '/' ∉ c.display ∧ host.Knows directories c.display := by
  have hne := fun directory hd => (hdirectories directory hd).1
  have haskable := fun directory hd => (hdirectories directory hd).2
  by_cases hblank : (Text.trimLeft text).any isBlank = true
  · refine ⟨[], ?_, by simp⟩
    simp only [completions, hblank, if_true]
    rfl
  · obtain ⟨names, hnames, -, hmem⟩ := host.completingNames_eq_ok (Text.trimLeft text) haskable
    refine ⟨names.map fun name =>
      { text := name ++ " ".toText, replaced := (Text.trimLeft text).length, display := name }, ?_, ?_⟩
    · simp only [completions, hblank, hnames]
      rfl
    · intro c hc
      obtain ⟨name, hname, rfl⟩ := List.mem_map.mp hc
      exact ⟨Completion.trim_accept rfl rfl, (knows_of_offered hne ((hmem name).mp hname).2).2⟩

end Host

namespace Shell

/-- A completion that is accepted makes a line whose only word is the name that was shown, and that
is carried out as the builtin or the executable file of that name, exactly when the name is plain.
Otherwise the name is no word of the line at all. -/
theorem accepted_completions (shell : Shell) (m : Machine)
    (hdirectories : ∀ directory ∈ shell.searchPath.directories m.env,
      directory ≠ [] ∧ directory.Askable) (text : Text) :
    ∃ offered, m.toHost.completions (shell.searchPath.directories m.env) text = .ok offered ∧
      ∀ c ∈ offered,
        (Plain c.display →
          shell.Asks (c.accept text) [c.display] none ∧
            shell.answer m (c.accept text) =
              shell.carryOut m { words := [c.display], redirection := none } ∧
            ∃ command, shell.commandIn? m.toHost (c.accept text) = some command ∧
              command.Names m.toHost (shell.searchPath.directories m.env) c.display) ∧
        (¬ Plain c.display → ∀ words redirection,
          shell.Asks (c.accept text) words redirection → c.display ∉ words) := by
  obtain ⟨offered, hoffered, hknown⟩ := m.toHost.completions_eq_ok hdirectories text
  refine ⟨offered, hoffered, fun c hc => ?_⟩
  -- Accepting puts the name where the typed word was, so trimmed the line is the name.
  obtain ⟨htrim, hslash, hknows⟩ := hknown c hc
  have hne := hknows.ne_nil
  constructor
  · intro hplain
    have hasks : shell.Asks (c.accept text) [c.display] none := by
      rw [Asks, htrim, trim_of_isBare hplain.1]
      exact ofLine_of_plain shell.modes hplain hne
    obtain ⟨command, hcommand, hnames⟩ := hknows.exists_names hslash
    refine ⟨hasks, ?_, command, ?_, hnames⟩
    · rw [answer_eq_respond, hasks]
      rfl
    · rw [commandIn?_of_asks hasks]
      exact hcommand
  · intro hplain words redirection hasks
    rw [Asks, htrim] at hasks
    exact not_mem_words_of_not_plain hplain hasks

/-- The blanks in front of what was typed stay in the line. -/
theorem accepted_completions_of_program :
    let shell : Shell := { searchPath := .fixed ["/bin/".toText] }
    let m : Machine :=
      { tree := FileTree.root.putFile ["bin".toBytes, "ls".toBytes] { mode := 0o755, data := [] }
        directory := [], env := [] }
    (∀ directory ∈ shell.searchPath.directories m.env, directory ≠ [] ∧ directory.Askable) ∧
      m.toHost.completions (shell.searchPath.directories m.env) "  l".toText =
        .ok [{ text := "ls ".toText, replaced := 1, display := "ls".toText }] ∧
      shell.Asks "  ls ".toText ["ls".toText] none ∧
      shell.answer m "  ls ".toText =
        shell.carryOut m { words := ["ls".toText], redirection := none } ∧
      ∃ command, shell.commandIn? m.toHost "  ls ".toText = some command ∧
        command.Names m.toHost ["/bin/".toText] "ls".toText := by
  intro shell m
  have hdirectories : ∀ directory ∈ shell.searchPath.directories m.env,
      directory ≠ [] ∧ directory.Askable := by decide
  have hlisted : m.toHost.completions (shell.searchPath.directories m.env) "  l".toText =
      .ok [{ text := "ls ".toText, replaced := 1, display := "ls".toText }] := by rfl
  obtain ⟨offered, hoffered, haccepted⟩ :=
    accepted_completions shell m hdirectories "  l".toText
  cases hoffered.symm.trans hlisted
  have hls := (haccepted _ List.mem_cons_self).1 (by decide)
  exact ⟨hdirectories, hlisted, hls⟩

/-- A name with a blank in it is offered, and what it makes is the command in front of the blank. -/
theorem accepted_completion_of_blank :
    let shell : Shell := { searchPath := .fixed ["/bin".toText] }
    let m : Machine :=
      { tree := FileTree.root.putFile ["bin".toBytes, "a b".toBytes]
          { mode := 0o755, data := [], program := some (.completes [] [] 0) }
        directory := [], env := [] }
    let c : Completion := { text := "a b ".toText, replaced := 1, display := "a b".toText }
    m.toHost.completions (shell.searchPath.directories m.env) "a".toText = .ok [c] ∧
      c.accept "a".toText = "a b ".toText ∧
      shell.Asks (c.accept "a".toText) ["a".toText, "b".toText] none ∧
      (shell.answer m (c.accept "a".toText)).1 =
        .ok { stderr := "a: command not found\n".toBytes, exitCode := 127 } :=
  ⟨rfl, rfl, rfl, rfl⟩

end Shell

end LineShell

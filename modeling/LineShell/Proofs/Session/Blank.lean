import LineShell.Proofs.Session.Reads

/-!
# Blank lines

A blank line has a reply that tells nothing, and it does nothing.  But the status of a session is
the exit code of its last reply, and that of a blank line is zero.  Main statement:
`blank_lines_change_status_alone`, two inputs that are the same but for blank lines give sessions
that are the same but for prompts and the status, and the status tells whether a blank line was the
last.
-/

namespace LineShell

def Reading.isBlank : Reading → Bool
  | .line t => Text.trim t = []
  | .interrupted | .ended => false

/-- Two inputs are the same but for blank lines, which stand anywhere. -/
def Reader.SameButBlanks (reader : Reader) (events padded : List ReadEvent) : Prop :=
  padded.filter (fun event => !(reader.read (some event)).isBlank) =
    events.filter fun event => !(reader.read (some event)).isBlank

instance (reader : Reader) (events padded : List ReadEvent) :
    Decidable (reader.SameButBlanks events padded) :=
  inferInstanceAs (Decidable (_ = _))

namespace Loop

/-- The readings that have a reply, with their replies, each in the session that the readings before
it leave. -/
def answers (loop : Loop) : Session → List Reading → List (Reading × Reply)
  | _, [] => []
  | s, r :: rest => ((loop.reply? s r).map (r, ·)).toList ++ loop.answers (loop.pass s r) rest

/-- The lines of a session that hold something and have a reply, with their replies. -/
def commands (loop : Loop) (s : Session) (events : List ReadEvent) : List (Reading × Reply) :=
  (loop.answers s (loop.reads s events)).filter fun answer => !answer.1.isBlank

/-- The exit code of the last line that holds something and has a reply. -/
def commandStatus (loop : Loop) (s : Session) (events : List ReadEvent) : Int :=
  ((loop.commands s events).getLast?.map fun answer => answer.2.exitCode).getD s.status

/-- Is the last line with a reply a blank one? -/
def endsBlank (loop : Loop) (s : Session) (events : List ReadEvent) : Bool :=
  (loop.answers s (loop.reads s events)).getLast?.any fun answer => answer.1.isBlank

variable {loop : Loop} {s s' : Session} {r : Reading}

/-! ## One blank line -/

theorem reply?_of_isBlank (h : r.isBlank = true) : loop.reply? s r = some {} := by
  cases r with
  | line t =>
    have hblank : Text.trim t = [] := of_decide_eq_true h
    simp only [reply?, Shell.runLine, Shell.answer, if_pos hblank]
    rfl
  | interrupted => cases h
  | ended => cases h

/-- A blank line does nothing to the machine. -/
theorem machine_handle_of_isBlank (h : r.isBlank = true) :
    (loop.handle s r).machine = s.machine := by
  cases r with
  | line t =>
    have hblank : Text.trim t = [] := of_decide_eq_true h
    simp only [handle, Loop.runLine, Shell.runLine, Shell.answer, if_pos hblank]
    simp [Machine.deliver, withNewline, Machine.print]
  | interrupted => rfl
  | ended => rfl

theorem not_over_of_isBlank (loop : Loop) (s : Session) (h : r.isBlank = true) :
    ¬ loop.Over s r := by
  cases r with
  | line t =>
    have hblank : Text.trim t = [] := of_decide_eq_true h
    rintro ⟨⟨args, redirection, hasks⟩, -⟩
    rw [Shell.Asks, hblank, Shell.ofLine_nil] at hasks
    cases hasks
  | interrupted => cases h
  | ended => cases h

/-! ## Lines of which the blank ones are left out -/

theorem unprompted_machine_pass_of_isBlank (loop : Loop) (h : r.isBlank = true) :
    (loop.pass s r).machine.unprompted = s.machine.unprompted :=
  (congrArg Session.machine (loop.unprompted_pass s r)).trans (machine_handle_of_isBlank h)

/-- But for prompts, blank lines leave no mark on the machine. -/
theorem unprompted_foldl_pass_filter (h : s.machine.unprompted = s'.machine.unprompted)
    (rs : List Reading) :
    (rs.foldl loop.pass s).machine.unprompted =
      ((rs.filter fun r => !r.isBlank).foldl loop.pass s').machine.unprompted := by
  induction rs generalizing s s' with
  | nil => exact h
  | cons r rest ih =>
    by_cases hr : r.isBlank = true
    · rw [List.filter_cons_of_neg (by simp [hr]), List.foldl_cons]
      exact ih ((loop.unprompted_machine_pass_of_isBlank hr).trans h)
    · rw [List.filter_cons_of_pos (by simp [hr]), List.foldl_cons, List.foldl_cons]
      exact ih (unprompted_machine_pass rfl h r)

theorem answers_filter (h : s.machine.unprompted = s'.machine.unprompted) (rs : List Reading) :
    (loop.answers s rs).filter (fun answer => !answer.1.isBlank) =
      loop.answers s' (rs.filter fun r => !r.isBlank) := by
  induction rs generalizing s s' with
  | nil => rfl
  | cons r rest ih =>
    by_cases hr : r.isBlank = true
    · have hrest := ih ((loop.unprompted_machine_pass_of_isBlank hr).trans h)
      rw [List.filter_cons_of_neg (by simp [hr]), answers, List.filter_append, hrest,
        reply?_of_isBlank hr]
      simp [hr]
    · rw [List.filter_cons_of_pos (by simp [hr]), answers, answers, List.filter_append,
        ih (unprompted_machine_pass rfl h r), reply?_congr rfl h r]
      cases loop.reply? s' r <;> simp [hr]

theorem untilOver_filter (h : s.machine.unprompted = s'.machine.unprompted) (rs : List Reading) :
    (loop.untilOver s rs).filter (fun r => !r.isBlank) =
      loop.untilOver s' (rs.filter fun r => !r.isBlank) := by
  induction rs generalizing s s' with
  | nil => rfl
  | cons r rest ih =>
    by_cases hr : r.isBlank = true
    · have hrest := ih ((loop.unprompted_machine_pass_of_isBlank hr).trans h)
      rw [untilOver, if_neg (loop.not_over_of_isBlank s hr), List.filter_cons_of_neg (by simp [hr]),
        List.filter_cons_of_neg (by simp [hr]), hrest]
    · have hpass : (loop.pass s r).machine.unprompted = (loop.pass s' r).machine.unprompted :=
        unprompted_machine_pass rfl h r
      have hrest := ih hpass
      rw [List.filter_cons_of_pos (by simp [hr]), untilOver, untilOver, ← hrest]
      simp only [over_congr rfl h r]
      split
      · simp [hr]
      · rw [List.filter_cons_of_pos (by simp [hr])]

/-- Two inputs that are the same but for blank lines are read alike but for these. -/
theorem reads_filter_congr (s : Session) {events padded : List ReadEvent}
    (h : loop.reader.SameButBlanks events padded) :
    (loop.reads s padded).filter (fun r => !r.isBlank) =
      (loop.reads s events).filter fun r => !r.isBlank := by
  have hreads : ∀ events, (loop.reads s events).filter (fun r => !r.isBlank) =
      loop.untilOver s (((events.filter fun event =>
        !(loop.reader.read (some event)).isBlank).map fun event => loop.reader.read (some event)) ++
          [.ended]) := by
    intro events
    rw [reads, untilOver_filter rfl, List.filter_append, List.filter_map]
    rfl
  rw [hreads, hreads, h]

/-! ## The status -/

theorem map_snd_answers (loop : Loop) (s : Session) (rs : List Reading) :
    (loop.answers s rs).map Prod.snd = loop.replies s rs := by
  induction rs generalizing s with
  | nil => rfl
  | cons r rest ih =>
    rw [answers, replies, List.map_append, ih]
    cases loop.reply? s r <;> rfl

/-- The reply to a blank line has the exit code 0. -/
theorem exitCode_of_mem_answers {rs : List Reading} {answer : Reading × Reply}
    (h : answer ∈ loop.answers s rs) (hblank : answer.1.isBlank = true) :
    answer.2.exitCode = 0 := by
  induction rs generalizing s with
  | nil => cases h
  | cons r rest ih =>
    rcases List.mem_append.mp h with hhere | hrest
    · obtain ⟨reply, hreply, rfl⟩ : ∃ reply, loop.reply? s r = some reply ∧ (r, reply) = answer := by
        simpa using hhere
      rw [reply?_of_isBlank hblank] at hreply
      cases hreply
      rfl
    · exact ih hrest

/-- The status of a session that a blank line ends is zero, and otherwise it is the exit code of the
last line that holds something. -/
theorem status_run_eq (loop : Loop) (s : Session) (events : List ReadEvent) :
    (loop.run s events).status =
      if loop.endsBlank s events then 0 else loop.commandStatus s events := by
  rw [run_eq_foldl, status_foldl_pass, recorded, ← map_snd_answers, List.getLast?_map, endsBlank,
    commandStatus, commands]
  have hcode : ∀ answer ∈ loop.answers s (loop.reads s events), answer.1.isBlank = true →
      answer.2.exitCode = 0 := fun answer h => exitCode_of_mem_answers h
  generalize loop.answers s (loop.reads s events) = answers at hcode ⊢
  obtain rfl | ⟨front, answer, rfl⟩ := List.eq_nil_or_concat' answers
  · rfl
  · by_cases hblank : answer.1.isBlank = true
    · simp [hblank, hcode answer (by simp) hblank]
    · simp [hblank, List.filter_append]

end Loop

/-- Inputs that are the same but for blank lines give the same host, the same output, the same log
and the same replies to all other lines.  The status is the exit code of the last of these lines
unless the last line with a reply is blank: then it is zero. -/
theorem blank_lines_change_status_alone (loop : Loop) (s : Session) {events padded : List ReadEvent}
    (h : loop.reader.SameButBlanks events padded) :
    (loop.run s padded).machine.unprompted = (loop.run s events).machine.unprompted ∧
      loop.commands s padded = loop.commands s events ∧
      (loop.run s padded).status =
        if loop.endsBlank s padded then 0 else loop.commandStatus s events := by
  have hreads := Loop.reads_filter_congr s h
  have hcommands : loop.commands s padded = loop.commands s events := by
    rw [Loop.commands, Loop.commands, Loop.answers_filter rfl, Loop.answers_filter rfl, hreads]
  refine ⟨?_, hcommands, ?_⟩
  · rw [Loop.run_eq_foldl, Loop.run_eq_foldl, Loop.unprompted_foldl_pass_filter rfl, hreads]
    exact (Loop.unprompted_foldl_pass_filter rfl (loop.reads s events)).symm
  · rw [Loop.status_run_eq, Loop.commandStatus, hcommands, Loop.commandStatus]

/-- Blank lines of three kinds in front of an exit line, which is the last line with a reply. -/
theorem blank_lines_change_status_alone_of_exit :
    let loop : Loop := { prompt := "$ ".toList, reader := .plain }
    let s : Session := { machine := { tree := .root, directory := [], env := [] } }
    let events : List ReadEvent := [.text "nothing > f\n".toText, .interrupt, .text "exit 3".toText]
    let padded : List ReadEvent :=
      [.text "\n".toText, .text "nothing > f\n".toText, .text "\t \n".toText, .interrupt,
        .text "  ".toText, .text "exit 3".toText]
    loop.reader.SameButBlanks events padded ∧ loop.endsBlank s padded = false ∧
      (loop.run s padded).machine.unprompted = (loop.run s events).machine.unprompted ∧
      loop.commands s padded = loop.commands s events ∧ (loop.run s padded).status = 3 := by
  intro loop s events padded
  have hsame : loop.reader.SameButBlanks events padded := by decide
  have hends : loop.endsBlank s padded = false := by decide
  have hcode : loop.commandStatus s events = 3 := by decide
  obtain ⟨hmachine, hcommands, hstatus⟩ := blank_lines_change_status_alone loop s hsame
  rw [hends, hcode] at hstatus
  exact ⟨hsame, hends, hmachine, hcommands, hstatus⟩

/-- The status of a name that stands for nothing is lost behind a blank line. -/
theorem blank_line_hides_status :
    let loop : Loop := { prompt := "$ ".toList, reader := .plain }
    let s : Session := { machine := { tree := .root, directory := [], env := [] } }
    loop.reader.SameButBlanks [.text "nope\n".toText] [.text "nope\n".toText, .text "\n".toText] ∧
      (loop.run s [.text "nope\n".toText]).status = 127 ∧
      (loop.run s [.text "nope\n".toText, .text "\n".toText]).status = 0 ∧
      loop.commandStatus s [.text "nope\n".toText, .text "\n".toText] = 127 := by
  decide

end LineShell

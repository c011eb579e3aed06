import LineShell.Proofs.Session.Order

/-!
# What has been told, told differently

Nothing that a shell does depends on what has been written to the terminal or noted in the log
before.  So a change of a machine that leaves the host alone and keeps up with all later notes and
prints is kept by everything that a shell does: `Retells.answer` and `Retells.runLine` for one line,
`Retells.runLines` for a run of lines, and `Retells.run` for a session.
-/

namespace LineShell

/-- A change of what a machine has written and noted.  What is written and noted behind it is
changed along, and the host is left alone. -/
structure Machine.Retells (φ : Machine → Machine) : Prop where
  withHost : ∀ (m : Machine) (host : Host),
    { φ m with toHost := host } = φ { m with toHost := host }
  note : ∀ (m : Machine) (event : LogEvent), (φ m).note event = φ (m.note event)
  print : ∀ (m : Machine) (stream : Stream) (data : Bytes),
    (φ m).print stream data = φ (m.print stream data)

def Session.retold (φ : Machine → Machine) (s : Session) : Session :=
  { s with machine := φ s.machine }

namespace Machine.Retells

variable {φ : Machine → Machine} (h : Machine.Retells φ)

include h

theorem toHost (m : Machine) : (φ m).toHost = m.toHost :=
  (congrArg Machine.toHost (h.withHost m m.toHost)).symm

/-! ## Delivery -/

theorem redirect (m : Machine) (r : Redirection) (data : Bytes) :
    (φ m).redirect r data = (m.redirect r data).map id φ := by
  rw [Machine.redirect, Machine.redirect, h.toHost]
  rcases m.toHost.writeFile r.mode r.path data with ⟨_ | failure, host⟩
  · simp only [h.withHost, Prod.map, id]
  · cases hencode : (diagnostic (r.path ++ ": ".toText ++ failure.reason)).encode with
    | error fault => simp only [hencode, h.withHost, h.note, Prod.map, id]
    | ok complaint => simp only [hencode, h.withHost, h.note, h.print, Prod.map, id]

theorem deliverApart (m : Machine) (r : Redirection) (data : Bytes) (stream : Stream)
    (other : Bytes) : (φ m).deliverApart r data stream other =
      (m.deliverApart r data stream other).map id φ := by
  rw [Machine.deliverApart, Machine.deliverApart, h.redirect]
  rcases m.redirect r data with ⟨_ | fault, told⟩
  · simp only [h.print, Prod.map, id]
  · rfl

theorem deliver (m : Machine) (stdout stderr : Bytes) (redirection : Option Redirection) :
    (φ m).deliver stdout stderr redirection =
      (m.deliver stdout stderr redirection).map id φ := by
  cases redirection with
  | none => simp only [Machine.deliver, h.print, Prod.map, id]
  | some r => rcases r with ⟨_ | _, mode, path⟩ <;> exact h.deliverApart m _ _ _ _

/-! ## Commands -/

theorem launch (m : Machine) (name path : Text) (args : List Text) :
    (φ m).launch name path args = (m.launch name path args).map id φ := by
  rw [Machine.launch, Machine.launch, h.note, h.toHost]
  rcases (m.note (.launching name path args)).toHost.start path (name :: args) with
    failure | ⟨result, host⟩
  · dsimp only
    cases failure.isAnswer with
    | false => rfl
    | true => simp only [if_true, h.note, Prod.map, id]
  · simp only [h.withHost, h.note, Prod.map, id]

theorem execute (m : Machine) (directories : List Text) (command : Command) :
    (φ m).execute directories command = (m.execute directories command).map id φ := by
  cases command with
  | builtin b args =>
    simp only [Machine.execute, h.toHost]
    rcases b.perform m.toHost directories args with failure | ⟨outcome, host⟩
    · rfl
    · simp only [h.withHost, Prod.map, id]
  | notFound name args => simp only [Machine.execute, h.note, Prod.map, id]
  | external name path args =>
    simp only [Machine.execute, h.launch]
    rcases m.launch name path args with ⟨failure | outcome, done⟩ <;> rfl

/-! ## Lines -/

theorem carryOut (shell : Shell) (m : Machine) (instruction : Instruction) :
    shell.carryOut (φ m) instruction = (shell.carryOut m instruction).map id φ := by
  simp only [Shell.carryOut, h.toHost, h.execute]
  cases Command.ofWords? m.toHost (shell.searchPath.directories m.env) instruction.words with
  | none => rfl
  | some command =>
    rcases hdone : m.execute (shell.searchPath.directories m.env) command with
      ⟨failure | outcome, done⟩ <;> simp only [hdone] <;> rfl

theorem answer (shell : Shell) (m : Machine) (line : Text) :
    shell.answer (φ m) line = (shell.answer m line).map id φ := by
  rw [Shell.answer_eq_respond, Shell.answer_eq_respond]
  cases Instruction.ofLine shell.modes (Text.trim line) with
  | error e => rfl
  | ok instruction => exact h.carryOut shell m instruction

theorem runLine (shell : Shell) (s : Session) (line : Text) :
    shell.runLine (s.retold φ) line = (shell.runLine s line).map id (·.retold φ) := by
  simp only [Shell.runLine, Session.retold, h.answer]
  rcases shell.answer s.machine line with ⟨failure | reply, m⟩
  · rfl
  · simp only [Prod.map, id, h.deliver]
    rcases m.deliver reply.stdout reply.stderr reply.redirection with ⟨_ | broken, left⟩
    · rfl
    · rfl

theorem runLines (shell : Shell) (s : Session) (lines : List Text) :
    shell.runLines (s.retold φ) lines = (shell.runLines s lines).retold φ := by
  induction lines generalizing s with
  | nil => rfl
  | cons line rest ih =>
    rw [Shell.runLines, List.foldl_cons, h.runLine]
    exact ih (shell.runLine s line).2

/-! ## Sessions -/

theorem loopRunLine (loop : Loop) (s : Session) (line : Text) :
    loop.runLine (s.retold φ) line = (loop.runLine s line).map id (·.retold φ) := by
  rw [Loop.runLine, Loop.runLine, h.runLine]
  rcases loop.shell.runLine s line with ⟨failure | reply, after⟩
  · simp only [Prod.map, id, Session.retold, h.note]
  · rfl

section

variable (hprompt : ∀ (m : Machine) (reader : Reader) (text : List Char),
  (φ m).promptFor reader text = φ (m.promptFor reader text))

include hprompt

/-- What has been told does not matter to a turn of the loop, if prompts are told along. -/
theorem advance (loop : Loop) (s : Session) (event : Option ReadEvent) :
    loop.advance (s.retold φ) event = (loop.advance s event).map id (·.retold φ) := by
  have hprompted : loop.prompted (s.retold φ) = (loop.prompted s).retold φ :=
    congrArg (Session.mk · s.status) (hprompt s.machine loop.reader loop.prompt)
  unfold Loop.prompted at hprompted
  unfold Loop.advance
  rw [hprompted]
  cases loop.reader.read event with
  | ended => rfl
  | interrupted => rfl
  | line t => exact h.loopRunLine loop _ t

theorem run (loop : Loop) (s : Session) (events : List ReadEvent) :
    loop.run (s.retold φ) events = (loop.run s events).retold φ := by
  induction events generalizing s with
  | nil => rw [Loop.run, Loop.run, h.advance hprompt]; rfl
  | cons event rest ih =>
    rw [Loop.run, Loop.run, h.advance hprompt]
    rcases loop.advance s (some event) with ⟨_ | _, after⟩
    · exact ih after
    · rfl

end

end Machine.Retells

end LineShell

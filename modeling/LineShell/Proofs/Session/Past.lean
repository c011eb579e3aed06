import LineShell.Proofs.Session.Retelling

/-!
# The past of a session

Nothing that a shell does depends on what has been written to the terminal or noted in the log
before.  A machine with a past does what it does without one, and adds the same to its past: having a
past is a retelling, `Machine.retells_after`.  So what comes of a reading or of a turn of the loop
is decided by the session without its past: `Loop.handle_eq_after`, `Loop.advance_eq_after`.
-/

namespace LineShell

namespace Machine

def after (m past : Machine) : Machine :=
  { m with
    terminal := { m.terminal with writes := past.terminal.writes ++ m.terminal.writes }
    log := past.log ++ m.log }

def fresh (m : Machine) : Machine :=
  { m with terminal := { m.terminal with writes := [] }, log := [] }

theorem fresh_after (m : Machine) : m.fresh.after m = m := by
  simp [fresh, after]

theorem fresh_eq_iff {m m' : Machine} :
    m.fresh = m'.fresh ↔ m.toHost = m'.toHost ∧ m.terminal.kind = m'.terminal.kind := by
  simp [fresh]

/-- A machine with a past adds to it what it would write and note without one. -/
theorem retells_after (past : Machine) : Retells (·.after past) where
  withHost m host := rfl
  note m event := by simp [note, after]
  print m stream data := by simp [print, Terminal.print_eq, after]

theorem promptFor_after (past m : Machine) (reader : Reader) (text : List Char) :
    (m.after past).promptFor reader text = (m.promptFor reader text).after past := by
  simp [promptFor, Terminal.promptFor, after]

end Machine

def Session.after (s : Session) (past : Machine) : Session :=
  { s with machine := s.machine.after past }

def Session.fresh (s : Session) : Session := { s with machine := s.machine.fresh }

theorem Session.fresh_after (s : Session) : s.fresh.after s.machine = s := by
  simp [fresh, after, Machine.fresh_after]

namespace Loop

/-- What a reading does to a session, the prompt aside: a line is processed. -/
def handle (loop : Loop) (s : Session) : Reading → Session
  | .line t => (loop.runLine s t).2
  | .interrupted | .ended => s

theorem pass_eq_handle (loop : Loop) (s : Session) (r : Reading) :
    loop.pass s r = loop.handle (loop.prompted s) r := by
  cases r <;> rfl

theorem handle_retold {φ : Machine → Machine} (h : Machine.Retells φ) (loop : Loop) (s : Session)
    (r : Reading) : loop.handle (s.retold φ) r = (loop.handle s r).retold φ := by
  cases r with
  | interrupted => rfl
  | ended => rfl
  | line t => exact congrArg Prod.snd (h.loopRunLine loop s t)

variable (loop : Loop) (s : Session)

/-- What comes of a reading is decided by the session without its past. -/
theorem handle_eq_after (r : Reading) :
    loop.handle s r = (loop.handle s.fresh r).after s.machine := by
  have hafter : loop.handle (s.fresh.after s.machine) r = (loop.handle s.fresh r).after s.machine :=
    loop.handle_retold (Machine.retells_after s.machine) s.fresh r
  rw [← hafter, Session.fresh_after]

theorem advance_eq_after (event : Option ReadEvent) :
    loop.advance s event = (loop.advance s.fresh event).map id (·.after s.machine) := by
  have hafter : loop.advance (s.fresh.after s.machine) event =
      (loop.advance s.fresh event).map id (·.after s.machine) :=
    (Machine.retells_after s.machine).advance (Machine.promptFor_after s.machine) loop s.fresh event
  rw [← hafter, Session.fresh_after]

end Loop

end LineShell

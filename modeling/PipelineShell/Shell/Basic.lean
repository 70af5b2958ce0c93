import PipelineShell.Job

/-!
The state of a shell between lines, and why a line may fail to run.
-/

namespace PipelineShell

/-- What a shell remembers between lines. -/
structure Shell where
  jobs : JobTable
  /-- The status of the most recent line. -/
  lastStatus : Int
  /-- The code to leave with, once leaving has been asked for. -/
  exit : Option Int
deriving DecidableEq, Repr

namespace Shell

def new : Shell :=
  ⟨.empty, 0, none⟩

/-- The code a session leaves with: the one asked for, else the last status. -/
def leavingCode (shell : Shell) : Int :=
  shell.exit.getD shell.lastStatus

/-- Why a line does not run to its end. -/
inductive RunFault where
  /-- The target of the redirection cannot be opened. -/
  | redirect (path : String) (cause : PathFault)
  /-- The line has no plan. -/
  | plan (fault : PlanFault)
  /-- A pipe between two segments cannot be made. -/
  | pipe (errno : Errno)
  /-- A child cannot be started. -/
  | fork (errno : Errno)
  /-- A child cannot be waited for, or has ended in a way that has no status. -/
  | wait (errno : Errno)
deriving DecidableEq, Repr

def RunFault.message : RunFault → String
  | .redirect path cause => path ++ ": " ++ cause.message
  | .plan .malformed => "malformed command line"
  | .plan .holdsNul => "argument contains a NUL byte"
  | .pipe errno => "cannot create pipe: " ++ errno.processMessage
  | .fork errno => "cannot fork: " ++ errno.processMessage
  | .wait errno => "cannot wait for child: " ++ errno.processMessage

abbrev Attempt (α : Type) :=
  ExceptT RunFault (Routine System.interface) α

end Shell

end PipelineShell

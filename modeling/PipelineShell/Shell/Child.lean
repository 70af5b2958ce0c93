import PipelineShell.Shell.Pipeline

/-!
What the children of the shell do. A segment puts its descriptors in place and becomes its
program; a sub-shell runs the stages of its line as the shell itself would have.
-/

namespace PipelineShell

/-- Writes a line of complaint of a child. Whether it can be written is nobody's concern. -/
def Child.complain (text : String) : Routine System.interface Unit := do
  let _ ← System.call (.write Fd.error (text ++ "\n"))

/-- Puts a descriptor onto a standard number, and says whether that could be done. -/
def Launch.wire (source : Option Fd) (target : Fd) : Routine System.interface Bool :=
  match source with
  | none => return true
  | some fd => do
      let reply ← if fd = target then System.call (.keepOnExecute fd)
        else System.call (.duplicateOnto fd target)
      return reply.toBool

def Launch.failureStatus : Errno → Int
  | .noEntry => 127
  | _ => 126

/-- The complaint of a segment whose program cannot run. -/
def Launch.failureMessage (program : String) : Errno → String
  | .noEntry => "pish: " ++ program ++ ": command not found"
  | _ => "pish: " ++ program ++ ": cannot execute"

/-- A segment from its start to the moment its program takes over; the value is its exit code if
that moment does not come. -/
def Launch.routine (launch : Launch) : Routine System.interface Int := do
  if ← wire launch.input Fd.input then
    if ← wire launch.output Fd.output then
      let errno ← System.call (.execute launch.command)
      Child.complain (failureMessage launch.command.program errno)
      return failureStatus errno
    else return 126
  else return 126

def Shell.subshellFailure : Int := 126

def Shell.subshell (stages : List Stage) (output : Output) : Routine System.interface Int := do
  match ← (Shell.runGated output 0 stages).run with
  | .ok status => return status
  | .error fault =>
      Child.complain ("pish: " ++ fault.message)
      return Shell.subshellFailure

/-- What a child does, up to its exit code. -/
def Child.routine : Child → Routine System.interface Int
  | .segment launch => launch.routine
  | .subshell stages output => Shell.subshell stages output

end PipelineShell

import PipelineShell.Shell.Builtin
import PipelineShell.Shell.Pipeline

/-!
Running one line. A line that is a builtin acts on the shell; any other line is planned first,
then run to its end or handed to the job table. A line writes to the shell as it goes: what it has
written before it fails stays written.
-/

namespace PipelineShell.Shell

/-- What running a line comes to. -/
inductive Completion where
  /-- The line ran to its end with this status. -/
  | done (status : Int)
  /-- The line went to the background as the job of this number. -/
  | background (id : Nat)
deriving DecidableEq, Repr

/-- Starts a planned line in the background. One stage runs in children of the shell itself;
several need a sub-shell that waits between them. -/
def startBackground (stages : List Stage) (output : Output) : Attempt (List Pid) :=
  match stages with
  | [stage] => do
      let target ← openTarget output
      let pids ← startStage stage target
      return pids
  | stages => do
      match ← System.call (.fork (.subshell stages output)) with
      | .error errno => throw (.fork errno)
      | .ok pid => return [pid]

/-- A run that may fail, and the shell it writes to. -/
abbrev Running (α : Type) :=
  ExceptT RunFault (StateT Shell (Routine System.interface)) α

/-- An attempt that has no access to the shell. -/
def Running.ofAttempt {α : Type} (attempt : Attempt α) : Running α :=
  ExceptT.mk (StateT.lift attempt.run)

/-- Hands children over to the job table and gives the number of their job. -/
def addJob (pids : List Pid) (description : String) : Running Nat :=
  modifyGet fun shell =>
    let (id, jobs) := shell.jobs.insert pids description
    (id, { shell with jobs })

def setStatus (status : Int) : Running Unit :=
  modify fun shell => { shell with lastStatus := status }

def runPlanned (line : CommandLine) (stages : List Stage) : Running Completion := do
  if line.background then
    let pids ← .ofAttempt (startBackground stages line.output)
    let id ← addJob pids line.render
    setStatus 0
    return .background id
  else
    let status ← .ofAttempt (runGated line.output 0 stages)
    setStatus status
    return .done status

def runExternal (line : CommandLine) : Running Completion :=
  match line.plan with
  | .error fault => throw (.plan fault)
  | .ok stages => runPlanned line stages

def runBuiltin (builtin : Builtin) (arguments : List String) : Running Completion := do
  let (status, shell) ← builtin.run (← get) arguments
  set shell
  setStatus status
  return .done status

def run (shell : Shell) (line : CommandLine) :
    Routine System.interface (Except RunFault Completion × Shell) :=
  let running :=
    match builtin? line with
    | some (builtin, arguments) => runBuiltin builtin arguments
    | none => runExternal line
  running.run.run shell

end PipelineShell.Shell

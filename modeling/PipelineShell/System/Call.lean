import PipelineShell.Plan
import PipelineShell.System.Descriptors
import PipelineShell.System.Process
import PipelineShell.System.Routine

/-!
What the shell asks of the system, one constructor for each request, and the type of what is
replied. A wait or a poll stands for all that are made until no signal breaks one off: the reply is
that of the last, so it is not that a signal came. A complaint is replied to only if the shell could
write it, or had nothing to write it to; the shell ends where it has something and cannot.
-/

namespace PipelineShell

/-- A program about to run in a child, with the descriptors its input and output come from. -/
structure Launch where
  command : Command
  input : Option Fd
  output : Option Fd
deriving DecidableEq, Repr

/-- What a child of the shell is started for. -/
inductive Child where
  /-- One segment of a pipeline. -/
  | segment (launch : Launch)
  /-- A shell of its own for the stages of a background line. -/
  | subshell (stages : List Stage) (output : Output)
deriving DecidableEq, Repr

namespace System

/-- A request to the system. -/
inductive Call where
  /-- Opens a file to write to, making it if need be; it is emptied unless `append` is set. -/
  | openOutput (path : String) (append : Bool)
  /-- Makes a pipe and gives its reading and its writing end. -/
  | makePipe
  /-- Copies a descriptor to the lowest free number that is not below `least`. -/
  | duplicateAbove (fd least : Fd)
  /-- Copies a descriptor onto a number. -/
  | duplicateOnto (fd target : Fd)
  /-- Keeps a descriptor open when a program is executed. -/
  | keepOnExecute (fd : Fd)
  | close (fd : Fd)
  | write (fd : Fd) (text : String)
  /-- Writes a line of complaint of the shell itself. -/
  | complain (text : String)
  /-- Reads up to a number of bytes. None are read at the end of what is read. -/
  | read (fd : Fd) (size : Nat)
  /-- Starts a child. -/
  | fork (child : Child)
  /-- Becomes another program; a reply comes only if that fails. -/
  | execute (command : Command)
  /-- Waits for a child to end and collects it. -/
  | wait (pid : Pid)
  /-- Collects a child if it has ended. -/
  | poll (pid : Pid)
  | changeDirectory (path : String)
  /-- Reads a variable of the environment. -/
  | environment (name : String)
  | showPrompt (prompt : String)
deriving DecidableEq, Repr

abbrev Call.Reply : Call → Type
  | .openOutput _ _ => Except Errno Fd
  | .makePipe => Except Errno (Fd × Fd)
  | .duplicateAbove _ _ => Except Errno Fd
  | .duplicateOnto _ _ => Except Errno Unit
  | .keepOnExecute _ => Except Errno Unit
  | .close _ => Unit
  | .write _ _ => Except Errno Unit
  | .complain _ => Unit
  | .read _ _ => Except Errno (List UInt8)
  | .fork _ => Except Errno Pid
  | .execute _ => Errno
  | .wait _ => Except LastingErrno Death
  | .poll _ => Except LastingErrno (Option Death)
  | .changeDirectory _ => Except Errno Unit
  | .environment _ => Option (List UInt8)
  | .showPrompt _ => Unit

abbrev interface : Interface :=
  ⟨Call, Call.Reply⟩

def call (request : Call) : Routine interface request.Reply :=
  @Routine.request interface request

/-- The status of a child, once it has ended. The child is collected also if its death has no
status. -/
def waitFor (pid : Pid) : Routine interface (Except Errno Int) := do
  let death ← call (.wait pid)
  return (death.mapError LastingErrno.errno).bind Death.status

/-- The status of a child, if it has ended. -/
def pollFor (pid : Pid) : Routine interface (Except Errno (Option Int)) := do
  let death ← call (.poll pid)
  return (death.mapError LastingErrno.errno).bind fun
    | none => .ok none
    | some death => death.status.map some

def complain (text : String) : Routine interface Unit :=
  call (.complain text)

end System

end PipelineShell

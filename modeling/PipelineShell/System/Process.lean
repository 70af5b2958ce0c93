import PipelineShell.System.Errno

/-!
Processes as their parent sees them: a number, and in the end a death. A parent reads a status
off a death only if it knows the signal; the real-time signals have no status.
-/

namespace PipelineShell

/-- The number of a process. -/
structure Pid where
  number : Nat
deriving DecidableEq, Repr, Inhabited

/-- How a process ended. -/
inductive Death where
  | exited (code : UInt8)
  | killed (signal : Nat)
deriving DecidableEq, Repr

namespace Death

def firstUnknownSignal : Nat := 32

/-- The death of a process that exits with the code: only its lowest eight bits are kept. -/
def ofExitCode (code : Int) : Death :=
  .exited (UInt8.ofNat (code % 256).toNat)

/-- The status of a death: the exit code, or 128 and the number of a known signal. -/
def status : Death → Except Errno Int
  | .exited code => .ok code.toNat
  | .killed signal =>
      if signal < firstUnknownSignal then .ok (128 + signal) else .error .invalidArgument

end Death

end PipelineShell

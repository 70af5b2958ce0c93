import PipelineShell.Shell.Basic

/-!
Pipelines out of descriptors and children. The shell holds a pipe only between the two segments
it joins; every descriptor it gives to a child is above the standard ones, so that putting one
onto a standard number in the child never destroys another. All segments are waited for before
a status is given.
-/

namespace PipelineShell.Shell

/-- Moves a descriptor above the standard ones. Where it was, it is closed in any case. -/
def raise (fd : Fd) : Routine System.interface (Except Errno Fd) :=
  if Fd.error < fd then
    return .ok fd
  else do
    let raised ← System.call (.duplicateAbove fd (Fd.error + 1))
    System.call (.close fd)
    return raised

def openFile (path : String) (append : Bool) : Attempt Fd := do
  if hasNul path then
    throw (.redirect path .holdsNul)
  match ← System.call (.openOutput path append) with
  | .error errno => throw (.redirect path (.refused errno))
  | .ok fd =>
      match ← raise fd with
      | .error errno => throw (.redirect path (.refused errno))
      | .ok fd => return fd

/-- Opens the output of a line, if it is redirected. -/
def openTarget : Output → Attempt (Option Fd)
  | .inherited => return none
  | .emptied path => some <$> openFile path false
  | .appended path => some <$> openFile path true

/-- Makes a pipe above the standard descriptors and gives its reading and its writing end. If one
end cannot be moved there, the other is closed. -/
def openPipe : Attempt (Fd × Fd) := do
  match ← System.call .makePipe with
  | .error errno => throw (.pipe errno)
  | .ok (reading, writing) =>
      match ← raise reading with
      | .error errno =>
          System.call (.close writing)
          throw (.pipe errno)
      | .ok reading =>
          match ← raise writing with
          | .error errno =>
              System.call (.close reading)
              throw (.pipe errno)
          | .ok writing => return (reading, writing)

/-- Closes a descriptor, if there is one. -/
def release : Option Fd → Routine System.interface Unit
  | none => return ()
  | some fd => System.call (.close fd)

/-- The children that have been started for a pipeline, and the fault, if any, that kept the
segments behind them from being started. -/
structure Started where
  pids : List Pid
  fault : Option RunFault
deriving DecidableEq, Repr

/-- Starts the segments from left to right. Each pipe is made just before the segment that
writes into it, and the shell lets go of each end right after the segment that needs it. -/
def startSegments (input output : Option Fd) :
    List Command → Routine System.interface Started
  | [] => do
      release output
      release input
      return ⟨[], none⟩
  | [last] => do
      let reply ← System.call (.fork (.segment ⟨last, input, output⟩))
      release output
      release input
      match reply with
      | .error errno => return ⟨[], some (.fork errno)⟩
      | .ok pid => return ⟨[pid], none⟩
  | command :: rest => do
      match ← openPipe.run with
      | .error fault =>
          release input
          release output
          return ⟨[], some fault⟩
      | .ok (reading, writing) =>
          match ← System.call (.fork (.segment ⟨command, input, some writing⟩)) with
          | .error errno =>
              release (some writing)
              release (some reading)
              release input
              release output
              return ⟨[], some (.fork errno)⟩
          | .ok pid =>
              release (some writing)
              release input
              let later ← startSegments (some reading) output rest
              return ⟨pid :: later.pids, later.fault⟩

/-- Waits for the children that are left, where `last` is the status of the one before them and
`failure` the first failure so far. -/
def waitRemaining (last : Int) (failure : Option Errno) :
    List Pid → Routine System.interface (Except Errno Int)
  | [] =>
      match failure with
      | none => return .ok last
      | some errno => return .error errno
  | pid :: rest => do
      match ← System.waitFor pid with
      | .ok status => waitRemaining status failure rest
      | .error errno => waitRemaining last (failure.or (some errno)) rest

/-- Starts a stage, whose last segment writes to the output. If not all of its segments can be
started, those that have been are waited for. -/
def startStage (stage : Stage) (output : Option Fd) : Attempt (List Pid) := do
  let started ← startSegments none output stage.commands
  match started.fault with
  | none => return started.pids
  | some fault =>
      let _ ← waitRemaining 0 none started.pids
      throw fault

/-- Waits for every child and gives the status of the last, or the first failure. -/
def collectAll (pids : List Pid) : Attempt Int := do
  match ← waitRemaining 0 none pids with
  | .ok status => return status
  | .error errno => throw (.wait errno)

/-- Runs the stages that are left after a status. The output of the line is opened when its last
stage is reached and let through, and not before. -/
def runGated (output : Output) (status : Int) : List Stage → Attempt Int
  | [] => return status
  | stage :: rest =>
      if stage.gate.opens status then do
        let target ← if rest.isEmpty then openTarget output else pure none
        let pids ← startStage stage target
        let status ← collectAll pids
        runGated output status rest
      else runGated output status rest

end PipelineShell.Shell

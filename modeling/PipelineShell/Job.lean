import PipelineShell.System.Call

/-!
The background jobs of a shell. A job is the processes of one line; its number is the place of a
slot, counted from one, and a slot is used again once its job has been reported. Collecting never
waits, polls each process only until its status is known, and forgets the free slots at the end.
-/

namespace PipelineShell

/-- A process of a job and, once it has been collected, its status. -/
structure JobProcess where
  pid : Pid
  status : Option Int
deriving DecidableEq, Repr

/-- The processes of a background line, from left to right. -/
structure Job where
  processes : List JobProcess
  description : String
deriving DecidableEq, Repr

/-- A job all of whose processes have been collected. -/
structure FinishedJob where
  id : Nat
  description : String
  status : Int
deriving DecidableEq, Repr

/-- Background jobs that have not been reported. -/
structure JobTable where
  slots : List (Option Job)
deriving DecidableEq, Repr

/-- Asks after a process whose status is not known. One that cannot be asked after counts as
ended with status zero. -/
def JobProcess.poll (process : JobProcess) : Routine System.interface JobProcess :=
  match process.status with
  | some _ => return process
  | none => do
      match ← System.pollFor process.pid with
      | .ok status => return { process with status }
      | .error _ => return { process with status := some 0 }

namespace Job

def ofPids (pids : List Pid) (description : String) : Job :=
  ⟨pids.map fun pid => ⟨pid, none⟩, description⟩

def isFinished (job : Job) : Bool :=
  job.processes.all fun process => process.status.isSome

def finalPid? (job : Job) : Option Pid :=
  job.processes.getLast?.map JobProcess.pid

def status (job : Job) : Int :=
  (job.processes.getLast?.bind JobProcess.status).getD 0

def pollProcesses : List JobProcess → Routine System.interface (List JobProcess)
  | [] => return []
  | process :: rest => do
      let process ← process.poll
      let rest ← pollProcesses rest
      return process :: rest

def poll (job : Job) : Routine System.interface Job := do
  let processes ← pollProcesses job.processes
  return { job with processes }

end Job

namespace JobTable

def empty : JobTable :=
  ⟨[]⟩

def isEmpty (jobs : JobTable) : Bool :=
  jobs.slots.isEmpty

def get? (jobs : JobTable) (id : Nat) : Option Job :=
  match id with
  | 0 => none
  | index + 1 => (jobs.slots[index]?).join

/-- Puts a job into the first free slot, or behind all slots, and gives the place. -/
def fill (job : Job) : List (Option Job) → Nat × List (Option Job)
  | [] => (0, [some job])
  | none :: rest => (0, some job :: rest)
  | some other :: rest =>
      let (index, rest) := fill job rest
      (index + 1, some other :: rest)

/-- Adds a job of processes that have just been started, and gives its number. -/
def insert (jobs : JobTable) (pids : List Pid) (description : String) : Nat × JobTable :=
  let (index, slots) := fill (.ofPids pids description) jobs.slots
  (index + 1, ⟨slots⟩)

/-- Adds a job, which must have a process. -/
def push? (jobs : JobTable) (pids : List Pid) (description : String) : Option (Nat × JobTable) :=
  if pids.isEmpty then none else some (jobs.insert pids description)

def trim : List (Option Job) → List (Option Job)
  | [] => []
  | slot :: rest =>
      match slot, trim rest with
      | none, [] => []
      | slot, rest => slot :: rest

/-- Asks after the jobs of the slots, the first of which has the number `id`. Jobs that are done
leave their slots. -/
def reapSlots (id : Nat) :
    List (Option Job) → Routine System.interface (List FinishedJob × List (Option Job))
  | [] => return ([], [])
  | none :: rest => do
      let (finished, rest) ← reapSlots (id + 1) rest
      return (finished, none :: rest)
  | some job :: rest => do
      let job ← job.poll
      let (finished, rest) ← reapSlots (id + 1) rest
      if job.isFinished then
        return (⟨id, job.description, job.status⟩ :: finished, none :: rest)
      else
        return (finished, some job :: rest)

/-- Collects every process that has ended, and gives the jobs that are done now, by number. -/
def reap (jobs : JobTable) : Routine System.interface (List FinishedJob × JobTable) := do
  let (finished, slots) ← reapSlots 1 jobs.slots
  return (finished, ⟨trim slots⟩)

end JobTable

end PipelineShell

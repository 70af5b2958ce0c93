import PipelineShell.Host.Serve

/-!
How the processes of a host go on. Processes take turns by number, each for as long as it need
not wait; a turn in which nothing changes is the last one. The process outside the host goes on
by itself, and the others have their turns while it waits.
-/

namespace PipelineShell.Host

def goOn (host : Host) (pid : Pid) (routine : Routine interface Int) : Host :=
  host.modifyProcess pid fun process =>
    { process with activity := .running routine, progress := .none }

/-- One step of a process; the flag tells whether anything has changed. -/
def step (host : Host) (pid : Pid) : Bool × Host :=
  match (host.process? pid).map Process.activity with
  | some (.running (.finished code)) => (true, host.finish pid (.ofExitCode code))
  | some (.running (.ask request resume)) =>
      match host.serve pid request with
      | .replied reply host => (true, host.goOn pid (resume reply))
      | .waiting moved host =>
          match interruption? request, (host.signalsOf pid).pending with
          | some reply, _ :: _ => (true, host.goOn pid (resume reply))
          | _, _ => (moved, host)
      | .splits reply inChild host =>
          let (child, host) := host.addChild pid (resume inChild)
          (true, host.goOn pid (resume (reply child)))
      | .becomes routine host => (true, host.goOn pid routine)
      | .ended death host => (true, host.finish pid death)
  | _ => (false, host)

/-- Lets a process go on until it ends or has to wait, for `fuel` steps at most. The flag tells
whether anything has changed, now or before. -/
def advance (pid : Pid) : Nat → Bool → Host → Bool × Host
  | 0, moved, host => (moved, host)
  | fuel + 1, moved, host =>
      match host.step pid with
      | (true, host) => advance pid fuel true host
      | (false, host) => (moved, host)

def sweep (fuel : Nat) (host : Host) : Bool × Host :=
  (List.range host.processes.size).foldl
    (fun (moved, host) number => advance ⟨number⟩ fuel moved host) (false, host)

def settle : Nat → Host → Bool × Host
  | 0, host => (false, host)
  | fuel + 1, host =>
      match sweep (fuel + 1) host with
      | (true, host) => (true, (settle fuel host).2)
      | (false, host) => (false, host)

def patience : Nat := 1000000

def settled (host : Host) : Host :=
  (settle patience host).2

/-- Asks until there is a reply; the processes of the host have their turns meanwhile. There is
none if nothing changes any more. -/
def await (pid : Pid) (request : Call) : Nat → Host → Option (request.Reply × Host)
  | 0, _ => none
  | fuel + 1, host =>
      match host.serve pid request with
      | .replied reply host =>
          some (reply, host.setProgress pid .none)
      | .waiting moved host =>
          match settle patience host with
          | (changed, host) => if moved || changed then await pid request fuel host else none
      | .splits _ _ _ => none
      | .becomes _ _ => none
      | .ended _ _ => none

/-- Runs a routine of a process that acts from outside the host. There is no result if the
routine waits forever. -/
def run {α : Type} (pid : Pid) : Routine System.interface α → Host → Option (α × Host)
  | .finished value, host => some (value, host)
  | .ask request resume, host =>
      match await pid (.system request) patience host with
      | none => none
      | some (reply, host) => run pid (resume reply) host

def release (host : Host) (pid : Pid) : Host :=
  match (host.process? pid).map Process.activity with
  | some (.running (.ask .pause resume)) => host.goOn pid (resume ())
  | _ => host

end PipelineShell.Host

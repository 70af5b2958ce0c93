import PipelineShell.Host.Account

/-!
Opening files. A file that is written to is made if its name is free; a fifo is open at one end
only once its other end has been opened too, and its bytes are gone when neither end is held.
-/

namespace PipelineShell.Host

/-- What becomes of a request. -/
inductive Served (α : Type) where
  | replied (reply : α) (host : Host)
  /-- The process has to ask again later; the flag tells whether anything has changed. -/
  | waiting (moved : Bool) (host : Host)
  | splits (reply : Pid → α) (inChild : α) (host : Host)
  | becomes (routine : Routine interface Int) (host : Host)
  | ended (death : Death) (host : Host)

def refuse {α : Type} (host : Host) (errno : Errno) : Served (Except Errno α) :=
  .replied (.error errno) host

def carriedOut (host : Host) : Served (Except Errno Unit) :=
  .replied (.ok ()) host

def opened (host : Host) (pid : Pid) (stream : Stream) (closeOnExecute : Bool) :
    Served (Except Errno Fd) :=
  let (fd, host) := host.openStream pid stream closeOnExecute
  .replied (.ok fd) host

def refreshChannel (host : Host) (channel : Nat) : Host :=
  if host.isHeld .reading channel || host.isHeld .writing channel then host
  else host.modifyChannel channel Channel.emptied

/-- Opens one end of a fifo; the process waits if nobody holds the other end. -/
def openFifo (host : Host) (pid : Pid) (side : Side) (channel : Nat) (closeOnExecute : Bool) :
    Served (Except Errno Fd) :=
  let host := host.refreshChannel channel
  let seen := (host.channelOf channel).openings side.opposite
  let (fd, host) := host.openStream pid (.channel side channel) closeOnExecute
  let host := host.modifyChannel channel fun found => found.countOpening side
  if host.isHeld side.opposite channel then .replied (.ok fd) host
  else
    let opening := some ⟨fd, channel, seen⟩
    .waiting true (host.setProgress pid { Progress.none with opening })

def continueOpening (host : Host) (side : Side) (opening : Opening) : Served (Except Errno Fd) :=
  if host.isHeld side.opposite opening.channel
      || opening.seen < (host.channelOf opening.channel).openings side.opposite then
    .replied (.ok opening.fd) host
  else .waiting false host

def sideOf : OpenMode → Side
  | .reading => .reading
  | _ => .writing

def isReading (mode : OpenMode) : Bool :=
  mode = .reading

def openNode (host : Host) (pid : Pid) (mode : OpenMode) (closeOnExecute : Bool) (id : NodeId) :
    Served (Except Errno Fd) :=
  match host.nodeAt? id with
  | some (.regular _ _) =>
      let host := if mode = .emptied then host.setContent id ByteArray.empty else host
      host.opened pid (.file id (.ofMode mode)) closeOnExecute
  | some (.device .terminal) => host.refuse .noDevice
  | some (.device device) => host.opened pid (.device device) closeOnExecute
  | some (.fifo channel _) =>
      if mode = .both then
        let host := host.modifyChannel channel fun found =>
          (found.countOpening .reading).countOpening .writing
        host.opened pid (.bothEnds channel) closeOnExecute
      else host.openFifo pid (sideOf mode) channel closeOnExecute
  | some (.directory _ _) =>
      if isReading mode then host.opened pid (.directory id) closeOnExecute
      else host.refuse .isDirectory
  | some (.descriptor owner fd) =>
      match (host.file? owner fd).map fun (file : FileId × OpenFile) => file.2.stream with
      | some (.channel _ channel) =>
          if mode = .both then host.opened pid (.bothEnds channel) closeOnExecute
          else host.opened pid (.channel (sideOf mode) channel) closeOnExecute
      | some (.bothEnds channel) =>
          host.opened pid (.channel (sideOf mode) channel) closeOnExecute
      | some (.device device) => host.opened pid (.device device) closeOnExecute
      | _ => host.refuse .noEntry
  | _ => host.refuse .accessDenied

def openPath (host : Host) (pid : Pid) (path : Octets) (mode : OpenMode)
    (closeOnExecute : Bool) : Served (Except Errno Fd) :=
  match (host.progressOf pid).opening with
  | some opening => host.continueOpening (sideOf mode) opening
  | none =>
      let directory := host.directoryOf pid
      match mode with
      | .reading =>
          match (host.treeOf pid).resolve directory path with
          | .error errno => host.refuse errno
          | .ok id => host.openNode pid mode closeOnExecute id
      | .fresh =>
          match (host.treeOf pid).freshName directory path with
          | .error errno => host.refuse errno
          | .ok (directory, name) =>
              let (id, tree) := host.tree.add directory name (.regular ByteArray.empty false)
              openNode { host with tree } pid mode closeOnExecute id
      | _ =>
          match (host.treeOf pid).place directory path with
          | .error errno => host.refuse errno
          | .ok (.fresh directory name) =>
              let (id, tree) := host.tree.add directory name (.regular ByteArray.empty false)
              openNode { host with tree } pid mode closeOnExecute id
          | .ok (.existing id) => host.openNode pid mode closeOnExecute id

def makePipe (host : Host) (pid : Pid) : Served (Except Errno (Fd × Fd)) :=
  let (channel, host) := host.addChannel
  let (reading, host) := host.openStream pid (.channel .reading channel) true
  let (writing, host) := host.openStream pid (.channel .writing channel) true
  .replied (.ok (reading, writing)) host

end PipelineShell.Host

import PipelineShell.Host.Call

/-!
The state of a host: its tree, the open files, the channels behind pipes and fifos, and the
processes. An end of a channel is open as long as some live process has a descriptor for it.
-/

namespace PipelineShell.Host

abbrev FileId := Nat

/-- The ends of a channel. -/
inductive Side where
  | reading
  | writing
deriving DecidableEq, Repr

def Side.opposite : Side → Side
  | .reading => .writing
  | .writing => .reading

/-- What an open regular file can be used for. -/
structure Access where
  read : Bool
  write : Bool
  append : Bool
deriving DecidableEq, Repr

def Access.ofMode : OpenMode → Access
  | .reading => ⟨true, false, false⟩
  | .emptied => ⟨false, true, false⟩
  | .appending => ⟨false, true, true⟩
  | .both => ⟨true, true, false⟩
  | .fresh => ⟨false, true, false⟩

/-- What an open file leads to. -/
inductive Stream where
  | file (node : NodeId) (access : Access)
  | directory (node : NodeId)
  | device (device : Device)
  | channel (side : Side) (channel : Nat)
  | bothEnds (channel : Nat)
deriving DecidableEq, Repr

/-- An open file. Every descriptor copied from another shares its offset. -/
structure OpenFile where
  stream : Stream
  offset : Nat
deriving Repr

/-- The bytes on their way through a pipe or a fifo, and how often each end has been opened. -/
structure Channel where
  content : ByteArray
  consumed : Nat
  readings : Nat
  writings : Nat

def Channel.capacity : Nat := 65536

def Channel.empty : Channel :=
  ⟨ByteArray.empty, 0, 0, 0⟩

def Channel.size (channel : Channel) : Nat :=
  channel.content.size - channel.consumed

def Channel.front (channel : Channel) (size : Nat) : ByteArray :=
  channel.content.extract channel.consumed (channel.consumed + size)

def Channel.emptied (channel : Channel) : Channel :=
  { channel with content := ByteArray.empty, consumed := 0 }

def Channel.advance (channel : Channel) (size : Nat) : Channel :=
  if channel.size ≤ size then channel.emptied
  else { channel with consumed := channel.consumed + size }

def Channel.append (channel : Channel) (bytes : ByteArray) : Channel :=
  if channel.consumed < Channel.capacity then { channel with content := channel.content ++ bytes }
  else
    let content := channel.front channel.size ++ bytes
    { channel with content, consumed := 0 }

def Channel.openings (channel : Channel) : Side → Nat
  | .reading => channel.readings
  | .writing => channel.writings

def Channel.countOpening (channel : Channel) : Side → Channel
  | .reading => { channel with readings := channel.readings + 1 }
  | .writing => { channel with writings := channel.writings + 1 }

/-- What a process is about. -/
inductive Activity where
  | running (routine : Routine interface Int)
  | outside
  | ended (death : Death)

/-- A fifo that waits for its other end: the descriptor it will have, its channel, and how often
the other end had been opened when the waiting began. -/
structure Opening where
  fd : Fd
  channel : Nat
  seen : Nat
deriving Repr

/-- How far the request that a process is waiting on has come. -/
structure Progress where
  written : Nat
  opening : Option Opening

def Progress.none : Progress :=
  ⟨0, .none⟩

/-- What a process has decided about signals, and those that have come. -/
structure Signals where
  ignored : List Nat
  caught : List Nat
  pending : List Nat

def fileSizeSignal : Nat := 25

def brokenPipeSignal : Nat := 13

/-- The signals of a process that has decided nothing. Broken pipes are reported to the writer
alone. -/
def Signals.standard : Signals :=
  ⟨[brokenPipeSignal], [], []⟩

def Signals.disposition (signals : Signals) (signal : Nat) : Disposition :=
  if signals.ignored.contains signal then .ignored
  else if signals.caught.contains signal then .caught else .standard

def Signals.dispose (signals : Signals) (signal : Nat) (disposition : Disposition) : Signals :=
  let ignored := signals.ignored.filter (· != signal)
  let caught := signals.caught.filter (· != signal)
  match disposition with
  | .standard => { signals with ignored, caught }
  | .ignored =>
      let pending := signals.pending.filter (· != signal)
      ⟨signal :: ignored, caught, pending⟩
  | .caught => { signals with ignored, caught := signal :: caught }

def Signals.inherited (signals : Signals) : Signals :=
  { signals with pending := [] }

def Signals.afterExecute (signals : Signals) : Signals :=
  ⟨signals.ignored, [], []⟩

/-- What a process keeps from its parent. -/
structure Surroundings where
  program : Octets
  arguments : List Octets
  directory : NodeId
  descriptors : Descriptors FileId
  environment : Environment
  mask : Nat
  limits : Limits
  signals : Signals

/-- A process. -/
structure Process where
  parent : Pid
  surroundings : Surroundings
  activity : Activity
  progress : Progress

end Host

open Host in
/-- A host. -/
structure Host where
  tree : Tree
  files : Array OpenFile
  channels : Array Channel
  /-- The processes by number; a number is free once its process has been collected. -/
  processes : Array (Option Process)
  prompts : String

namespace Host

def process? (host : Host) (pid : Pid) : Option Process :=
  (host.processes[pid.number]?).join

def putProcess (host : Host) (pid : Pid) (process : Process) : Host :=
  { host with processes := host.processes.setIfInBounds pid.number (some process) }

def modifyProcess (host : Host) (pid : Pid) (change : Process → Process) : Host :=
  match host.process? pid with
  | none => host
  | some process => host.putProcess pid (change process)

def addProcess (host : Host) (process : Process) : Pid × Host :=
  (⟨host.processes.size⟩, { host with processes := host.processes.push (some process) })

def removeProcess (host : Host) (pid : Pid) : Host :=
  { host with processes := host.processes.setIfInBounds pid.number none }

def Surroundings.nowhere : Surroundings :=
  ⟨[], [], Tree.root, .empty, [], 0, [], .standard⟩

def surroundingsOf (host : Host) (pid : Pid) : Surroundings :=
  ((host.process? pid).map Process.surroundings).getD .nowhere

def changeSurroundings (host : Host) (pid : Pid) (change : Surroundings → Surroundings) : Host :=
  host.modifyProcess pid fun process => { process with surroundings := change process.surroundings }

def directoryOf (host : Host) (pid : Pid) : NodeId :=
  (host.surroundingsOf pid).directory

def descriptorsOf (host : Host) (pid : Pid) : Descriptors FileId :=
  (host.surroundingsOf pid).descriptors

def setDescriptors (host : Host) (pid : Pid) (descriptors : Descriptors FileId) : Host :=
  host.changeSurroundings pid fun surroundings => { surroundings with descriptors }

def signalsOf (host : Host) (pid : Pid) : Signals :=
  (host.surroundingsOf pid).signals

def setSignals (host : Host) (pid : Pid) (signals : Signals) : Host :=
  host.changeSurroundings pid fun surroundings => { surroundings with signals }

def setProgress (host : Host) (pid : Pid) (progress : Progress) : Host :=
  host.modifyProcess pid fun process => { process with progress }

def progressOf (host : Host) (pid : Pid) : Progress :=
  ((host.process? pid).map Process.progress).getD .none

/-- Ends a process; its descriptors go with it. -/
def finish (host : Host) (pid : Pid) (death : Death) : Host :=
  host.modifyProcess pid fun process =>
    { process with
      activity := .ended death
      surroundings := { process.surroundings with descriptors := .empty } }

def file? (host : Host) (pid : Pid) (fd : Fd) : Option (FileId × OpenFile) := do
  let descriptor ← (host.descriptorsOf pid).lookup fd
  let file ← host.files[descriptor.file]?
  return (descriptor.file, file)

def anyHeld (host : Host) (condition : Stream → Bool) : Bool :=
  host.processes.any fun process =>
    match process with
    | none => false
    | some process => process.surroundings.descriptors.files.any fun id =>
        match host.files[id]? with
        | none => false
        | some file => condition file.stream

def isHeld (host : Host) (side : Side) (channel : Nat) : Bool :=
  host.anyHeld fun stream =>
    match stream with
    | .channel found other => found == side && other == channel
    | .bothEnds other => other == channel
    | _ => false

def isWritten (host : Host) (node : NodeId) : Bool :=
  host.anyHeld fun stream =>
    match stream with
    | .file other access => other == node && access.write
    | _ => false

def openStream (host : Host) (pid : Pid) (stream : Stream) (closeOnExecute : Bool) : Fd × Host :=
  let id := host.files.size
  let host := { host with files := host.files.push ⟨stream, 0⟩ }
  let (fd, descriptors) := (host.descriptorsOf pid).add ⟨id, closeOnExecute⟩
  (fd, host.setDescriptors pid descriptors)

def modifyChannel (host : Host) (channel : Nat) (change : Channel → Channel) : Host :=
  match host.channels[channel]? with
  | none => host
  | some found => { host with channels := host.channels.setIfInBounds channel (change found) }

def channelOf (host : Host) (channel : Nat) : Channel :=
  host.channels[channel]?.getD .empty

def addChannel (host : Host) : Nat × Host :=
  (host.channels.size, { host with channels := host.channels.push .empty })

def addFifo (host : Host) (directory : NodeId) (name : Octets) (executable : Bool) : Host :=
  let (channel, host) := host.addChannel
  { host with tree := (host.tree.add directory name (.fifo channel executable)).2 }

def setContent (host : Host) (node : NodeId) (content : ByteArray) : Host :=
  match host.tree.node? node with
  | some (.regular _ executable) =>
      { host with tree := host.tree.put node (.regular content executable) }
  | _ => host

def setOffset (host : Host) (id : FileId) (offset : Nat) : Host :=
  match host.files[id]? with
  | none => host
  | some file => { host with files := host.files.setIfInBounds id { file with offset } }

end Host

end PipelineShell

import PipelineShell.Host.Transfer
import PipelineShell.Shell.Child
import PipelineShell.Tool.Program

/-!
How a host answers each request of a process. A request that has to wait leaves what it has
achieved in the progress of the process and is asked again.
-/

namespace PipelineShell.Host

/-! ### Descriptors -/

def changeDescriptors (host : Host) (pid : Pid)
    (change : Descriptors FileId → Option (Descriptors FileId)) : Served (Except Errno Unit) :=
  match change (host.descriptorsOf pid) with
  | none => host.refuse .badDescriptor
  | some descriptors => (host.setDescriptors pid descriptors).carriedOut

def duplicateAbove (host : Host) (pid : Pid) (fd least : Fd) : Served (Except Errno Fd) :=
  match (host.descriptorsOf pid).duplicateAbove fd least with
  | none => host.refuse .badDescriptor
  | some (copy, descriptors) => .replied (.ok copy) (host.setDescriptors pid descriptors)

/-! ### Processes -/

def addChild (host : Host) (parent : Pid) (routine : Routine interface Int) : Pid × Host :=
  let surroundings := host.surroundingsOf parent
  host.addProcess ⟨parent, { surroundings with signals := surroundings.signals.inherited },
    .running routine, .none⟩

def fork (host : Host) (pid : Pid) (child : Child) : Served (Except Errno Pid) :=
  let (child, host) := host.addChild pid (ofShell child.routine)
  .replied (.ok child) host

def Surroundings.afterExecute (surroundings : Surroundings) (image : Image)
    (environment : Environment) : Surroundings :=
  { surroundings with
    program := image.program
    arguments := image.arguments
    descriptors := surroundings.descriptors.afterExecute
    signals := surroundings.signals.afterExecute
    environment }

def becomeImage (host : Host) (pid : Pid) (environment : Environment) :
    Except Errno Image → Served Errno
  | .error errno => .replied errno host
  | .ok image =>
      .becomes image.routine (host.changeSurroundings pid fun surroundings =>
        surroundings.afterExecute image environment)

def execute (host : Host) (pid : Pid) (command : Command) : Served Errno :=
  host.becomeImage pid (host.surroundingsOf pid).environment
    (Image.ofProgram (host.treeOf pid) host.isWritten (host.directoryOf pid)
      (Octets.ofText command.program) (command.arguments.map Octets.ofText))

def become (host : Host) (pid : Pid) (path : Octets) (arguments : List Octets)
    (environment : Environment) : Served Errno :=
  host.becomeImage pid environment
    (Image.ofPath (host.treeOf pid) host.isWritten (host.directoryOf pid) Image.programLimit path
      arguments)

def childDeath (host : Host) (pid child : Pid) : Except LastingErrno (Option Death) :=
  match host.process? child with
  | none => .error ⟨.noChild, by decide⟩
  | some process =>
      if process.parent != pid then .error ⟨.noChild, by decide⟩
      else match process.activity with
        | .ended death => .ok (some death)
        | _ => .ok none

def wait (host : Host) (pid child : Pid) : Served (Except LastingErrno Death) :=
  match host.childDeath pid child with
  | .error errno => .replied (.error errno) host
  | .ok none => .waiting false host
  | .ok (some death) => .replied (.ok death) (host.removeProcess child)

def poll (host : Host) (pid child : Pid) : Served (Except LastingErrno (Option Death)) :=
  match host.childDeath pid child with
  | .error errno => .replied (.error errno) host
  | .ok none => .replied (.ok none) host
  | .ok (some death) => .replied (.ok (some death)) (host.removeProcess child)

def childDeaths (host : Host) (pid : Pid) : List (Pid × Option Death) :=
  (List.range host.processes.size).filterMap fun number =>
    match host.childDeath pid ⟨number⟩ with
    | .error _ => none
    | .ok death => some (⟨number⟩, death)

def collect (host : Host) (pid : Pid) (block : Bool) :
    Served (Except Errno (Option (Pid × Death))) :=
  let children := host.childDeaths pid
  match children.findSome? fun (child, death) => death.map fun death => (child, death) with
  | some (child, death) => .replied (.ok (some (child, death))) (host.removeProcess child)
  | none =>
      if children.isEmpty then host.refuse .noChild
      else if block then .waiting false host
      else .replied (.ok none) host

def harmlessSignals : List Nat :=
  [0, 17, 18, 23, 28]

def stoppingSignals : List Nat :=
  [19, 20, 21, 22]

def absoluteSignals : List Nat :=
  [9, 19]

def lastSignal : Nat := 64

def sendSignal (host : Host) (pid target : Pid) (signal : Nat) : Served (Except Errno Unit) :=
  if lastSignal < signal then host.refuse .invalidArgument
  else match host.process? target with
    | none => host.refuse .noProcess
    | some process =>
        let signals := process.surroundings.signals
        let disposition :=
          if absoluteSignals.contains signal then .standard else signals.disposition signal
        match disposition with
        | .ignored => host.carriedOut
        | .caught =>
            let pending := if signals.pending.contains signal then signals.pending
              else signals.pending ++ [signal]
            (host.setSignals target { signals with pending }).carriedOut
        | .standard =>
            if harmlessSignals.contains signal then host.carriedOut
            else if stoppingSignals.contains signal then .waiting false host
            else if target = pid then .ended (.killed signal) host
            else match process.activity with
              | .running _ => (host.finish target (.killed signal)).carriedOut
              | .outside => host.refuse .notPermitted
              | .ended _ => host.carriedOut

def setLimit (host : Host) (pid : Pid) (resource : Resource) (limit : Limit) :
    Served (Except Errno Unit) :=
  let limits := (host.surroundingsOf pid).limits
  if !isWithin limit.soft limit.hard then host.refuse .invalidArgument
  else if !isWithin limit.hard (limits.of resource).hard then host.refuse .notPermitted
  else
    (host.changeSurroundings pid fun surroundings =>
      { surroundings with limits := limits.put resource limit }).carriedOut

def takeSignals (host : Host) (pid : Pid) : Served (List Nat) :=
  let signals := host.signalsOf pid
  .replied signals.pending (host.setSignals pid { signals with pending := [] })

def parentOf (host : Host) (pid : Pid) : Pid :=
  ((host.process? pid).map Process.parent).getD ⟨0⟩

/-! ### Directories -/

def changeDirectory (host : Host) (pid : Pid) (path : Octets) : Served (Except Errno Unit) :=
  match (host.treeOf pid).resolve (host.directoryOf pid) path with
  | .error errno => host.refuse errno
  | .ok node =>
      match host.nodeAt? node with
      | some (.directory _ _) =>
          (host.changeSurroundings pid fun surroundings =>
            { surroundings with directory := node }).carriedOut
      | _ => host.refuse .notDirectory

def workingDirectory (host : Host) (pid : Pid) : Except Errno Octets :=
  match (host.treeOf pid).names? (host.directoryOf pid) with
  | none => .error .noEntry
  | some [] => .ok ['/']
  | some names => .ok (names.flatMap fun name => '/' :: name)

/-- The names in a directory. Among its own descriptors a process sees the one it looks with. -/
def namesIn (host : Host) (pid : Pid) (path : Octets) : Except Errno (List Octets) := do
  let node ← (host.treeOf pid).resolve (host.directoryOf pid) path
  match host.nodeAt? node with
  | some (.directory _ entries) =>
      let own := [["proc".toList, Octets.ofNumber pid.number, "fd".toList]].map NodeId.account
      let opened := if own.contains node
        then [Octets.ofNumber ((host.descriptorsOf pid).lowestFree 0)] else []
      .ok (entries.map Prod.fst ++ opened)
  | _ => .error .notDirectory

def makeFifo (host : Host) (pid : Pid) (path : Octets) (executable : Bool) :
    Served (Except Errno Unit) :=
  match (host.treeOf pid).freshName (host.directoryOf pid) path with
  | .error .accessDenied => host.refuse .notPermitted
  | .error errno => host.refuse errno
  | .ok (directory, name) => (host.addFifo directory name executable).carriedOut

def removeDirectory (host : Host) (pid : Pid) (path : Octets) : Served (Except Errno Unit) :=
  let tree := host.treeOf pid
  let mounted := fun node => (tree.names? node).any mountPoints.contains
  match tree.removable mounted (host.directoryOf pid) path with
  | .error errno => host.refuse errno
  | .ok (directory, name) => carriedOut { host with tree := host.tree.detach directory name }

/-! ### Watching -/

def hasChanged (host : Host) (pid : Pid) (fd : Fd) : Bool :=
  match host.file? pid fd with
  | none => false
  | some (_, file) =>
      match file.stream with
      | .file node _ => (host.content node).size != file.offset
      | .channel .reading channel => (host.channelOf channel).size != 0
      | .bothEnds channel => (host.channelOf channel).size != 0
      | .device device => (device.bytes 1).size != 0
      | _ => false

def isUnread (host : Host) (pid : Pid) (fd : Fd) : Bool :=
  match host.file? pid fd with
  | some (_, ⟨.channel .writing channel, _⟩) => !host.isHeld .reading channel
  | _ => false

def watch (host : Host) (pid : Pid) (fds : List Fd) (output : Fd) (ending : Option Pid) :
    Served Watched :=
  if fds.any (host.hasChanged pid) then .replied .changed host
  else if host.isUnread pid output then .replied .unread host
  else if ending.any fun process => (host.process? process).isNone then .replied .ended host
  else .waiting false host

/-! ### All requests -/

def readSystem (host : Host) (pid : Pid) (fd : Fd) (size : Nat) :
    Served (Except Errno (List UInt8)) :=
  match host.read pid fd size with
  | .replied reply host => .replied (reply.map fun content => content.data.toList) host
  | .waiting moved host => .waiting moved host
  | .splits reply inChild host =>
      .splits (fun child => (reply child).map fun content => content.data.toList)
        (inChild.map fun content => content.data.toList) host
  | .becomes routine host => .becomes routine host
  | .ended death host => .ended death host

def panicCode : UInt8 := 101

/-- Writes a line of complaint. A process that cannot write it panics, unless it has no standard
error at all. -/
def complain (host : Host) (pid : Pid) (text : String) : Served Unit :=
  match host.write pid Fd.error (text ++ "\n").toUTF8 with
  | .replied (.ok ()) host => .replied () host
  | .replied (.error .badDescriptor) host => .replied () host
  | .replied (.error _) host => .ended (.exited panicCode) host
  | .waiting moved host => .waiting moved host
  | .splits _ _ host => .splits (fun _ => ()) () host
  | .becomes routine host => .becomes routine host
  | .ended death host => .ended death host

def outputMode (append : Bool) : OpenMode :=
  if append then .appending else .emptied

def valueOf (host : Host) (pid : Pid) (name : String) : Option (List UInt8) :=
  ((host.surroundingsOf pid).environment.lookup (Octets.ofText name)).map Octets.toBytes

def serveSystem (host : Host) (pid : Pid) :
    (request : System.Call) → Served request.Reply
  | .openOutput path append => host.openPath pid (Octets.ofText path) (outputMode append) true
  | .makePipe => host.makePipe pid
  | .duplicateAbove fd least => host.duplicateAbove pid fd least
  | .duplicateOnto fd target =>
      host.changeDescriptors pid fun table => table.duplicateOnto fd target
  | .keepOnExecute fd => host.changeDescriptors pid fun table => table.keepOnExecute fd
  | .close fd => .replied () (host.setDescriptors pid ((host.descriptorsOf pid).close fd))
  | .write fd text => host.write pid fd text.toUTF8
  | .complain text => host.complain pid text
  | .read fd size => host.readSystem pid fd size
  | .fork child => host.fork pid child
  | .execute command => host.execute pid command
  | .wait child => host.wait pid child
  | .poll child => host.poll pid child
  | .changeDirectory path => host.changeDirectory pid (Octets.ofText path)
  | .environment name => .replied (host.valueOf pid name) host
  | .showPrompt prompt => .replied () { host with prompts := host.prompts ++ prompt }

def serve (host : Host) (pid : Pid) : (request : Call) → Served request.Reply
  | .system request => host.serveSystem pid request
  | .openFile path mode => host.openPath pid path mode false
  | .read fd size => host.read pid fd size
  | .emit fd content => host.write pid fd content
  | .seek fd offset => host.seek pid fd offset
  | .status fd => .replied (host.status pid fd) host
  | .lookAt path follow => .replied (host.lookAt pid path follow) host
  | .names path => .replied (host.namesIn pid path) host
  | .workingDirectory => .replied (host.workingDirectory pid) host
  | .makeFifo path executable => host.makeFifo pid path executable
  | .removeDirectory path => host.removeDirectory pid path
  | .watch fds output ending => host.watch pid fds output ending
  | .self => .replied pid host
  | .parent => .replied (host.parentOf pid) host
  | .ownVariables => .replied (host.surroundingsOf pid).environment host
  | .signal target signal => host.sendSignal pid target signal
  | .disposition signal => .replied ((host.signalsOf pid).disposition signal) host
  | .dispose signal disposition =>
      .replied () (host.setSignals pid ((host.signalsOf pid).dispose signal disposition))
  | .signals => host.takeSignals pid
  | .split => .splits some none host
  | .become path arguments environment => host.become pid path arguments environment
  | .collect block => host.collect pid block
  | .mask => .replied (host.surroundingsOf pid).mask host
  | .setMask mask =>
      .replied () (host.changeSurroundings pid fun surroundings => { surroundings with mask })
  | .limit resource => .replied ((host.surroundingsOf pid).limits.of resource) host
  | .setLimit resource limit => host.setLimit pid resource limit
  | .die death => .ended death host
  | .pause => .waiting false host

def interruption? : (request : Call) → Option request.Reply
  | .read _ _ => some (.error .interrupted)
  | .openFile _ _ => some (.error .interrupted)
  | .collect _ => some (.error .interrupted)
  | _ => none

end PipelineShell.Host

import PipelineShell.Host.Opening

/-!
Reading and writing. A channel gives its bytes to whoever reads first and is at its end once
nobody holds its writing end; it takes bytes up to its capacity as long as somebody holds its
reading end.
-/

namespace PipelineShell.Host

/-- Reads what a channel holds; the process waits if that is nothing and may still change. -/
def readChannel (host : Host) (channel size : Nat) : Served (Except Errno ByteArray) :=
  let found := host.channelOf channel
  if size != 0 && found.size = 0 && host.isHeld .writing channel then .waiting false host
  else
    .replied (.ok (found.front size)) (host.modifyChannel channel fun found => found.advance size)

def Device.bytes (device : Device) (size : Nat) : ByteArray :=
  match device with
  | .null => ByteArray.empty
  | .terminal => ByteArray.empty
  | .full => ⟨Array.replicate size 0⟩
  | .zero => ⟨Array.replicate size 0⟩
  | .random => ⟨Array.ofFn fun index : Fin size => UInt8.ofNat (index * 181 + 71)⟩

def read (host : Host) (pid : Pid) (fd : Fd) (size : Nat) : Served (Except Errno ByteArray) :=
  match host.file? pid fd with
  | none => host.refuse .badDescriptor
  | some (id, file) =>
      match file.stream with
      | .file node access =>
          if access.read then
            let content := host.content node
            let bytes := content.extract file.offset (file.offset + size)
            .replied (.ok bytes) (host.setOffset id (file.offset + bytes.size))
          else host.refuse .badDescriptor
      | .directory _ => host.refuse .isDirectory
      | .device device => .replied (.ok (device.bytes size)) host
      | .channel .reading channel => host.readChannel channel size
      | .bothEnds channel => host.readChannel channel size
      | .channel .writing _ => host.refuse .badDescriptor

/-- The content with bytes put over it from an offset on. A gap is filled with zeros. -/
def overwrite (before : ByteArray) (offset : Nat) (bytes : ByteArray) : ByteArray :=
  if before.size = offset then before ++ bytes
  else
    let gap : ByteArray := ⟨Array.replicate (offset - before.size) 0⟩
    before.extract 0 offset ++ gap ++ bytes ++ before.extract (offset + bytes.size) before.size

def writeChannel (host : Host) (pid : Pid) (channel : Nat) (content : ByteArray) :
    Served (Except Errno Unit) :=
  if host.isHeld .reading channel then
    let progress := host.progressOf pid
    let left := content.extract progress.written content.size
    let room := Channel.capacity - (host.channelOf channel).size
    let host := host.modifyChannel channel fun found => found.append (left.extract 0 room)
    if left.size ≤ room then host.carriedOut
    else
      let written := progress.written + room
      .waiting (room != 0) (host.setProgress pid { progress with written })
  else host.refuse .brokenPipe

/-- Refuses to make a file longer than it may be; a process that has decided nothing about that
is killed. -/
def refuseSize (host : Host) (pid : Pid) : Served (Except Errno Unit) :=
  let signals := host.signalsOf pid
  match signals.disposition fileSizeSignal with
  | .standard => .ended (.killed fileSizeSignal) host
  | .ignored => host.refuse .fileTooLarge
  | .caught =>
      let pending := if signals.pending.contains fileSizeSignal then signals.pending
        else signals.pending ++ [fileSizeSignal]
      refuse (host.setSignals pid { signals with pending }) .fileTooLarge

def writeFile (host : Host) (pid : Pid) (id : FileId) (offset : Nat) (node : NodeId)
    (append : Bool) (content : ByteArray) : Served (Except Errno Unit) :=
  let before := host.content node
  let offset := if append then before.size else offset
  let limit := ((host.surroundingsOf pid).limits.of .fileSize).soft.getD (offset + content.size)
  let fitting := content.extract 0 (limit - offset)
  let host :=
    if fitting.size = 0 then host
    else (host.setContent node (overwrite before offset fitting)).setOffset id
      (offset + fitting.size)
  if fitting.size = content.size then host.carriedOut else host.refuseSize pid

def write (host : Host) (pid : Pid) (fd : Fd) (content : ByteArray) :
    Served (Except Errno Unit) :=
  match host.file? pid fd with
  | none => host.refuse .badDescriptor
  | some (id, file) =>
      match file.stream with
      | .file node access =>
          if access.write then
            if node.isAccount then host.refuse .invalidArgument
            else if content.size = 0 then host.carriedOut
            else host.writeFile pid id file.offset node access.append content
          else host.refuse .badDescriptor
      | .directory _ => host.refuse .badDescriptor
      | .device .full => if content.size = 0 then host.carriedOut else host.refuse .noSpace
      | .device _ => host.carriedOut
      | .channel .writing channel => host.writeChannel pid channel content
      | .bothEnds channel => host.writeChannel pid channel content
      | .channel .reading _ => host.refuse .badDescriptor

def seek (host : Host) (pid : Pid) (fd : Fd) (offset : Nat) : Served (Except Errno Unit) :=
  match host.file? pid fd with
  | none => host.refuse .badDescriptor
  | some (id, file) =>
      match file.stream with
      | .file _ _ => (host.setOffset id offset).carriedOut
      | .directory _ => host.carriedOut
      | .device _ => host.carriedOut
      | .channel _ _ => host.refuse .illegalSeek
      | .bothEnds _ => host.refuse .illegalSeek

def Stream.kind : Stream → FileKind
  | .file _ _ => .regular
  | .directory _ => .directory
  | .device _ => .device
  | .channel _ _ => .fifo
  | .bothEnds _ => .fifo

def Stream.node? : Stream → Option NodeId
  | .file node _ => some node
  | .directory node => some node
  | _ => none

/-- What is known of a file of a kind. Directories are as long as a block, and other files than
regular ones are empty. -/
def fileStatus (host : Host) (kind : FileKind) (node : Option NodeId) (executable : Bool) :
    FileStatus :=
  let names := if kind = .directory then node.bind host.tree.names? else none
  let size := match kind, node with
    | .regular, some id => if id.isAccount then 0 else (host.content id).size
    | .directory, some id => if id.isAccount then 0 else 4096
    | _, _ => 0
  let within := fun (places : List (List Octets)) => names.any places.contains
  let old := match node with
    | some (.stored number) => number < standardSize && !within [namesOf "/tmp", homeNames]
    | _ => false
  { kind, node, size, executable
    sticky := within stickyDirectories
    group := within groupDirectories
    old }

/-- What is known of a file at a node. What leads elsewhere is a link as long as it is not
followed. -/
def nodeStatus (host : Host) (follow : Bool) (id : NodeId) : Except Errno FileStatus :=
  match host.nodeAt? id with
  | some (.regular _ executable) => .ok (host.fileStatus .regular (some id) executable)
  | some (.directory _ _) => .ok (host.fileStatus .directory (some id) true)
  | some (.link target) =>
      .ok { host.fileStatus .link (some id) true with size := target.length }
  | some (.portal _) => .ok { host.fileStatus .link (some id) true with size := 64 }
  | some (.fifo _ executable) => .ok (host.fileStatus .fifo (some id) executable)
  | some (.device _) => .ok (host.fileStatus .device (some id) false)
  | some (.tool _) => .ok { host.fileStatus .regular (some id) true with size := 65536 }
  | some (.descriptor owner fd) =>
      if follow then
        match host.file? owner fd with
        | none => .error .noEntry
        | some (_, file) => .ok (host.fileStatus file.stream.kind none false)
      else .ok { host.fileStatus .link (some id) true with size := 64 }
  | none => .error .noEntry

def status (host : Host) (pid : Pid) (fd : Fd) : Except Errno OpenStatus :=
  match host.file? pid fd with
  | none => .error .badDescriptor
  | some (_, file) =>
      let stream := file.stream
      let append := match stream with
        | .file _ access => access.append
        | _ => false
      .ok ⟨host.fileStatus stream.kind stream.node? (stream.kind = .directory), file.offset,
        append⟩

def lookAt (host : Host) (pid : Pid) (path : Octets) (follow : Bool) :
    Except Errno FileStatus := do
  let directory := host.directoryOf pid
  if follow then host.nodeStatus true (← (host.treeOf pid).resolve directory path)
  else host.nodeStatus false (← (host.treeOf pid).resolveEntry directory path)

end PipelineShell.Host

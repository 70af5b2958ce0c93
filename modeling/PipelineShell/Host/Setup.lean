import PipelineShell.Host.Schedule
import PipelineShell.Shell.Basic

/-!
A host as a shell finds it: the usual directories, the tools, an environment, and a directory of
the shell's own to start in. What the shell and its children print goes to files that stand in no
directory, so that it can be looked at afterwards.
-/

namespace PipelineShell.Host

/-- A file of the directory that a shell starts in, before or after it has run. -/
inductive Fixture where
  | directory
  | link (target : Octets)
  | fifo
  | regular (content : ByteArray) (executable : Bool)

def shellPid : Pid :=
  ⟨1⟩

def homeNode (tree : Tree) : NodeId :=
  (tree.makeDirectories Tree.linkLimit Tree.root homeNames).1

def standardEnvironment (home : Option (List UInt8)) : Environment :=
  [("PATH".toList, "/usr/bin:/bin".toList), ("LC_ALL".toList, "C".toList)]
    ++ (home.map fun value => ("HOME".toList, Octets.ofBytes value)).toList

def standardMask : Nat := 18

def install (host : Host) (path : Octets) (fixture : Fixture) : Host :=
  let base := homeNode host.tree
  let names := Tree.nonemptyNames path
  match fixture with
  | .directory => { host with tree := host.tree.plant base names (.directory base []) }
  | .link target => { host with tree := host.tree.plant base names (.link target) }
  | .regular content executable =>
      { host with tree := host.tree.plant base names (.regular content executable) }
  | .fifo =>
      let (channel, host) := host.addChannel
      { host with tree := host.tree.plant base names (.fifo channel false) }

def connect (host : Host) (pid : Pid) (fd : Fd) (stream : Stream) : Host :=
  let id := host.files.size
  let host := { host with files := host.files.push ⟨stream, 0⟩ }
  host.setDescriptors pid ((host.descriptorsOf pid).set fd ⟨id, false⟩)

/-- Where what is printed goes. -/
structure Capture where
  output : NodeId
  error : NodeId

def capture (host : Host) : Capture × Host :=
  let (output, tree) := host.tree.allocate (.regular ByteArray.empty false)
  let (error, tree) := tree.allocate (.regular ByteArray.empty false)
  let host := connect { host with tree } shellPid Fd.output (.file output (.ofMode .appending))
  (⟨output, error⟩, host.connect shellPid Fd.error (.file error (.ofMode .appending)))

def provideInput (host : Host) (content : ByteArray) : Host :=
  let (node, tree) := host.tree.allocate (.regular content false)
  connect { host with tree } shellPid Fd.input (.file node (.ofMode .reading))

/-- A host with files in the directory that the shell starts in. The shell reads nothing and
prints to nowhere. -/
def new (files : List (Octets × Fixture)) (home : Option (List UInt8)) : Host :=
  let tree := standardTree
  let surroundings : Surroundings :=
    ⟨"pish".toList, ["pish".toList], homeNode tree, .empty, standardEnvironment home,
      standardMask, [], .standard⟩
  let shell : Process := ⟨⟨0⟩, surroundings, .outside, .none⟩
  let host : Host := ⟨tree, #[], #[], #[none, some shell], ""⟩
  let host := [Fd.input, Fd.output, Fd.error].foldl (fun host fd =>
    host.connect shellPid fd (.device .null)) host
  let ordered := files.mergeSort fun one other => Octets.isAtMost one.1 other.1
  ordered.foldl (fun host (path, fixture) => host.install path fixture) host

def childStatus (host : Host) (child : Pid) : Option (Except Errno Int × Host) :=
  host.run shellPid (System.waitFor child)

def closeAll (host : Host) (fds : List Fd) : List (Fd × Option (Descriptor FileId)) × Host :=
  let table := host.descriptorsOf shellPid
  (fds.map fun fd => (fd, table.lookup fd),
    host.setDescriptors shellPid (fds.foldl Descriptors.close table))

def reopenAll (host : Host) (closed : List (Fd × Option (Descriptor FileId))) : Host :=
  host.setDescriptors shellPid (closed.foldl (fun table (fd, content) =>
    match content with
    | none => table
    | some descriptor => table.set fd descriptor) (host.descriptorsOf shellPid))

/-! ### Looking at a host -/

/-- What stands at a node. Devices and tools are no files of a user. -/
def fixture? (host : Host) (node : NodeId) : Option Fixture :=
  match host.tree.node? node with
  | some (.directory _ _) => some .directory
  | some (.regular content executable) => some (.regular content executable)
  | some (.link target) => some (.link target)
  | some (.fifo _ _) => some .fifo
  | _ => none

/-- The files below a directory, with their paths. `depth` bounds how far down the listing goes. -/
def listBelow (host : Host) (above : Octets) : Nat → NodeId → List (Octets × Fixture)
  | 0, _ => []
  | depth + 1, directory =>
      (host.tree.entries directory).flatMap fun (name, node) =>
        match host.fixture? node with
        | none => []
        | some fixture =>
            (above ++ name, fixture) :: host.listBelow (above ++ name ++ ['/']) depth node

def listing (host : Host) : List (Octets × Fixture) :=
  host.listBelow [] host.tree.nodes.size (homeNode host.tree)

/-- What a path stands for, seen from the directory that the shell started in. A link at its end
is not followed. -/
def look (host : Host) (path : Octets) : Option Fixture := do
  let tree := host.treeOf shellPid
  let node ← (tree.resolveEntry (homeNode host.tree) path).toOption
  host.fixture? node

/-- The path of the directory that the shell stands in, as seen from where it started, or from the
root if it has left there; nothing if that directory has been removed. -/
def shellDirectory (host : Host) : Option Octets :=
  ((host.treeOf shellPid).names? (host.directoryOf shellPid)).map fun names =>
    let joined := fun (names : List Octets) => ['/'].intercalate names
    if homeNames.isPrefixOf names then
      match names.drop homeNames.length with
      | [] => ['.']
      | below => joined below
    else '/' :: joined names

def printed (host : Host) (node : NodeId) : List UInt8 :=
  (host.content node).data.toList

end PipelineShell.Host

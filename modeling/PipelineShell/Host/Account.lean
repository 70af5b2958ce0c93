import PipelineShell.Host.Layout
import PipelineShell.Host.State

/-!
What a host tells about itself and its processes in files that nobody has written. Every process
has a directory under its number, with its name, what it has been told, its environment and its
descriptors in it; the process that looks finds its own under a name of its own as well.
-/

namespace PipelineShell.Host

def hostFiles : List String :=
  ["buddyinfo", "cgroups", "cmdline", "consoles", "cpuinfo", "crypto", "devices", "diskstats",
    "filesystems", "interrupts", "iomem", "ioports", "kallsyms", "kcore", "kmsg", "loadavg",
    "locks", "meminfo", "misc", "modules", "partitions", "slabinfo", "softirqs", "stat", "swaps",
    "sysrq-trigger", "uptime", "version", "vmallocinfo", "vmstat", "zoneinfo"]

def hostDirectories : List (List String × List String) :=
  [(["sys"], ["block", "bus", "class", "dev", "devices", "firmware", "fs", "kernel", "module",
      "power"]),
    (["proc", "sys"], ["kernel"]),
    (["proc", "sys", "kernel"], ["hostname", "ostype"]),
    (["proc", "bus"], []), (["proc", "driver"], []), (["proc", "fs"], []), (["proc", "irq"], []),
    (["proc", "tty"], [])]

def processFiles : List String :=
  ["auxv", "cgroup", "clear_refs", "cmdline", "comm", "coredump_filter", "cpuset", "environ",
    "gid_map", "io", "limits", "loginuid", "maps", "mem", "mountinfo", "mounts", "mountstats",
    "numa_maps", "oom_adj", "oom_score", "oom_score_adj", "pagemap", "personality", "projid_map",
    "sched", "schedstat", "sessionid", "setgroups", "smaps", "smaps_rollup", "stack", "stat",
    "statm", "status", "syscall", "timers", "uid_map", "wchan"]

def processNameLimit : Nat := 15

def Surroundings.name (surroundings : Surroundings) : Octets :=
  let behind := (surroundings.program.reverse.takeWhile (· != '/')).reverse
  behind.take processNameLimit

def marked (texts : List Octets) : Octets :=
  texts.flatMap (· ++ [Char.ofNat 0])

def maskDigits (mask : Nat) : Octets :=
  let digits := Nat.toDigits 8 mask
  List.replicate (4 - digits.length) '0' ++ digits

def processText (surroundings : Surroundings) : String → Octets
  | "comm" => surroundings.name ++ ['\n']
  | "cmdline" => marked surroundings.arguments
  | "environ" => marked (surroundings.environment.map fun (name, value) => name ++ '=' :: value)
  | "status" =>
      "Name:\t".toList ++ surroundings.name ++ "\nUmask:\t".toList
        ++ maskDigits surroundings.mask ++ "\nState:\tR (running)\n".toList
  | _ => []

def listed (parent : NodeId) (names : List Octets) (below : List Octets) : Node :=
  .directory parent (below.map fun name => (name, .account (names ++ [name])))

def processNamed? (host : Host) (name : String) : Option Pid :=
  ((List.range host.processes.size).find? fun number =>
    toString number == name && (host.process? ⟨number⟩).isSome).map Pid.mk

def descriptorNode (host : Host) (owner : Pid) (fd : Fd) : Option Node :=
  (host.file? owner fd).map fun (_, file) =>
    match file.stream with
    | .file id _ => .portal id
    | .directory id => .portal id
    | _ => .descriptor owner fd

def openDescriptors (host : Host) (owner : Pid) : List Fd :=
  let slots := (host.descriptorsOf owner).slots
  (slots.zipIdx.filter fun (slot, _) => slot.isSome).map Prod.snd

def processNode (host : Host) (owner : Pid) (names : List Octets) : List String → Option Node
  | [] =>
      let below := processFiles ++ ["cwd", "exe", "fd", "fdinfo", "net", "ns", "root", "task"]
      some (listed (.account (names.take 1)) names (below.map String.toList))
  | ["cwd"] => some (.portal (host.directoryOf owner))
  | ["root"] => some (.portal Tree.root)
  | ["exe"] =>
      let name := String.ofList (host.surroundingsOf owner).name
      let tool := (Tool.all.find? fun tool => tool.name == name).getD .sh
      some (.link (toolPath tool).toList)
  | ["fd"] =>
      some (listed (.account names.dropLast) names
        ((host.openDescriptors owner).map fun fd => Octets.ofNumber (fd : Nat)))
  | ["fd", number] =>
      ((host.openDescriptors owner).find? fun fd => toString fd == number).bind
        (host.descriptorNode owner)
  | [name] =>
      if processFiles.contains name then
        some (.regular (Octets.toContent (processText (host.surroundingsOf owner) name)) false)
      else if ["fdinfo", "net", "ns", "task"].contains name then
        some (listed (.account names.dropLast) names [])
      else none
  | _ => none

def generalNode (names : List Octets) (texts : List String) : Option Node :=
  match hostDirectories.lookup texts with
  | some below =>
      let parent := if names.length = 1 then Tree.root else .account names.dropLast
      some (listed parent names (below.map String.toList))
  | none =>
      match texts with
      | ["proc", "sys", "kernel", "ostype"] => some (.regular "Linux\n".toUTF8 false)
      | ["proc", "sys", "kernel", _] => some (.regular ByteArray.empty false)
      | ["sys", _] => some (listed (.account names.dropLast) names [])
      | ["proc", name] =>
          if hostFiles.contains name then some (.regular ByteArray.empty false) else none
      | _ => none

def accountNode (host : Host) (viewer : Pid) (names : List Octets) : Option Node :=
  let texts := names.map String.ofList
  match texts with
  | ["proc"] =>
      let own := (List.range host.processes.size).filter fun number =>
        (host.process? ⟨number⟩).isSome
      let others := ["bus", "driver", "fs", "irq", "mounts", "net", "self", "sys", "tty"]
      some (listed Tree.root names
        (own.map (fun number => Octets.ofNumber (number : Nat))
          ++ (hostFiles ++ others).map String.toList))
  | ["proc", "self"] => some (.link (Octets.ofNumber viewer.number))
  | ["proc", "mounts"] => some (.link "self/mounts".toList)
  | ["proc", "net"] => some (.link "self/net".toList)
  | "proc" :: name :: below =>
      match host.processNamed? name with
      | some owner => host.processNode owner names below
      | none => generalNode names texts
  | _ => generalNode names texts

def treeOf (host : Host) (pid : Pid) : Tree :=
  { host.tree with account := host.accountNode pid }

/-- What stands at a node. What is stored and what the host tells of a process look alike to every
process. -/
def nodeAt? (host : Host) : NodeId → Option Node
  | .stored number => host.tree.nodes[number]?
  | .account names => host.accountNode ⟨0⟩ names

def content (host : Host) (node : NodeId) : ByteArray :=
  match host.nodeAt? node with
  | some (.regular content _) => content
  | _ => ByteArray.empty

end PipelineShell.Host

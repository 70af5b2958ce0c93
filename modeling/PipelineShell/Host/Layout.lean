import PipelineShell.Host.Tree

/-!
The files that every host has from the beginning: the usual directories, devices and links, the
tools, and the users.
-/

namespace PipelineShell.Host

def namesOf (path : String) : List Octets :=
  Tree.nonemptyNames path.toList

def homePath : String :=
  "/tmp/work"

def homeNames : List Octets :=
  namesOf homePath

def standardDirectories : List String :=
  ["/usr/bin", "/usr/games", "/usr/include", "/usr/lib", "/usr/lib64", "/usr/libexec",
    "/usr/local/bin", "/usr/local/etc", "/usr/local/games", "/usr/local/include",
    "/usr/local/lib", "/usr/local/sbin", "/usr/local/share/man", "/usr/local/src", "/usr/sbin",
    "/usr/share", "/usr/src", "/dev/shm", "/dev/pts", "/dev/mqueue", "/etc", "/home", "/root",
    "/var/backups", "/var/cache", "/var/lib", "/var/local", "/var/log", "/var/mail", "/var/opt",
    "/var/spool", "/var/tmp", "/opt", "/run/lock", "/mnt", "/media", "/srv", "/boot", homePath]

def standardLinks : List (String × String) :=
  [("/bin", "usr/bin"), ("/lib", "usr/lib"), ("/lib64", "usr/lib64"), ("/sbin", "usr/sbin"),
    ("/var/run", "/run"), ("/var/lock", "/run/lock"), ("/usr/local/man", "share/man"),
    ("/usr/bin/sh", "dash"), ("/dev/fd", "/proc/self/fd"), ("/dev/stdin", "/proc/self/fd/0"),
    ("/dev/stdout", "/proc/self/fd/1"), ("/dev/stderr", "/proc/self/fd/2"),
    ("/dev/ptmx", "pts/ptmx")]

def standardDevices : List (String × Device) :=
  [("/dev/null", .null), ("/dev/full", .full), ("/dev/zero", .zero), ("/dev/random", .random),
    ("/dev/urandom", .random), ("/dev/tty", .terminal)]

def toolPath (tool : Tool) : String :=
  "/usr/bin/" ++ if tool = .sh then "dash" else tool.name

/-- A user of the host. -/
structure User where
  name : String
  numbers : String
  comment : String
  home : String
  program : String
deriving DecidableEq, Repr

def noLogin : String :=
  "/usr/sbin/nologin"

def users : List User :=
  [⟨"root", "0:0", "root", "/root", "/bin/bash"⟩,
    ⟨"daemon", "1:1", "daemon", "/usr/sbin", noLogin⟩, ⟨"bin", "2:2", "bin", "/bin", noLogin⟩,
    ⟨"sys", "3:3", "sys", "/dev", noLogin⟩, ⟨"sync", "4:65534", "sync", "/bin", "/bin/sync"⟩,
    ⟨"games", "5:60", "games", "/usr/games", noLogin⟩,
    ⟨"man", "6:12", "man", "/var/cache/man", noLogin⟩,
    ⟨"lp", "7:7", "lp", "/var/spool/lpd", noLogin⟩, ⟨"mail", "8:8", "mail", "/var/mail", noLogin⟩,
    ⟨"news", "9:9", "news", "/var/spool/news", noLogin⟩,
    ⟨"uucp", "10:10", "uucp", "/var/spool/uucp", noLogin⟩,
    ⟨"proxy", "13:13", "proxy", "/bin", noLogin⟩,
    ⟨"www-data", "33:33", "www-data", "/var/www", noLogin⟩,
    ⟨"backup", "34:34", "backup", "/var/backups", noLogin⟩,
    ⟨"list", "38:38", "Mailing List Manager", "/var/list", noLogin⟩,
    ⟨"irc", "39:39", "ircd", "/run/ircd", noLogin⟩,
    ⟨"_apt", "42:65534", "", "/nonexistent", noLogin⟩,
    ⟨"nobody", "65534:65534", "nobody", "/nonexistent", noLogin⟩]

def User.line (user : User) : String :=
  ":".intercalate [user.name, "x", user.numbers, user.comment, user.home, user.program] ++ "\n"

def homeDirectory? (name : Octets) : Option String :=
  (users.find? fun user => user.name.toList == name).map User.home

def standardTexts : List (String × String) :=
  [("/etc/profile", "PATH=/usr/local/sbin:/usr/local/bin:/usr/sbin:/usr/bin:/sbin:/bin\n"
      ++ "export PATH\n"),
    ("/etc/passwd", String.join (users.map User.line))]

def accountPaths : List String :=
  ["/proc", "/sys"]

def withNode (tree : Tree) (path : String) (node : Node) : Tree :=
  tree.plant Tree.root (namesOf path) node

def standardTree : Tree :=
  let tree := standardDirectories.foldl (fun tree path =>
    withNode tree path (.directory Tree.root [])) Tree.empty
  let tree := standardLinks.foldl (fun tree (path, target) =>
    withNode tree path (.link target.toList)) tree
  let tree := standardDevices.foldl (fun tree (path, device) =>
    withNode tree path (.device device)) tree
  let tree := Tool.all.foldl (fun tree tool => withNode tree (toolPath tool) (.tool tool)) tree
  let tree := standardTexts.foldl (fun tree (path, text) =>
    withNode tree path (.regular text.toUTF8 false)) tree
  accountPaths.foldl (fun tree path =>
    (namesOf path).foldl (fun tree name => tree.attach Tree.root name (.account [name])) tree) tree

def standardSize : Nat :=
  standardTree.nodes.size

def stickyDirectories : List (List Octets) :=
  ["/tmp", "/var/tmp", "/run/lock", "/dev/shm", "/dev/mqueue"].map namesOf

def groupDirectories : List (List Octets) :=
  ["/var/mail", "/var/local"].map namesOf

def mountPoints : List (List Octets) :=
  ["/dev", "/dev/shm", "/dev/pts", "/dev/mqueue", "/proc", "/sys"].map namesOf

end PipelineShell.Host

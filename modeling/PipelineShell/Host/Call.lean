import PipelineShell.System.Call
import PipelineShell.Host.Limit
import PipelineShell.Host.Tree
import PipelineShell.Text.Octets

/-!
What the processes of a host ask for: the requests of the shell, and those that tools and scripts
make besides.
-/

namespace PipelineShell.Host

/-- What kind of file stands somewhere. -/
inductive FileKind where
  | regular
  | directory
  | link
  | fifo
  | device
deriving DecidableEq, Repr

/-- What is known of a file. -/
structure FileStatus where
  kind : FileKind
  node : Option NodeId
  size : Nat
  executable : Bool
  sticky : Bool
  group : Bool
  old : Bool
deriving DecidableEq, Repr

/-- What is known of an open file. -/
structure OpenStatus where
  file : FileStatus
  offset : Nat
  append : Bool
deriving DecidableEq, Repr

/-- What a file is opened for. -/
inductive OpenMode where
  | reading
  | emptied
  /-- The file is made if need be; what is written goes to its end. -/
  | appending
  | both
  | fresh
deriving DecidableEq, Repr

/-- What a process does about a signal. -/
inductive Disposition where
  | standard
  | ignored
  | caught
deriving DecidableEq, Repr

/-- What has come of watching files. -/
inductive Watched where
  | changed
  | unread
  | ended
deriving DecidableEq, Repr

abbrev Environment := List (Octets × Octets)

/-- A request of a process. -/
inductive Call where
  | system (request : System.Call)
  | openFile (path : Octets) (mode : OpenMode)
  /-- Reads up to a number of bytes. None are read at the end of what is read. -/
  | read (fd : Fd) (size : Nat)
  | emit (fd : Fd) (content : ByteArray)
  | seek (fd : Fd) (offset : Nat)
  | status (fd : Fd)
  /-- Looks at a path; a link at its end is followed if `follow` is set. -/
  | lookAt (path : Octets) (follow : Bool)
  | names (path : Octets)
  | workingDirectory
  | makeFifo (path : Octets) (executable : Bool)
  | removeDirectory (path : Octets)
  /-- Waits until there is something to read behind the places of open files, nobody reads what is
  written to `output`, or a process has ended. -/
  | watch (fds : List Fd) (output : Fd) (ending : Option Pid)
  | self
  | parent
  | ownVariables
  | signal (pid : Pid) (signal : Nat)
  | disposition (signal : Nat)
  | dispose (signal : Nat) (disposition : Disposition)
  | signals
  /-- Goes on as two processes; the new one is replied nothing. -/
  | split
  /-- Becomes another program; a reply comes only if that fails. -/
  | become (path : Octets) (arguments : List Octets) (environment : Environment)
  /-- Collects any child that has ended; waits for one if `block` is set. -/
  | collect (block : Bool)
  | mask
  | setMask (mask : Nat)
  | limit (resource : Resource)
  | setLimit (resource : Resource) (limit : Limit)
  | die (death : Death)
  | pause

abbrev Call.Reply : Call → Type
  | .system request => request.Reply
  | .openFile _ _ => Except Errno Fd
  | .read _ _ => Except Errno ByteArray
  | .emit _ _ => Except Errno Unit
  | .seek _ _ => Except Errno Unit
  | .status _ => Except Errno OpenStatus
  | .lookAt _ _ => Except Errno FileStatus
  | .names _ => Except Errno (List Octets)
  | .workingDirectory => Except Errno Octets
  | .makeFifo _ _ => Except Errno Unit
  | .removeDirectory _ => Except Errno Unit
  | .watch _ _ _ => Watched
  | .self => Pid
  | .parent => Pid
  | .ownVariables => Environment
  | .signal _ _ => Except Errno Unit
  | .disposition _ => Disposition
  | .dispose _ _ => Unit
  | .signals => List Nat
  | .split => Option Pid
  | .become _ _ _ => Errno
  | .collect _ => Except Errno (Option (Pid × Death))
  | .mask => Nat
  | .setMask _ => Unit
  | .limit _ => Limit
  | .setLimit _ _ => Except Errno Unit
  | .die _ => Unit
  | .pause => Unit

abbrev interface : Interface :=
  ⟨Call, Call.Reply⟩

def call (request : Call) : Routine interface request.Reply :=
  @Routine.request interface request

def ofShell {α : Type} (routine : Routine System.interface α) : Routine interface α :=
  @Routine.embed System.interface α interface Call.system (fun _ reply => reply) routine

end PipelineShell.Host

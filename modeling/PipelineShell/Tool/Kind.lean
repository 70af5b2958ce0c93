/-!
The tools of a host and the names they are installed under.
-/

namespace PipelineShell

/-- A program that a host has of its own. -/
inductive Tool where
  | cat
  | echo
  | fail
  | mkfifo
  | printf
  | rmdir
  | sh
  | sort
  | succeed
  | tail
  | tr
  | wc
deriving DecidableEq, Repr

namespace Tool

def name : Tool → String
  | .cat => "cat"
  | .echo => "echo"
  | .fail => "false"
  | .mkfifo => "mkfifo"
  | .printf => "printf"
  | .rmdir => "rmdir"
  | .sh => "sh"
  | .sort => "sort"
  | .succeed => "true"
  | .tail => "tail"
  | .tr => "tr"
  | .wc => "wc"

def all : List Tool :=
  [.cat, .echo, .fail, .mkfifo, .printf, .rmdir, .sh, .sort, .succeed, .tail, .tr, .wc]

end Tool

end PipelineShell

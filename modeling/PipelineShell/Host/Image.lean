import PipelineShell.Host.Tree

/-!
From the name of a program to what runs. A name without a slash is looked for in the program
directories; a file that names an interpreter in its first line is run by it, and an executable
file that is neither a tool nor such a file is handed to the script interpreter.
-/

namespace PipelineShell.Host

/-- A tool with the arguments it is told. -/
structure Image where
  tool : Tool
  arguments : List Octets
  program : Octets
deriving DecidableEq, Repr

namespace Image

def searchDirectories : List Octets :=
  ["/usr/bin", "/bin"].map String.toList

def scriptInterpreter : Octets :=
  Octets.spelled "/bin/sh"

def argumentLimit : Nat := 131072

def totalLimit : Nat := 2097152

def programLimit : Nat := 6

def fits (arguments : List Octets) : Bool :=
  arguments.all (fun argument => argument.length < argumentLimit)
    && arguments.foldl (fun total argument => total + argument.length + 9) 0 ≤ totalLimit

def headLength : Nat := 256

def isGap (byte : UInt8) : Bool :=
  byte == 0x20 || byte == 0x09

def trimEnd (bytes : List UInt8) : List UInt8 :=
  (bytes.reverse.dropWhile isGap).reverse

/-- What stands behind the mark in the first line of a file: up to its line feed, or as far as the
file is looked at, if the name of the interpreter surely ends there. -/
def interpreterText (behind : List UInt8) : Option (List UInt8) :=
  let line := behind.takeWhile fun byte => byte != 0x0a && byte != 0
  if (behind.drop line.length).head? == some 0x0a then some (trimEnd line)
  else if (behind.dropWhile isGap).any fun byte => isGap byte || byte == 0 then
    some (trimEnd (behind.take (headLength - 3)))
  else none

/-- The interpreter and its argument that the first line of a file names. A file is as if zeros
followed it. -/
def interpreterLine (content : ByteArray) : Option (Octets × Option Octets) :=
  let head := (content.extract 0 headLength).data.toList
  match head ++ List.replicate (headLength - head.length) 0 with
  | 0x23 :: 0x21 :: behind => do
      let line := (← interpreterText behind).dropWhile isGap
      if line.isEmpty then none
      else
        let name := line.takeWhile fun byte => !isGap byte && byte != 0
        let argument := match line.drop name.length with
          | byte :: rest =>
              if isGap byte then
                some (Octets.ofBytes ((rest.dropWhile isGap).takeWhile (· != 0)))
              else none
          | [] => none
        return (Octets.ofBytes name, argument)
  | _ => none

/-- What runs when a path is executed. A file that some process can write to does not run. An
interpreter without a name is the directory itself, which does not run either. -/
def ofPath (tree : Tree) (busy : NodeId → Bool) (base : NodeId) :
    Nat → Octets → List Octets → Except Errno Image
  | programs, path, arguments => do
      if path.isEmpty && programs < programLimit then .error .accessDenied
      let id ← tree.resolve base path
      match tree.node? id with
      | some (.tool tool) =>
          if !fits arguments then .error .argumentListTooLong
          else if programs = 0 then .error .tooManyLinks
          else .ok ⟨tool, arguments, path⟩
      | some (.regular content true) =>
          if busy id then .error .textBusy
          else if !fits arguments then .error .argumentListTooLong
          else match programs, interpreterLine content with
            | 0, _ => .error .tooManyLinks
            | _ + 1, none => .error .execFormat
            | programs + 1, some (interpreter, argument) => do
                let image ← ofPath tree busy base programs interpreter
                  (interpreter :: argument.toList ++ path :: arguments.tail)
                .ok { image with program := path }
      | _ => .error .accessDenied

def ofScript (tree : Tree) (busy : NodeId → Bool) (base : NodeId) (path : Octets)
    (arguments : List Octets) : Except Errno Image :=
  match ofPath tree busy base programLimit path arguments with
  | .error .execFormat =>
      ofPath tree busy base programLimit scriptInterpreter
        (scriptInterpreter :: path :: arguments.tail)
  | result => result

/-- Looks for a program in the directories that are left. A directory where it may not be run
decides only if it is in none of the later ones. -/
def search (tree : Tree) (busy : NodeId → Bool) (base : NodeId) (program : Octets)
    (arguments : List Octets) (failure : Errno) : List Octets → Except Errno Image
  | [] => .error failure
  | directory :: rest =>
      match ofScript tree busy base (directory ++ '/' :: program) arguments with
      | .error .noEntry => search tree busy base program arguments failure rest
      | .error .notDirectory => search tree busy base program arguments failure rest
      | .error .accessDenied => search tree busy base program arguments .accessDenied rest
      | result => result

/-- What runs under the name of a program. A name that no directory could hold is in none. -/
def ofProgram (tree : Tree) (busy : NodeId → Bool) (base : NodeId) (program : Octets)
    (arguments : List Octets) : Except Errno Image :=
  if program.contains '/' then ofScript tree busy base program arguments
  else if Tree.nameLimit < program.length then .error .noEntry
  else search tree busy base program arguments .noEntry searchDirectories

end Image

end PipelineShell.Host

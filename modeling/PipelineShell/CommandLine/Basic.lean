/-!
What a command line is: commands joined by connectives, at most one redirected output, and the
mark that sends the line to the background. The type also holds lines that no user can write;
`CommandLine.render` prints every one of them.
-/

namespace PipelineShell

/-- One program to start. Its first argument is the name the program is told, which is the
program itself in every line that is read or built. -/
structure Command where
  program : String
  arguments : List String
deriving DecidableEq, Repr, Inhabited

namespace Command

/-- The command of words: the first names the program, and all of them are told to it. -/
def ofWords (words : List String) : Command :=
  ⟨words.headD "", words⟩

end Command

/-- What joins a command to the one before it. -/
inductive Connective where
  | pipe
  | and
  | or
deriving DecidableEq, Repr

/-- One position of a command line. -/
inductive Item where
  | command (command : Command)
  | connective (connective : Connective)
deriving DecidableEq, Repr

/-- Where the standard output of a line goes. -/
inductive Output where
  /-- To the standard output of the shell. -/
  | inherited
  /-- Into a file that is emptied first. -/
  | emptied (path : String)
  /-- To the end of a file. -/
  | appended (path : String)
deriving DecidableEq, Repr

/-- A command line. -/
structure CommandLine where
  items : List Item
  output : Output
  background : Bool
deriving DecidableEq, Repr

def Connective.render : Connective → String
  | .pipe => "|"
  | .and => "&&"
  | .or => "||"

/-- A command is written as its arguments, so that one without arguments is written as nothing. -/
def Item.render : Item → String
  | .command step => " ".intercalate step.arguments
  | .connective join => join.render

def Output.render : Output → String
  | .inherited => ""
  | .emptied path => " > " ++ path
  | .appended path => " >> " ++ path

/-- The canonical rendering of a line: its positions, the redirection and the background mark,
with one space between them. -/
def CommandLine.render (line : CommandLine) : String :=
  " ".intercalate (line.items.map Item.render) ++ line.output.render
    ++ if line.background then " &" else ""

end PipelineShell

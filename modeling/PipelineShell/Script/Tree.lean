import PipelineShell.Text.Octets

/-!
Scripts as trees. A word is a list of parts, each of which stands for itself or for something that
is found out when the script runs; a command is made of words, redirections and other commands.
Trees remember the lines that complaints about them name.
-/

namespace PipelineShell.Script

/-- What the name of a parameter is followed by. -/
inductive Use where
  | value
  | length
  | default
  | alternative
  | assign
  | demand
  | cutEnd (longest : Bool)
  | cutStart (longest : Bool)
  | wrong
deriving DecidableEq, Repr

/-- Which end of a pipe or file a redirection copies a descriptor for, or how it opens a file. -/
inductive RedirectionKind where
  | input
  | output
  | overwrite
  | append
  | both
  | copy
  | document (number : Nat)
deriving DecidableEq, Repr

mutual

/-- A part of a word. Where it is quoted, nothing in it is split or taken for a pattern. -/
inductive Part where
  | character (quoted : Bool) (character : Char)
  /-- A quotation mark. A word with one is never empty. -/
  | mark
  /-- A parameter; `orEmpty` tells that an empty one counts as not set. -/
  | parameter (quoted : Bool) (name : Octets) (use : Use) (orEmpty : Bool) (word : List Part)
  | substitution (quoted : Bool) (command : Option Command)
  | arithmetic (quoted : Bool) (word : List Part)

/-- A redirection of a descriptor. -/
inductive Redirection where
  | mk (kind : RedirectionKind) (fd : Nat) (target : List Part)

/-- A clause of a choice: patterns, and the command for what they match. -/
inductive Clause where
  | mk (patterns : List (List Part)) (body : Option Command)

/-- A command. -/
inductive Command where
  | simple (line : Nat) (assignments words : List (List Part)) (redirections : List Redirection)
  | pipeline (commands : List Command) (background : Bool)
  | redirected (line : Nat) (body : Option Command) (redirections : List Redirection)
  | subshell (line : Nat) (body : Option Command) (redirections : List Redirection)
  | background (line : Nat) (body : Option Command) (redirections : List Redirection)
  | sequence (first second : Command)
  | both (first second : Command)
  | either (first second : Command)
  | negated (body : Command)
  | conditional (test body alternative : Option Command)
  | loop (inverted : Bool) (test body : Option Command)
  | iteration (line : Nat) (name : Octets) (words : List (List Part)) (body : Option Command)
  | choice (line : Nat) (word : List Part) (clauses : List Clause)
  | function (line : Nat) (name : Octets) (body : Command)

end

abbrev Word := List Part

def Redirection.kind : Redirection → RedirectionKind
  | .mk kind _ _ => kind

def Redirection.fd : Redirection → Nat
  | .mk _ fd _ => fd

def Redirection.target : Redirection → Word
  | .mk _ _ target => target

def plainText? : Word → Option Octets
  | [] => some []
  | .character false character :: rest => (plainText? rest).map (character :: ·)
  | _ => none

def startsName (character : Char) : Bool :=
  character.isAlpha || character == '_'

def isInName (character : Char) : Bool :=
  character.isAlphanum || character == '_'

def isName (text : Octets) : Bool :=
  text.head?.any startsName && text.all isInName

def assignment? (word : Word) : Option (Octets × Word) :=
  let inName := fun (part : Part) =>
    match part with
    | .character false character => isInName character
    | _ => false
  match plainText? (word.takeWhile inName), word.dropWhile inName with
  | some name, .character false '=' :: value => if isName name then some (name, value) else none
  | _, _ => none

end PipelineShell.Script

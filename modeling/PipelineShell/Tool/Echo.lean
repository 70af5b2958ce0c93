import PipelineShell.Tool.Outlet
import PipelineShell.Text.Numeral

/-!
The tool that prints its arguments, with blanks between them and a line feed behind. Escapes in
them mean something only if that is asked for.
-/

namespace PipelineShell.Tool

def escapedLetter? (letter : Char) : Option Char :=
  match letter with
  | 'a' => some (Char.ofNat 0x07)
  | 'b' => some (Char.ofNat 0x08)
  | 'f' => some (Char.ofNat 0x0c)
  | 'n' => some (Char.ofNat 0x0a)
  | 'r' => some (Char.ofNat 0x0d)
  | 't' => some (Char.ofNat 0x09)
  | 'v' => some (Char.ofNat 0x0b)
  | '\\' => some '\\'
  | _ => none

def escapedCharacter? (letter : Char) : Option Char :=
  if letter == 'e' then some (Char.ofNat 0x1b) else escapedLetter? letter

def ofValue (value : Nat) : Char :=
  Char.ofNat (value % 256)

def digitsWithin (base most : Nat) (text : Octets) : Nat × Octets :=
  let digits := (text.take most).takeWhile (Numeral.isDigitOf base)
  (Numeral.valueOf base digits, text.drop digits.length)

/-- The character of the digits behind a backslash, and what is left. Behind a zero there are up
to three octal digits. -/
def echoedDigits? : Octets → Option (Char × Octets)
  | '0' :: rest =>
      let (value, left) := digitsWithin 8 3 rest
      some (ofValue value, left)
  | 'x' :: rest =>
      let (value, left) := digitsWithin 16 2 rest
      if left.length = rest.length then none else some (ofValue value, left)
  | text =>
      let (value, left) := digitsWithin 8 3 text
      if left.length = text.length then none else some (ofValue value, left)

/-- A text with its escapes carried out, and whether printing goes on behind it. `fuel` bounds the
number of characters. -/
def echoedWithin : Nat → Octets → Octets × Bool
  | 0, _ => ([], true)
  | _, [] => ([], true)
  | fuel + 1, '\\' :: letter :: rest =>
      if letter == 'c' then ([], false)
      else match escapedCharacter? letter, echoedDigits? (letter :: rest) with
        | some character, _ =>
            let (later, goesOn) := echoedWithin fuel rest
            (character :: later, goesOn)
        | none, some (character, rest) =>
            let (later, goesOn) := echoedWithin fuel rest
            (character :: later, goesOn)
        | none, none =>
            let (later, goesOn) := echoedWithin fuel rest
            ('\\' :: letter :: later, goesOn)
  | fuel + 1, character :: rest =>
      let (later, goesOn) := echoedWithin fuel rest
      (character :: later, goesOn)

def echoed (text : Octets) : Octets × Bool :=
  echoedWithin text.length text

/-- How `echo` prints. -/
structure EchoMode where
  lineFeed : Bool
  escapes : Bool
deriving DecidableEq, Repr

def EchoMode.choose (mode : EchoMode) (letter : Char) : EchoMode :=
  if letter == 'n' then { mode with lineFeed := false }
  else { mode with escapes := letter == 'e' }

/-- Reads the options in front of the operands. A word with any other letter is an operand. -/
def echoOptions (mode : EchoMode) : List Octets → EchoMode × List Octets
  | [] => (mode, [])
  | word :: rest =>
      match word with
      | '-' :: letter :: letters =>
          if (letter :: letters).all "neE".toList.contains then
            echoOptions ((letter :: letters).foldl EchoMode.choose mode) rest
          else (mode, word :: rest)
      | _ => (mode, word :: rest)

def EchoMode.printAll (mode : EchoMode) : List Octets → Work Unit
  | [] => if mode.lineFeed then put ['\n'] else return ()
  | word :: rest => do
      let (text, goesOn) := if mode.escapes then echoed word else (word, true)
      put text
      if goesOn then
        if !rest.isEmpty then
          put [' ']
        mode.printAll rest

def echoWork (arguments : List Octets) : Work Int := do
  let alone := arguments == ["--help".toList] || arguments == ["--version".toList]
  if !alone then
    let (mode, operands) := echoOptions ⟨true, false⟩ arguments
    mode.printAll operands
  return 0

end PipelineShell.Tool

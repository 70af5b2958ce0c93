import PipelineShell.Text.Octets

/-!
How the tools write a name in a complaint. A name is put between quotes such that a script could
use it; the bare form leaves the quotes away where nothing needs them. A second way of writing
escapes octets with backslashes and is not meant for scripts. Only ASCII can be seen.
-/

namespace PipelineShell.Tool

def quoteMark : Char :=
  Char.ofNat 0x27

def isPrinted (character : Char) : Bool :=
  ' ' ≤ character && character ≤ '~'

def escapeLetter? (character : Char) : Option Char :=
  match character.toNat with
  | 0x07 => some 'a'
  | 0x08 => some 'b'
  | 0x09 => some 't'
  | 0x0a => some 'n'
  | 0x0b => some 'v'
  | 0x0c => some 'f'
  | 0x0d => some 'r'
  | _ => none

def octalEscape (character : Char) : Octets :=
  let code := character.toNat
  ['\\', Nat.digitChar (code / 64), Nat.digitChar (code / 8 % 8), Nat.digitChar (code % 8)]

def escapedCharacter (character : Char) : Octets :=
  match escapeLetter? character with
  | some letter => ['\\', letter]
  | none => octalEscape character

def scriptCharacters : List Char :=
  "!\"$&()*;<=>[^|?\\".toList ++ [Char.ofNat 0x60]

def isBrace (character : Char) : Bool :=
  character.toNat == 0x7b || character.toNat == 0x7d

def isScriptCharacter (place length : Nat) (character : Char) : Bool :=
  character == ' ' || character == quoteMark || scriptCharacters.contains character
    || !isPrinted character || (place == 0 && (character == '#' || character == '~'))
    || (length == 1 && isBrace character)

def isHarmless (place length : Nat) (character : Char) : Bool :=
  character == ' ' || character == quoteMark
    || !(scriptCharacters.contains character || !isPrinted character
      || (place != 0 && (character == '#' || character == '~'))
      || (length != 1 && isBrace character))

/-- Writes a name between single quotes; `escaping` tells whether escapes are being written. -/
def singleQuoted (escaping : Bool) : Octets → Octets
  | [] => [quoteMark]
  | character :: rest =>
      if !isPrinted character then
        let opening := if escaping then [] else [quoteMark, '$', quoteMark]
        opening ++ escapedCharacter character ++ singleQuoted true rest
      else if character == quoteMark then
        [quoteMark, '\\', quoteMark, quoteMark] ++ singleQuoted false rest
      else
        let closing := if escaping then [quoteMark, quoteMark] else []
        closing ++ character :: singleQuoted false rest

def allAt (test : Nat → Char → Bool) : Nat → Octets → Bool
  | _, [] => true
  | place, character :: rest => test place character && allAt test (place + 1) rest

/-- A name between quotes. A name with a quote mark in it is gone through twice, and the second
time begins in the state in which the first has ended. -/
def quotedName (name : Octets) : Octets :=
  let length := name.length
  if name.contains quoteMark then
    if allAt (fun place => isHarmless place length) 0 name then '"' :: name ++ ['"']
    else quoteMark :: singleQuoted (name.getLast?.any fun last => !isPrinted last) name
  else quoteMark :: singleQuoted false name

def bareName (name : Octets) : Octets :=
  let length := name.length
  let plain := fun (place : Nat) (character : Char) => !isScriptCharacter place length character
  if allAt plain 0 name && !name.isEmpty then name else quotedName name

def shownName (name : Octets) : Octets :=
  if name.contains ':' then quotedName name else bareName name

def quotedText (text : Octets) : Octets :=
  let body := text.flatMap fun character =>
    if !isPrinted character then escapedCharacter character
    else if character == quoteMark || character == '\\' then ['\\', character]
    else [character]
  quoteMark :: body ++ [quoteMark]

end PipelineShell.Tool

import PipelineShell.Text.Numeral
import PipelineShell.Tool.Outlet
import PipelineShell.Tool.Quoting

/-!
Sets of bytes as they are written for `tr`: characters, escapes, ranges, classes, equivalence
classes and repeats. A set is a list of parts, and its bytes stand in the order of the parts.
-/

namespace PipelineShell.Tool

/-- The classes that have a name. -/
inductive ByteClass where
  | alnum
  | alpha
  | blank
  | cntrl
  | digit
  | graph
  | lower
  | print
  | punct
  | space
  | upper
  | xdigit
deriving DecidableEq, Repr

namespace ByteClass

def names : List (String × ByteClass) :=
  [("alnum", .alnum), ("alpha", .alpha), ("blank", .blank), ("cntrl", .cntrl),
    ("digit", .digit), ("graph", .graph), ("lower", .lower), ("print", .print),
    ("punct", .punct), ("space", .space), ("upper", .upper), ("xdigit", .xdigit)]

def named? (name : Octets) : Option ByteClass :=
  (names.find? fun entry => entry.1.toList == name).map Prod.snd

/-- Whether a byte is in the class. Only ASCII has classes. -/
def holds (found : ByteClass) (character : Char) : Bool :=
  let lower := 'a' ≤ character && character ≤ 'z'
  let upper := 'A' ≤ character && character ≤ 'Z'
  let digit := '0' ≤ character && character ≤ '9'
  let graphic := '!' ≤ character && character ≤ '~'
  let code := character.toNat
  match found with
  | .alnum => lower || upper || digit
  | .alpha => lower || upper
  | .blank => code == 0x20 || code == 0x09
  | .cntrl => code < 0x20 || code == 0x7f
  | .digit => digit
  | .graph => graphic
  | .lower => lower
  | .print => graphic || code == 0x20
  | .punct => graphic && !(lower || upper || digit)
  | .space => code == 0x20 || (9 ≤ code && code ≤ 13)
  | .upper => upper
  | .xdigit =>
      digit || ('a' ≤ character && character ≤ 'f') || ('A' ≤ character && character ≤ 'F')

def allBytes : List Char :=
  (List.range 256).map Char.ofNat

def members (found : ByteClass) : List Char :=
  allBytes.filter found.holds

def isCase (found : ByteClass) : Bool :=
  found = .lower || found = .upper

end ByteClass

/-- A part of a set. -/
inductive SetPart where
  | single (character : Char)
  | range (first last : Char)
  | named (found : ByteClass)
  | equals (character : Char)
  /-- A character a number of times; without a number, as often as needed. -/
  | repeats (character : Char) (count : Option Nat)
deriving DecidableEq, Repr

def repeatBound : Nat := 65536

def SetPart.members : SetPart → List Char
  | .single character => [character]
  | .range first last =>
      (List.range (last.toNat + 1 - first.toNat)).map fun step => Char.ofNat (first.toNat + step)
  | .named found => found.members
  | .equals character => [character]
  | .repeats character count => List.replicate (min repeatBound (count.getD 0)) character

def SetPart.size : SetPart → Nat
  | .repeats _ count => count.getD 0
  | part => part.members.length

/-- A character of a set as it is written, with a mark if it was escaped. -/
structure SetCharacter where
  character : Char
  escaped : Bool
deriving DecidableEq, Repr

def SetCharacter.isPlain (found : SetCharacter) (character : Char) : Bool :=
  found.character == character && !found.escaped

def octalDigit? (character : Char) : Option Nat :=
  if '0' ≤ character && character ≤ '7' then some (character.toNat - 48) else none

def letterEscape? : Char → Option Char
  | 'a' => some (Char.ofNat 0x07)
  | 'b' => some (Char.ofNat 0x08)
  | 'f' => some (Char.ofNat 0x0c)
  | 'n' => some '\n'
  | 'r' => some '\r'
  | 't' => some '\t'
  | 'v' => some (Char.ofNat 0x0b)
  | '\\' => some '\\'
  | _ => none

def ambiguousEscape (first second third : Char) : Octets :=
  "warning: the ambiguous octal escape \\".toList ++ [first, second, third]
    ++ " is being\n\tinterpreted as the 2-byte sequence \\0".toList ++ [first, second]
    ++ ", ".toList ++ [third]

/-- The value of up to three octal digits behind a first one, with the number of digits used and
what is said about them. -/
def octalEscape? (first : Char) (digit : Nat) (rest : Octets) : Nat × Nat × List Octets :=
  match rest.head?, rest.head?.bind octalDigit?, rest.tail.head?, rest.tail.head?.bind octalDigit?
  with
  | some second, some middle, some third, some last =>
      let value := digit * 64 + middle * 8 + last
      if value < 256 then (value, 2, [])
      else (digit * 8 + middle, 1, [ambiguousEscape first second third])
  | _, some middle, _, _ => (digit * 8 + middle, 1, [])
  | _, none, _, _ => (digit, 0, [])

/-- Reads the escapes of a set, with what is said about them. `fuel` bounds the length. -/
def readSetCharacters : Nat → Octets → List SetCharacter × List Octets
  | 0, _ => ([], [])
  | _, [] => ([], [])
  | _ + 1, ['\\'] =>
      ([⟨'\\', false⟩], ["warning: an unescaped backslash at end of string is not portable".toList])
  | fuel + 1, '\\' :: next :: rest =>
      let (character, used, warnings) :=
        match letterEscape? next, octalDigit? next with
        | some character, _ => (character, 0, [])
        | none, some digit =>
            let (value, used, warnings) := octalEscape? next digit rest
            (Char.ofNat value, used, warnings)
        | none, none => (next, 0, [])
      let (later, others) := readSetCharacters fuel (rest.drop used)
      (⟨character, true⟩ :: later, warnings ++ others)
  | fuel + 1, character :: rest =>
      let (later, others) := readSetCharacters fuel rest
      (⟨character, false⟩ :: later, others)

def printable (character : Char) : Octets :=
  if isPrinted character then [character] else octalEscape character

def printableText (text : Octets) : Octets :=
  text.flatMap fun character =>
    if character == '\\' then ['\\']
    else match escapeLetter? character with
      | some letter => ['\\', letter]
      | none => printable character

def plainText (found : List SetCharacter) : Octets :=
  found.map SetCharacter.character

def splitAtDelimiter (delimiter : Char) :
    List SetCharacter → Option (List SetCharacter × List SetCharacter)
  | first :: second :: rest =>
      if first.isPlain delimiter && second.isPlain ']' then some ([], rest)
      else (splitAtDelimiter delimiter (second :: rest)).map fun (inner, behind) =>
        (first :: inner, behind)
  | _ => none

/-- What a repeat looks like behind its opening bracket. -/
inductive RepeatShape where
  | none
  | found (part : SetPart) (rest : List SetCharacter)
  | invalid (count : Octets)

def repeatLimit : Nat := 18446744073709551614

/-- Reads the number of a repeat: octal if the text begins with a zero. Blanks and a plus may stand
in front of it. -/
def repeatCount? (text : Octets) : Option (Option Nat) :=
  if text.isEmpty then some none
  else
    let base := if text.head? == some '0' then 8 else 10
    let digits := match text.dropWhile Numeral.isSpace with
      | '+' :: rest => rest
      | rest => rest
    if digits.isEmpty || !digits.all (Numeral.isDigitOf base) then none
    else
      let value := Numeral.valueOf base digits
      if repeatLimit < value then none else some (if value = 0 then none else some value)

def readRepeat : List SetCharacter → RepeatShape
  | first :: star :: rest =>
      if !star.isPlain '*' then .none
      else
        let inner := rest.takeWhile fun found => found.character != ']' && !found.escaped
        match rest.drop inner.length with
        | [] => .none
        | last :: behind =>
            if last.escaped then .none
            else match repeatCount? (plainText inner) with
              | some count => .found (.repeats first.character count) behind
              | none => .invalid (plainText inner)
  | _ => .none

def isStarCount : List SetCharacter → Bool
  | star :: rest =>
      star.isPlain '*'
        && ((rest.dropWhile fun found => found.character.isDigit).head?.any fun found =>
          found.isPlain ']')
  | [] => false

/-- What stands between brackets and delimiters. -/
inductive BracketShape where
  | none
  | found (part : SetPart) (rest : List SetCharacter)
  | invalid (text : Octets)

def readClass (behind : List SetCharacter) : BracketShape :=
  match behind with
  | delimiter :: rest =>
      let isClass := delimiter.isPlain ':'
      if !isClass && !delimiter.isPlain '=' then .none
      else match splitAtDelimiter delimiter.character rest with
        | none => .none
        | some ([], _) =>
            .invalid (if isClass then "missing character class name '[::]'".toList
              else "missing equivalence class character '[==]'".toList)
        | some (inner, behind) =>
            let text := plainText inner
            if isClass then
              match ByteClass.named? text with
              | some found => .found (.named found) behind
              | none =>
                  if isStarCount rest then .none
                  else .invalid ("invalid character class ".toList
                    ++ quotedText (printableText text))
            else match text with
              | [character] => .found (.equals character) behind
              | text =>
                  if isStarCount rest then .none
                  else .invalid (printableText text
                    ++ ": equivalence class operand must be a single character".toList)
  | [] => .none

/-- Reads the parts of a set. `fuel` bounds the number of characters. -/
def readParts : Nat → List SetCharacter → Except Octets (List SetPart)
  | 0, _ => .ok []
  | _, [] => .ok []
  | _ + 1, [first] => .ok [.single first.character]
  | _ + 1, [first, second] => .ok [.single first.character, .single second.character]
  | fuel + 1, first :: second :: third :: rest =>
      let behind := second :: third :: rest
      let plainly : Unit → Except Octets (List SetPart) := fun _ =>
        if second.isPlain '-' then
          if third.character < first.character then
            .error ("range-endpoints of '".toList ++ printable first.character ++ ['-']
              ++ printable third.character ++ "' are in reverse collating sequence order".toList)
          else do
            let later ← readParts fuel rest
            return .range first.character third.character :: later
        else do
          let later ← readParts fuel behind
          return .single first.character :: later
      if !first.isPlain '[' then plainly ()
      else match readClass behind with
        | .invalid text => .error text
        | .found part rest => do
            let later ← readParts fuel rest
            return part :: later
        | .none =>
            match readRepeat behind with
            | .invalid count =>
                .error ("invalid repeat count ".toList ++ quotedText (printableText count)
                  ++ " in [c*n] construct".toList)
            | .found part rest => do
                let later ← readParts fuel rest
                return part :: later
            | .none => plainly ()

/-- Reads a set, or says what is wrong with it; warnings come along. -/
def readSet (text : Octets) : List Octets × Except Octets (List SetPart) :=
  let (characters, warnings) := readSetCharacters (text.length + 1) text
  (warnings, readParts (characters.length + 1) characters)

def membersOf (parts : List SetPart) : List Char :=
  parts.flatMap SetPart.members

def sizeOf (parts : List SetPart) : Nat :=
  parts.foldl (fun size part => size + part.size) 0

end PipelineShell.Tool

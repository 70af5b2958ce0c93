import PipelineShell.Text.Octets

/-!
Whole numbers that a text begins with: blanks, a sign, and digits, in base eight behind a zero and
in base sixteen behind `0x`. A number that does not fit into 64 bits is replaced by the nearest
one that does.
-/

namespace PipelineShell

namespace Numeral

def digitOf (digit : Char) : Nat :=
  if digit.isDigit then digit.toNat - 48
  else if 'a' ≤ digit then digit.toNat - 87 else digit.toNat - 55

def isDigitOf (base : Nat) (character : Char) : Bool :=
  (character.isDigit || ('a' ≤ character && character ≤ 'f')
    || ('A' ≤ character && character ≤ 'F')) && digitOf character < base

def valueOf (base : Nat) (digits : Octets) : Nat :=
  digits.foldl (fun value digit => value * base + digitOf digit) 0

def isSpace (character : Char) : Bool :=
  character == ' ' || (9 ≤ character.toNat && character.toNat ≤ 13)

/-- A number that has been read. -/
structure Found where
  value : Int
  outOfRange : Bool
  /-- What stands behind the number. If there is no number, this is the whole text. -/
  rest : Octets
deriving DecidableEq, Repr

def magnitude? (text : Octets) : Option (Nat × Octets) :=
  let taken := fun (base : Nat) (text : Octets) =>
    (valueOf base (text.takeWhile (isDigitOf base)), text.dropWhile (isDigitOf base))
  match text with
  | '0' :: letter :: digit :: rest =>
      if (letter == 'x' || letter == 'X') && isDigitOf 16 digit then some (taken 16 (digit :: rest))
      else some (taken 8 text)
  | '0' :: _ => some (taken 8 text)
  | digit :: _ => if digit.isDigit then some (taken 10 text) else none
  | [] => none

def signed? (text : Octets) : Option (Bool × Nat × Octets) :=
  match text.dropWhile isSpace with
  | '-' :: rest => (magnitude? rest).map fun found => (true, found)
  | '+' :: rest => (magnitude? rest).map fun found => (false, found)
  | rest => (magnitude? rest).map fun found => (false, found)

def half : Nat := 9223372036854775808

def readSigned (text : Octets) : Found :=
  match signed? text with
  | none => ⟨0, false, text⟩
  | some (true, magnitude, rest) =>
      if half < magnitude then ⟨-half, true, rest⟩ else ⟨-magnitude, false, rest⟩
  | some (false, magnitude, rest) =>
      if half ≤ magnitude then ⟨half - 1, true, rest⟩ else ⟨magnitude, false, rest⟩

/-- Reads a number of 64 bits without a sign. One that is negative counts from the end. -/
def readUnsigned (text : Octets) : Found :=
  match signed? text with
  | none => ⟨0, false, text⟩
  | some (negative, magnitude, rest) =>
      if 2 * half ≤ magnitude then ⟨2 * half - 1, true, rest⟩
      else if negative && magnitude != 0 then ⟨2 * half - magnitude, false, rest⟩
      else ⟨magnitude, false, rest⟩

end Numeral

end PipelineShell

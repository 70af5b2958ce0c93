import PipelineShell.Tool.Quoting

/-!
Whole numbers as arguments of tools: decimal digits, perhaps with a letter behind them that
multiplies, as in `2k`.
-/

namespace PipelineShell.Tool

def greatestMagnitude : Nat := 18446744073709551615

def decimalValue (digits : List Char) : Nat :=
  digits.foldl (fun value digit => value * 10 + (digit.toNat - 48)) 0

def isSpaceCharacter (character : Char) : Bool :=
  character == ' ' || (9 ≤ character.toNat && character.toNat ≤ 13)

/-- Why an argument is no number. -/
inductive MagnitudeFault where
  | invalid
  | tooLarge
deriving DecidableEq, Repr

def suffixPower? : Char → Option Nat
  | 'k' => some 1
  | 'K' => some 1
  | 'm' => some 2
  | 'M' => some 2
  | 'g' => some 3
  | 'G' => some 3
  | 't' => some 4
  | 'T' => some 4
  | 'P' => some 5
  | 'E' => some 6
  | 'Z' => some 7
  | 'Y' => some 8
  | _ => none

/-- The factor of what stands behind the digits, if all of it is one. `paired` tells that a second
letter may choose between powers of 1000 and of 1024. -/
def suffixFactor? (allowed : List Char) (paired : Bool) : Octets → Option Nat
  | [] => some 1
  | letter :: rest =>
      if !allowed.contains letter then none
      else match letter, suffixPower? letter, rest with
        | 'b', _, [] => some 512
        | 'c', _, [] => some 1
        | 'w', _, [] => some 2
        | 'B', _, [] => some 1024
        | _, some power, [] => some (Nat.pow 1024 power)
        | _, some power, ['B'] => if paired then some (Nat.pow 1000 power) else none
        | _, some power, ['D'] => if paired then some (Nat.pow 1000 power) else none
        | _, some power, ['i', 'B'] => if paired then some (Nat.pow 1024 power) else none
        | _, _, _ => none

def splitNumber (text : Octets) : Octets × Octets :=
  let unsigned := match text.dropWhile isSpaceCharacter with
    | '+' :: rest => if rest.head?.any Char.isDigit then rest else '+' :: rest
    | rest => rest
  let digits := unsigned.takeWhile Char.isDigit
  (digits, unsigned.drop digits.length)

/-- Reads a number with a letter behind it. A letter alone multiplies one. -/
def readMagnitude (allowed : List Char) (paired : Bool) (text : Octets) :
    Except MagnitudeFault Nat :=
  let (digits, behind) := splitNumber text
  let value := if digits.isEmpty then 1 else decimalValue digits
  if digits.isEmpty && behind.isEmpty then .error .invalid
  else match suffixFactor? allowed paired behind with
    | none => .error .invalid
    | some factor =>
        if greatestMagnitude < value * factor then .error .tooLarge else .ok (value * factor)

def MagnitudeFault.complaint (fault : MagnitudeFault) (what text : Octets) : Octets :=
  what ++ ": ".toList ++ quotedText text ++
    match fault with
    | .invalid => []
    | .tooLarge => ": Value too large for defined data type".toList

end PipelineShell.Tool

/-!
Whole numbers in decimal notation, within bounds. The digits are read from the left, and the
first character that is no digit, or the first digit with which the bounds are left, decides.
-/

namespace PipelineShell.Decimal

/-- Why a text is no number within the bounds. -/
inductive Fault where
  | empty
  | invalidDigit
  | tooLarge
  | tooSmall
deriving DecidableEq, Repr

def Fault.message : Fault → String
  | .empty => "cannot parse integer from empty string"
  | .invalidDigit => "invalid digit found in string"
  | .tooLarge => "number too large to fit in target type"
  | .tooSmall => "number too small to fit in target type"

/-- An interval of whole numbers. -/
structure Bounds where
  least : Int
  greatest : Int
deriving DecidableEq, Repr

def Bounds.contains (bounds : Bounds) (value : Int) : Bool :=
  bounds.least ≤ value && value ≤ bounds.greatest

def digit? (character : Char) : Option Nat :=
  if character.isDigit then some (character.toNat - 48) else none

def readDigits (bounds : Bounds) (negative : Bool) (value : Int) :
    List Char → Except Fault Int
  | [] => .ok value
  | character :: rest =>
      match digit? character with
      | none => .error .invalidDigit
      | some digit =>
          let value := if negative then value * 10 - digit else value * 10 + digit
          if bounds.greatest < value then .error .tooLarge
          else if value < bounds.least then .error .tooSmall
          else readDigits bounds negative value rest

def readCharacters (bounds : Bounds) : List Char → Except Fault Int
  | [] => .error .empty
  | ['+'] => .error .invalidDigit
  | ['-'] => .error .invalidDigit
  | '+' :: rest => readDigits bounds false 0 rest
  | '-' :: rest => readDigits bounds true 0 rest
  | characters => readDigits bounds false 0 characters

def read (bounds : Bounds) (text : String) : Except Fault Int :=
  readCharacters bounds text.toList

def signed32 : Bounds :=
  ⟨-2147483648, 2147483647⟩

def signed64 : Bounds :=
  ⟨-9223372036854775808, 9223372036854775807⟩

end PipelineShell.Decimal

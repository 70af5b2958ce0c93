import PipelineShell.Script.Interpreter
import PipelineShell.Text.Layout
import PipelineShell.Tool.Echo

/-!
The builtins that print: `echo`, which always carries out escapes, and `printf`, whose format is
run over again until its operands are used up. Zeros are characters like others.
-/

namespace PipelineShell.Script

open Tool (escapedCharacter? digitsWithin ofValue)

/-! ### Escapes -/

/-- Reads an escape of a format behind its backslash. What means nothing is kept. -/
def readEscape (text : Octets) : Char × Octets :=
  match text with
  | [] => ('\\', [])
  | letter :: rest =>
      if Numeral.isDigitOf 8 letter then
        let (value, left) := digitsWithin 8 3 text
        (ofValue value, left)
      else match escapedCharacter? letter with
        | some character => (character, rest)
        | none => ('\\', text)

/-- Reads an escape of an operand behind its backslash: a zero in front of octal digits does not
count as one of the three. -/
def readOperandEscape : Octets → Char × Octets
  | '0' :: digit :: rest =>
      if Numeral.isDigitOf 8 digit then readEscape (digit :: rest)
      else readEscape ('0' :: digit :: rest)
  | text => readEscape text

/-- An operand with its escapes carried out, and whether printing goes on behind it. `fuel` bounds
the number of characters. -/
def escapedWithin : Nat → Octets → Octets → Octets × Bool
  | 0, found, _ => (found.reverse, true)
  | _ + 1, found, [] => (found.reverse, true)
  | fuel + 1, found, '\\' :: rest =>
      if rest.head? == some 'c' then (found.reverse, false)
      else
        let (character, rest) := readOperandEscape rest
        escapedWithin fuel (character :: found) rest
  | fuel + 1, found, character :: rest => escapedWithin fuel (character :: found) rest

def escaped (text : Octets) : Octets × Bool :=
  escapedWithin text.length [] text

/-! ### Plain printing -/

def printAll (lineFeed : Bool) : List Octets → Run Unit
  | [] => if lineFeed then print ['\n'] else return ()
  | word :: rest => do
      let (text, goesOn) := escaped word
      let behind := if !rest.isEmpty then [' '] else if lineFeed then ['\n'] else []
      print (if goesOn then text ++ behind else text)
      if goesOn && !rest.isEmpty then
        printAll lineFeed rest

def echoStatus (operands : List Octets) : Run Int := do
  if operands.head? == some "-n".toList then printAll false operands.tail
  else printAll true operands
  return 0

/-! ### Formats -/

/-- Where a width or a precision comes from. -/
inductive Extent where
  | absent
  | given (value : Nat)
  | operand
deriving DecidableEq, Repr

/-- A conversion of a format. -/
structure Conversion where
  layout : Layout
  width : Extent
  precision : Extent
  letter : Option Char
  spelling : Octets
deriving DecidableEq, Repr

def readExtent (default : Extent) (text : Octets) : Extent × Octets :=
  match text with
  | '*' :: rest => (.operand, rest)
  | text =>
      let digits := text.takeWhile Char.isDigit
      (if digits.isEmpty then default else .given (Numeral.valueOf 10 digits),
        text.drop digits.length)

def extentLength (text : Octets) : Nat :=
  if text.head? == some '*' then 1
  else (text.takeWhile fun character => character == '*' || character.isDigit).length

def readConversion (text : Octets) : Conversion × Octets :=
  let flags := text.takeWhile "#-+ 0".toList.contains
  let layout := flags.foldl (fun layout mark => (layout.withFlag? mark).getD layout) Layout.plain
  let behind := text.drop flags.length
  let (width, _) := readExtent .absent behind
  let behind := behind.drop (extentLength behind)
  let (precision, behind) := match behind with
    | '.' :: rest => ((readExtent (.given 0) rest).1, rest.drop (extentLength rest))
    | behind => (.absent, behind)
  let spelling := '%' :: text.take (text.length - behind.length + 1)
  (⟨layout, width, precision, behind.head?, spelling⟩, behind.tail)

/-- The operands that are left, and whether all before them were what they should be. -/
structure Operands where
  left : List Octets
  sound : Bool
deriving DecidableEq, Repr

abbrev Formatting := StateT Operands Run

def nextOperand : Formatting (Option Octets) := do
  let operands ← get
  set { operands with left := operands.left.tail }
  return operands.left.head?

def complainOf (operand : Octets) (what : String) : Formatting Unit := do
  warn (operand ++ ": ".toList ++ what.toList)
  modify fun operands => { operands with sound := false }

def checkNumber (operand : Octets) (outOfRange : Bool) (rest : Octets) : Formatting Unit := do
  if !rest.isEmpty then
    complainOf operand (if rest.length = operand.length then "expected numeric value"
      else "not completely converted")
  else if outOfRange then
    complainOf operand Errno.outOfRange.text

def quotedCode? : Octets → Option Nat
  | mark :: rest =>
      if mark == '"' || mark == Char.ofNat 0x27 then
        some ((rest.head?.map Char.toNat).getD 0)
      else none
  | [] => none

/-- The whole number of an operand. A missing one is zero. -/
def wholeOf (readNumber : Octets → Numeral.Found) : Formatting Int := do
  match ← nextOperand with
  | none => return 0
  | some operand =>
      match quotedCode? operand with
      | some code => return code
      | none =>
          let found := readNumber operand
          checkNumber operand found.outOfRange found.rest
          return found.value

/-- The floating-point number of an operand. A missing one is zero. -/
def floatingOf : Formatting Floating := do
  match ← nextOperand with
  | none => return .finite false 0 0
  | some operand =>
      match quotedCode? operand with
      | some code => return .finite false code 0
      | none =>
          match Floating.read? .double operand with
          | some ((number, outOfRange), rest) =>
              checkNumber operand outOfRange rest
              return number
          | none =>
              checkNumber operand false operand
              return .finite false 0 0

def narrowed (value : Int) : Int :=
  value.bmod 4294967296

def takeExtent : Extent → Formatting (Option Int)
  | .absent => return none
  | .given value => return some value
  | .operand => return some (narrowed (← wholeOf Numeral.readSigned))

/-- Prints an operand as a conversion says; the value tells whether printing goes on. -/
def printConverted (conversion : Conversion) : Formatting Bool := do
  let width ← takeExtent conversion.width
  let precision ← takeExtent conversion.precision
  let layout := conversion.layout.withWidth (width.getD 0)
  let layout := { layout with
    precision := precision.bind fun value => if value < 0 then none else some value.toNat }
  match conversion.letter with
  | none => fail "missing format character".toList
  | some 'b' =>
      let (text, goesOn) := escaped ((← nextOperand).getD [])
      print (layout.text text)
      return goesOn
  | some 'c' =>
      let operand := (← nextOperand).getD []
      print (layout.character (operand.headD (Char.ofNat 0)))
      return true
  | some 's' =>
      print (layout.text ((← nextOperand).getD []))
      return true
  | some letter =>
      if letter == 'd' || letter == 'i' then
        print (layout.signed (← wholeOf Numeral.readSigned))
      else if "ouxX".toList.contains letter then
        print (layout.unsigned letter (← wholeOf Numeral.readUnsigned).toNat)
      else if "aAeEfFgG".toList.contains letter then
        print (layout.floating .double letter (← floatingOf))
      else fail (conversion.spelling ++ ": invalid directive".toList)
      return true

/-- Prints a format once; the value tells whether printing goes on. `fuel` bounds the number of
characters. -/
def printOnce : Nat → Octets → Formatting Bool
  | 0, _ => return true
  | _ + 1, [] => return true
  | fuel + 1, '\\' :: rest => do
      let (character, rest) := readEscape rest
      print [character]
      printOnce fuel rest
  | fuel + 1, '%' :: '%' :: rest => do
      print ['%']
      printOnce fuel rest
  | fuel + 1, '%' :: rest => do
      let (conversion, rest) := readConversion rest
      if ← printConverted conversion then printOnce fuel rest else return false
  | fuel + 1, character :: rest => do
      print [character]
      printOnce fuel rest

/-- Prints a format over and over, until the operands are used up or none are used. `fuel` bounds
the number of operands. -/
def printFormat (format : Octets) : Nat → Formatting Unit
  | 0 => return ()
  | fuel + 1 => do
      let before := (← get).left.length
      if ← printOnce format.length format then
        let after := (← get).left.length
        if after < before && 0 < after then
          printFormat format fuel

def printfStatus (operands : List Octets) : Run Int := do
  match operands with
  | [] => fail "usage: printf format [arg ...]".toList
  | format :: operands =>
      let ((), after) ← (printFormat format (operands.length + 1)).run ⟨operands, true⟩
      return if after.sound then 0 else 1

end PipelineShell.Script

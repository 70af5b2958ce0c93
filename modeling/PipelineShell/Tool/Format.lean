import PipelineShell.Text.Layout
import PipelineShell.Tool.Echo
import PipelineShell.Tool.Quoting

/-!
The tool that prints a format. The format is run over again until its operands are used up; a
missing operand counts as empty. What is wrong with an operand does not stop the printing, what is
wrong with the format does.
-/

namespace PipelineShell.Tool

/-! ### Formats -/

/-- Where a width or a precision comes from. -/
inductive Extent where
  | absent
  | given (value : Nat)
  | operand
deriving DecidableEq, Repr

/-- A part of a format. -/
inductive FormatPart where
  | character (character : Char)
  | stop
  | fault (text : Octets)
  | escaped
  | quoted
  | converted (layout : Layout) (width precision : Extent) (letter : Char)
  | misconverted (width precision : Extent) (spelling : Octets)
deriving DecidableEq, Repr

def noDigits : FormatPart :=
  .fault "missing hexadecimal number in escape".toList

def isRefusedCode (code : Nat) : Bool :=
  (code ≤ 0x9f && code != 0x24 && code != 0x40 && code != 0x60)
    || (0xd800 ≤ code && code ≤ 0xdfff)

def hexadecimalDigits (count value : Nat) : Octets :=
  let digits := Nat.toDigits 16 value
  List.replicate (count - digits.length) '0' ++ digits

def codeCharacter (code : Nat) : List FormatPart :=
  if code < 0x80 then [.character (Char.ofNat code)]
  else
    let (letter, count) := if code < 0x10000 then ('u', 4) else ('U', 8)
    ('\\' :: letter :: (hexadecimalDigits count code).map Char.toUpper).map .character

/-- Reads an escape behind its backslash; `leadingZero` tells that a zero in front of octal digits
does not count as one of the three. -/
def readEscape (leadingZero : Bool) : Octets → List FormatPart × Octets
  | [] => ([.character '\\'], [])
  | letter :: rest =>
      if letter == 'x' then
        let (value, left) := digitsWithin 16 2 rest
        if left.length = rest.length then ([noDigits], []) else ([.character (ofValue value)], left)
      else if Numeral.isDigitOf 8 letter then
        let (value, left) := digitsWithin 8 3
          (if leadingZero && letter == '0' then rest else letter :: rest)
        ([.character (ofValue value)], left)
      else if letter == '"' then ([.character letter], rest)
      else if letter == 'c' then ([.stop], [])
      else if letter == 'u' || letter == 'U' then
        let count := if letter == 'u' then 4 else 8
        let (code, left) := digitsWithin 16 count rest
        if left.length + count != rest.length then ([noDigits], [])
        else if isRefusedCode code then
          ([.fault ("invalid universal character name \\".toList ++ letter
            :: hexadecimalDigits count code)], [])
        else (codeCharacter code, left)
      else match escapedCharacter? letter with
        | some character => ([.character character], rest)
        | none => ([.character '\\', .character letter], rest)

/-- Reads a text with its escapes. `fuel` bounds the number of characters. -/
def readEscapes : Nat → Octets → List FormatPart
  | 0, _ => []
  | _, [] => []
  | fuel + 1, '\\' :: rest =>
      let (found, rest) := readEscape true rest
      found ++ readEscapes fuel rest
  | fuel + 1, character :: rest => .character character :: readEscapes fuel rest

def lettersBehind (flags : Octets) : Octets :=
  "aAcdeEfFgGiosuxX".toList.filter fun letter => flags.all fun mark =>
    !((mark == '#' && "cdisu".toList.contains letter)
      || (mark == '0' && "cs".toList.contains letter)
      || ((mark == quoteMark || mark == 'I') && "aAceEosxX".toList.contains letter))

def isFlag (character : Char) : Bool :=
  "I-+ #0".toList.contains character || character == quoteMark

def readExtent (default : Extent) (text : Octets) : Extent × Octets :=
  match text with
  | '*' :: rest => (.operand, rest)
  | text =>
      let digits := text.takeWhile Char.isDigit
      (if digits.isEmpty then default else .given (Numeral.valueOf 10 digits),
        text.drop digits.length)

def readConversion (text : Octets) : FormatPart × Octets :=
  match text with
  | '%' :: rest => (.character '%', rest)
  | 'b' :: rest => (.escaped, rest)
  | 'q' :: rest => (.quoted, rest)
  | _ =>
      let flags := text.takeWhile isFlag
      let layout := flags.foldl (fun layout mark => (layout.withFlag? mark).getD layout)
        Layout.plain
      let (width, rest) := readExtent .absent (text.drop flags.length)
      let (precision, rest) := match rest with
        | '.' :: rest => readExtent (.given 0) rest
        | rest => (.absent, rest)
      let rest := rest.dropWhile "lLhjtz".toList.contains
      let allowed := (lettersBehind flags).filter fun letter =>
        letter != 'c' || precision == .absent
      match rest with
      | letter :: behind =>
          if allowed.contains letter then (.converted layout width precision letter, behind)
          else (.misconverted width precision (text.take (text.length - behind.length)), [])
      | [] => (.misconverted width precision text, [])

/-- Reads a format. `fuel` bounds the number of characters. -/
def readFormat : Nat → Octets → List FormatPart
  | 0, _ => []
  | _, [] => []
  | fuel + 1, '%' :: rest =>
      let (found, rest) := readConversion rest
      found :: readFormat fuel rest
  | fuel + 1, '\\' :: rest =>
      let (found, rest) := readEscape false rest
      found ++ readFormat fuel rest
  | fuel + 1, character :: rest => .character character :: readFormat fuel rest

/-! ### Operands -/

/-- The operands that are left, and whether all before them were what they should be. -/
structure Operands where
  left : List Octets
  sound : Bool
deriving DecidableEq, Repr

abbrev Formatting := StateT Operands Work

def nextOperand : Formatting (Option Octets) := do
  let operands ← get
  set { operands with left := operands.left.tail }
  return operands.left.head?

def complainOf (text : Octets) : Formatting Unit := do
  complain text
  modify fun operands => { operands with sound := false }

def checkNumber (operand : Octets) (outOfRange : Bool) (rest : Octets) : Formatting Unit := do
  if outOfRange then
    complainOf (becauseOf (quotedText operand) .outOfRange)
  else if !rest.isEmpty then
    complainOf (quotedText operand ++ (if rest.length = operand.length
      then ": expected a numeric value" else ": value not completely converted").toList)

/-- The number of an operand: the code of the character behind a quote, or a number that is
read. -/
def numberOf {α : Type} (code : Nat → α) (read : Octets → Formatting α) (operand : Octets) :
    Formatting α := do
  match operand with
  | mark :: character :: rest =>
      if mark == '"' || mark == quoteMark then
        if !rest.isEmpty then
          complain ("warning: ".toList ++ rest
            ++ ": character(s) following character constant have been ignored".toList)
        return code character.toNat
      else read operand
  | _ => read operand

def wholeOf (readNumber : Octets → Numeral.Found) : Octets → Formatting Int :=
  numberOf Int.ofNat fun operand => do
    let found := readNumber operand
    checkNumber operand found.outOfRange found.rest
    return found.value

def floatingOf : Octets → Formatting Floating :=
  numberOf (fun code => .finite false code 0) fun operand => do
    match Floating.read? .extended operand with
    | some ((number, outOfRange), rest) =>
        checkNumber operand outOfRange rest
        return number
    | none =>
        checkNumber operand false operand
        return .finite false 0 0

/-! ### Printing -/

def greatestExtent : Int := 2147483647

def takeExtent (least : Int) (what : String) : Extent → Formatting (Option Int)
  | .absent => return none
  | .given value => return some value
  | .operand => do
      match ← nextOperand with
      | none => return some 0
      | some operand =>
          let value ← wholeOf Numeral.readSigned operand
          if value < least || greatestExtent < value then
            giveUp 1 (what.toList ++ quotedText operand)
          else return some value

def printConverted (layout : Layout) (letter : Char) : Formatting Unit := do
  let operand := (← nextOperand).getD []
  match letter with
  | 'c' => put (layout.character (operand.headD (Char.ofNat 0)))
  | 's' => put (layout.text operand)
  | letter =>
      if letter == 'd' || letter == 'i' then
        put (layout.signed (← wholeOf Numeral.readSigned operand))
      else if "ouxX".toList.contains letter then
        put (layout.unsigned letter (← wholeOf Numeral.readUnsigned operand).toNat)
      else put (layout.floating .extended letter (← floatingOf operand))

/-- Prints an operand with its escapes carried out; the value tells whether printing goes on. -/
def printParts : List FormatPart → Formatting Unit
  | [] => return ()
  | .character character :: rest => do
      put [character]
      printParts rest
  | .fault text :: _ => giveUp 1 text
  | _ :: _ => leave 0

def takeExtents (width precision : Extent) : Formatting (Option Int × Option Int) := do
  let width ← takeExtent (-greatestExtent - 1) "invalid field width: " width
  let precision ← takeExtent (-Numeral.half) "invalid precision: " precision
  return (width, precision)

def printPart : FormatPart → Formatting Unit
  | .escaped => do
      let operand := (← nextOperand).getD []
      printParts (readEscapes operand.length operand)
  | .quoted => do
      match ← nextOperand with
      | none => return ()
      | some operand => put (bareName operand)
  | .converted layout width precision letter => do
      let (width, precision) ← takeExtents width precision
      if greatestExtent ≤ (width.getD 0).natAbs || greatestExtent ≤ precision.getD 0 then
        giveUp 1 "cannot perform formatted output: Value too large for defined data type".toList
      else
        let layout := layout.withWidth (width.getD 0)
        let precision := precision.bind fun value => if value < 0 then none else some value.toNat
        printConverted { layout with precision } letter
  | .misconverted width precision spelling => do
      let _ ← takeExtents width precision
      giveUp 1 ('%' :: spelling ++ ": invalid conversion specification".toList)
  | part => printParts [part]

/-- Prints a format over and over, until the operands are used up or none are used. `fuel` bounds
the number of operands. -/
def printFormat (parts : List FormatPart) : Nat → Formatting Unit
  | 0 => return ()
  | fuel + 1 => do
      let before := (← get).left.length
      parts.forM printPart
      let after := (← get).left.length
      if after < before && 0 < after then
        printFormat parts fuel

def printfWork (arguments : List Octets) : Work Int := do
  let operands := if arguments.head? == some "--".toList then arguments.tail else arguments
  if arguments == ["--help".toList] || arguments == ["--version".toList] then return 0
  else match operands with
    | [] => misuse 1 "missing operand".toList
    | format :: operands =>
        let parts := readFormat format.length format
        let ((), after) ← (printFormat parts (operands.length + 1)).run ⟨operands, true⟩
        match after.left with
        | [] => return exitCode after.sound
        | excess :: _ =>
            complain ("warning: ignoring excess arguments, starting with ".toList
              ++ quotedText excess)
            return exitCode after.sound

end PipelineShell.Tool

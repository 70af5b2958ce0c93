import PipelineShell.Tool.Choice
import PipelineShell.Tool.Input
import PipelineShell.Tool.Magnitude
import PipelineShell.Tool.SortKey

/-!
What the tool that sorts lines is asked for: its options, and the descriptions of its keys in the
usual form and in an old one.
-/

namespace PipelineShell.Tool

/-- What `sort` is asked for. -/
structure SortRequest where
  order : SortOrder
  keys : List SortKey
  separator : Option Char
  check : Option Char
  merge : Bool
  unique : Bool
  stable : Bool
  terminator : UInt8
  output : Option Octets
  inputs : List Octets
  namesFrom : Option Octets
  compressor : Option Octets
  randomSource : Option Octets
  seed : List UInt8
  explains : Bool
deriving DecidableEq, Repr

def SortRequest.standard : SortRequest :=
  ⟨.plain, [], none, none, false, false, false, 0x0a, none, [], none, none, none, [], false⟩

def sortFailure : Int := 2

/-! ### Options -/

def orderNames : List (String × Char) :=
  [("general-numeric", 'g'), ("human-numeric", 'h'), ("month", 'M'), ("numeric", 'n'),
    ("random", 'R'), ("version", 'V')]

def checkNames : List (String × Char) :=
  [("quiet", 'C'), ("silent", 'C'), ("diagnose-first", 'c')]

def sortOptions : List OptionKind :=
  [flag 'b' "ignore-leading-blanks", ⟨"check", none, "check", .optional⟩,
    longValued "compress-program", longFlag "debug", flag 'd' "dictionary-order",
    flag 'f' "ignore-case", longValued "files0-from", flag 'g' "general-numeric-sort",
    flag 'i' "ignore-nonprinting", valued 'k' "key", flag 'm' "merge", flag 'M' "month-sort",
    flag 'n' "numeric-sort", flag 'h' "human-numeric-sort", flag 'V' "version-sort",
    flag 'R' "random-sort", longValued "random-source", longValued "sort", valued 'o' "output",
    flag 'r' "reverse", flag 's' "stable", longValued "batch-size", longValued "buffer-size",
    valued 't' "field-separator", valued 'T' "temporary-directory", flag 'u' "unique",
    flag 'z' "zero-terminated", longValued "parallel", letterFlag 'c', letterFlag 'C',
    ⟨"S", some 'S', none, .required⟩, ⟨"y", some 'y', none, .required⟩]

def orderLetters : List Char :=
  "bdfgiMnhVRr".toList

def readCount? (text : Octets) : Option (Nat × Octets) :=
  let unsigned := match text.dropWhile Numeral.isSpace with
    | '+' :: rest => rest
    | rest => rest
  let digits := unsigned.takeWhile Char.isDigit
  if digits.isEmpty then none
  else some (Numeral.valueOf 10 digits, unsigned.drop digits.length)

/-- The number that a text begins with; `what` is said if there is none. -/
def readCount (what : String) (text : Octets) : Work (Nat × Octets) :=
  match readCount? text with
  | some found => return found
  | none =>
      giveUp sortFailure (what.toList ++ ": invalid count at start of ".toList ++ quotedText text)

def refuseKey {α : Type} (what : String) (text : Octets) : Work α :=
  giveUp sortFailure (what.toList ++ ": invalid field specification ".toList ++ quotedText text)

def readKeyStart (text : Octets) : Work (SortKey × Octets) := do
  let (field, rest) ← readCount "invalid number at field start" text
  if field = 0 then
    refuseKey "field number is zero" text
  let (character, rest) ← match rest with
    | '.' :: rest => do
        let (character, rest) ← readCount "invalid number after '.'" rest
        if character = 0 then
          refuseKey "character offset is zero" text
        pure (character - 1, rest)
    | rest => pure (0, rest)
  let first := if field = 1 && character = 0 then none else some (field - 1)
  let (order, rest) := SortOrder.plain.withLetters true false rest
  return (⟨order, first, character, none, 0, false⟩, rest)

def readKey (text : Octets) : Work SortKey := do
  let (key, rest) ← readKeyStart text
  let (key, rest) ← match rest with
    | ',' :: rest => do
        let (field, rest) ← readCount "invalid number after ','" rest
        if field = 0 then
          refuseKey "field number is zero" text
        let (characters, rest) ← match rest with
          | '.' :: rest => readCount "invalid number after '.'" rest
          | rest => pure (0, rest)
        let (order, rest) := key.order.withLetters false true rest
        pure ({ key with order, lastField := some (field - 1), lastCharacters := characters },
          rest)
    | rest => pure (key, rest)
  if rest.isEmpty then return key else refuseKey "stray character in field spec" text

def readSeparator (text : Octets) : Work Char :=
  match text with
  | [] => giveUp sortFailure "empty tab".toList
  | [separator] => return separator
  | ['\\', '0'] => return Char.ofNat 0
  | text => giveUp sortFailure ("multi-character tab ".toList ++ quotedText text)

/-! ### Sizes -/

/-- Why an argument is no size. -/
inductive SizeFault where
  | invalid
  | suffix
  | tooLarge
deriving DecidableEq, Repr

def SizeFault.refuse {α : Type} (fault : SizeFault) (option : String) (text : Octets) : Work α :=
  let shown := option.toList ++ " argument '".toList ++ text ++ [quoteMark]
  giveUp sortFailure (match fault with
    | .invalid => "invalid ".toList ++ shown
    | .suffix => "invalid suffix in ".toList ++ shown
    | .tooLarge => shown ++ " too large".toList)

def sizeSuffixes : List Char :=
  "EgGkKmMPtTYZ".toList

/-- Reads a number that one of the letters may multiply. A letter alone multiplies one. -/
def readSize (allowed : List Char) (text : Octets) : Except SizeFault Nat :=
  let (digits, behind) := splitNumber text
  let isLetter := fun (letter : Char) => allowed.contains letter
  if digits.isEmpty && !text.head?.any isLetter then .error .invalid
  else
    let value := if digits.isEmpty then 1 else decimalValue digits
    let factor? := match behind with
      | [] => some 1
      | [letter] => if isLetter letter then (suffixPower? letter).map (Nat.pow 1024) else none
      | _ => none
    match factor? with
    | none => .error .suffix
    | some factor => if greatestMagnitude < value * factor then .error .tooLarge
      else .ok (value * factor)

/-- What is wrong with the size of a buffer, if anything is: without a letter it is in units of
1024 bytes, and it may be in bytes or in hundredths of the memory. -/
def bufferFault? (text : Octets) : Option SizeFault :=
  let (digits, behind) := splitNumber text
  let value := decimalValue digits
  let fits := fun (size : Nat) => if greatestMagnitude < size then some SizeFault.tooLarge else none
  if digits.isEmpty || greatestMagnitude < value then
    match readSize sizeSuffixes text with
    | .ok _ => none
    | .error fault => some fault
  else match behind with
    | [] => fits (value * 1024)
    | ['b'] => none
    | ['%'] => fits (value * memorySize / 100)
    | _ =>
        match readSize sizeSuffixes text with
        | .ok _ => none
        | .error fault => some fault
where
  memorySize : Nat := Nat.pow 2 34

def checkBuffer (option : String) (text : Octets) : Work Unit :=
  match bufferFault? text with
  | none => return ()
  | some fault => fault.refuse option text

def checkParallel (text : Octets) : Work Unit :=
  match readSize [] text with
  | .ok 0 => giveUp sortFailure "number in parallel must be nonzero".toList
  | .ok _ => return ()
  | .error .tooLarge => return ()
  | .error fault => fault.refuse "--parallel" text

def greatestBatch : Nat := 1048573

def checkBatch (text : Octets) : Work Unit := do
  let tooLarge := do
    complain ("--batch-size argument ".toList ++ quotedText text ++ " too large".toList)
    giveUp sortFailure ("maximum --batch-size argument with current rlimit is ".toList
      ++ Octets.ofNumber greatestBatch)
  match readSize [] text with
  | .ok size =>
      if size < 2 then
        complain ("invalid --batch-size argument ".toList ++ quotedText text)
        giveUp sortFailure ("minimum --batch-size argument is ".toList ++ quotedText ['2'])
      else if greatestBatch < size then tooLarge
  | .error .tooLarge => tooLarge
  | .error fault => fault.refuse "--batch-size" text

def refuseTogether {α : Type} (letters : Octets) : Work α :=
  giveUp sortFailure ("options '-".toList ++ letters ++ "' are incompatible".toList)

namespace SortRequest

def withOrder (request : SortRequest) (letter : Char) : SortRequest :=
  { request with order := (request.order.withLetters true true [letter]).1 }

def chooseCheck (request : SortRequest) (letter : Char) : Work SortRequest :=
  if request.check.any (· != letter) then refuseTogether ['c', 'C']
  else return { request with check := some letter }

def letterOf? (key : String) : Option Char :=
  (sortOptions.findSome? fun kind => if kind.key == key then kind.letter else none).filter
    orderLetters.contains

def choose (request : SortRequest) (key : String) (value : Option Octets) :
    Work SortRequest := do
  let text := value.getD []
  match key with
  | "sort" => return request.withOrder (← chooseName "--sort" orderNames text)
  | "c" => request.chooseCheck 'c'
  | "C" => request.chooseCheck 'C'
  | "check" =>
      match value with
      | none => request.chooseCheck 'c'
      | some name => request.chooseCheck (← chooseName "--check" checkNames name)
  | "key" => return { request with keys := request.keys ++ [← readKey text] }
  | "merge" => return { request with merge := true }
  | "output" =>
      if request.output.any (· != text) then
        giveUp sortFailure "multiple output files specified".toList
      else return { request with output := some text }
  | "stable" => return { request with stable := true }
  | "field-separator" =>
      let separator ← readSeparator text
      if request.separator.any (· != separator) then
        giveUp sortFailure "incompatible tabs".toList
      else return { request with separator := some separator }
  | "S" => do
      checkBuffer "-S" text
      return request
  | "buffer-size" => do
      checkBuffer "--buffer-size" text
      return request
  | "parallel" => do
      checkParallel text
      return request
  | "batch-size" => do
      checkBatch text
      return request
  | "compress-program" =>
      if request.compressor.any (· != text) then
        giveUp sortFailure "multiple compress programs specified".toList
      else return { request with compressor := some text }
  | "random-source" =>
      if request.randomSource.any (· != text) then
        giveUp sortFailure "multiple random sources specified".toList
      else return { request with randomSource := some text }
  | "debug" => return { request with explains := true }
  | "files0-from" => return { request with namesFrom := some text }
  | "unique" => return { request with unique := true }
  | "zero-terminated" => return { request with terminator := 0 }
  | key =>
      match letterOf? key with
      | some letter => return request.withOrder letter
      | none => return request

def oldKey? (text : Octets) : Option SortKey := do
  let (field, rest) ← readCount? text
  let (character, rest) ← match rest with
    | '.' :: rest => readCount? rest
    | rest => some (0, rest)
  let first := if field = 0 && character = 0 then none else some field
  let (order, rest) := SortOrder.plain.withLetters true false rest
  if rest.isEmpty then some ⟨order, first, character, none, 0, true⟩ else none

def endOldKey (key : SortKey) (text : Octets) : Work SortKey := do
  let (field, rest) ← readCount "invalid number after '-'" text.tail
  let (characters, rest) ← match rest with
    | '.' :: rest => readCount "invalid number after '.'" rest
    | rest => pure (0, rest)
  let last := if characters = 0 && field != 0 then field - 1 else field
  let (order, rest) := key.order.withLetters false true rest
  if rest.isEmpty then
    return { key with order, lastField := some last, lastCharacters := characters }
  else refuseKey "stray character in field spec" text

/-- Takes an operand: a key in the old form, or an input. The value tells what is left of the
arguments behind it. -/
def takeOperand (request : SortRequest) (operand : Octets) (rest : List Octets) :
    Work (SortRequest × List Octets) := do
  let key := if operand.head? == some '+' then oldKey? operand.tail else none
  match key, rest with
  | none, rest => return ({ request with inputs := request.inputs ++ [operand] }, rest)
  | some key, next :: behind =>
      let ended := next.head? == some '-' && next.tail.head?.any Char.isDigit
      if ended then
        return ({ request with keys := request.keys ++ [← endOldKey key next] }, behind)
      else return ({ request with keys := request.keys ++ [key] }, rest)
  | some key, [] => return ({ request with keys := request.keys ++ [key] }, [])

/-- The argument that has been taken for the value of a letter which means nothing, and is none;
`rest` are the arguments behind the letter. -/
def takenBack (found : List Argument) (rest : List Octets) : List Octets :=
  match found.getLast?, rest with
  | some (.option "y" value), next :: _ =>
      if value == next && !value.all Char.isDigit then [value] else []
  | _, _ => []

/-- Takes the arguments in order. `fuel` bounds their number. -/
def take (known : List OptionKind) : Nat → SortRequest → List Octets → Work SortRequest
  | 0, request, _ => return request
  | _, request, [] => return request
  | fuel + 1, request, argument :: rest => do
      match argument with
      | ['-', '-'] => return { request with inputs := request.inputs ++ rest }
      | '-' :: letter :: behind =>
          let (found, left) :=
            if letter == '-' then readLong known behind rest
            else readLetters known rest (letter :: behind)
          let (request, _) ← takeArguments sortFailure choose request found
          take known fuel request (takenBack found rest ++ left)
      | operand =>
          let (request, rest) ← request.takeOperand operand rest
          take known fuel request rest

/-- The keys in force: those that tell no order have that of the request, and without keys the
whole line is one if it is ordered in any way but by its bytes. -/
def activeKeys (request : SortRequest) : List SortKey :=
  if request.keys.isEmpty then
    if request.order.isPlain then [] else [⟨request.order, none, 0, none, 0, false⟩]
  else request.keys.map fun key =>
    if key.order == .plain then { key with order := request.order } else key

end SortRequest

end PipelineShell.Tool

import PipelineShell.Text.Digest
import PipelineShell.Text.Floating
import PipelineShell.Text.Numeral

/-!
The keys by which lines are sorted: which part of a line a key is, and how two keys compare. A
field is what stands between separators, or, without a separator, blanks and what follows them.
-/

namespace PipelineShell.Tool

/-- The characters of a key that do not count. -/
inductive Disregard where
  | nothing
  | unprinted
  | marks
deriving DecidableEq, Repr

/-- How keys are ordered. -/
structure SortOrder where
  skipAtStart : Bool
  skipAtEnd : Bool
  disregard : Disregard
  folded : Bool
  numeric : Bool
  general : Bool
  human : Bool
  month : Bool
  random : Bool
  version : Bool
  reverse : Bool
deriving DecidableEq, Repr

/-- A part of a line, from a place on to another. Fields and characters count from zero. -/
structure SortKey where
  order : SortOrder
  firstField : Option Nat
  firstCharacter : Nat
  lastField : Option Nat
  /-- How many characters of the last field belong to the key; all if there are none. -/
  lastCharacters : Nat
  isOld : Bool
deriving DecidableEq, Repr

namespace SortOrder

def plain : SortOrder :=
  ⟨false, false, .nothing, false, false, false, false, false, false, false, false⟩

def isNumeric (order : SortOrder) : Bool :=
  order.numeric || order.general || order.human

def isPlain (order : SortOrder) : Bool :=
  { order with reverse := false } == plain

/-- The order with a letter chosen, if it is one; `atStart` and `atEnd` tell which blanks the
letter for blanks means. -/
def withLetter? (order : SortOrder) (atStart atEnd : Bool) (letter : Char) : Option SortOrder :=
  match letter with
  | 'b' => some { order with
      skipAtStart := order.skipAtStart || atStart, skipAtEnd := order.skipAtEnd || atEnd }
  | 'd' => some { order with disregard := .marks }
  | 'f' => some { order with folded := true }
  | 'g' => some { order with general := true }
  | 'h' => some { order with human := true }
  | 'i' => some { order with
      disregard := if order.disregard = .nothing then .unprinted else order.disregard }
  | 'M' => some { order with month := true }
  | 'n' => some { order with numeric := true }
  | 'R' => some { order with random := true }
  | 'r' => some { order with reverse := true }
  | 'V' => some { order with version := true }
  | _ => none

def withLetters (order : SortOrder) (atStart atEnd : Bool) : Octets → SortOrder × Octets
  | [] => (order, [])
  | letter :: rest =>
      match order.withLetter? atStart atEnd letter with
      | some order => order.withLetters atStart atEnd rest
      | none => (order, letter :: rest)

def letters (order : SortOrder) : Octets :=
  let chosen := fun (isChosen : Bool) (letter : Char) => if isChosen then [letter] else []
  chosen (order.disregard = .marks) 'd' ++ chosen order.folded 'f' ++ chosen order.general 'g'
    ++ chosen order.human 'h' ++ chosen (order.disregard = .unprinted) 'i'
    ++ chosen order.month 'M' ++ chosen order.numeric 'n' ++ chosen order.random 'R'
    ++ chosen order.version 'V'

def isContradictory (order : SortOrder) : Bool :=
  1 < order.numeric.toNat + order.general.toNat + order.human.toNat + order.month.toNat
    + (order.version || order.random || order.disregard != .nothing).toNat

end SortOrder

/-! ### Parts of lines -/

def isFieldBlank (character : Char) : Bool :=
  character == ' ' || character == '\t' || character == '\n'

def behindField (separator : Option Char) (line : Octets) : Octets :=
  match separator with
  | some separator => line.dropWhile (· != separator)
  | none => (line.dropWhile isFieldBlank).dropWhile fun character => !isFieldBlank character

/-- What stands behind a number of fields. A separator behind the last of them is passed over if
`passing` is set. -/
def behindFields (separator : Option Char) (passing : Bool) : Nat → Octets → Octets
  | 0, line => line
  | _, [] => []
  | count + 1, line =>
      let rest := behindField separator line
      let passed := if separator.isSome && (passing || 0 < count) then rest.tail else rest
      behindFields separator passing count passed

def passBlanks (passing : Bool) (line : Octets) : Octets :=
  if passing then line.dropWhile isFieldBlank else line

def SortKey.fromStart (key : SortKey) (separator : Option Char) (line : Octets) : Octets :=
  match key.firstField with
  | none => passBlanks key.order.skipAtStart line
  | some field =>
      (passBlanks key.order.skipAtStart (behindFields separator true field line)).drop
        key.firstCharacter

def SortKey.behind (key : SortKey) (separator : Option Char) (line : Octets) : Octets :=
  match key.lastField with
  | none => []
  | some field =>
      if key.lastCharacters = 0 then behindFields separator false (field + 1) line
      else
        (passBlanks key.order.skipAtEnd (behindFields separator true field line)).drop
          key.lastCharacters

/-- The part of a line that the key is. One that ends before it starts is empty. -/
def SortKey.part (key : SortKey) (separator : Option Char) (line : Octets) : Octets :=
  let start := key.fromStart separator line
  start.take (start.length - (key.behind separator line).length)

/-! ### Orders -/

def compareOctets : Octets → Octets → Ordering
  | [], [] => .eq
  | [], _ :: _ => .lt
  | _ :: _, [] => .gt
  | left :: lefts, right :: rights => (compare left right).then (compareOctets lefts rights)

/-- A decimal number without zeros that do not matter. -/
structure DecimalNumber where
  negative : Bool
  whole : Octets
  part : Octets
deriving DecidableEq, Repr

/-- The decimal number that a text without blanks in front begins with; zero if there is none. -/
def DecimalNumber.ofText (text : Octets) : DecimalNumber :=
  let (negative, unsigned) := match text with
    | '-' :: rest => (true, rest)
    | rest => (false, rest)
  let digits := unsigned.takeWhile Char.isDigit
  let part := match unsigned.drop digits.length with
    | '.' :: rest => rest.takeWhile Char.isDigit
    | _ => []
  let whole := digits.dropWhile (· == '0')
  let part := Floating.trimZeros part
  ⟨negative && !(whole.isEmpty && part.isEmpty), whole, part⟩

def DecimalNumber.compareMagnitudes (left right : DecimalNumber) : Ordering :=
  ((compare left.whole.length right.whole.length).then
    (compareOctets left.whole right.whole)).then (compareOctets left.part right.part)

def DecimalNumber.compare (left right : DecimalNumber) : Ordering :=
  match left.negative, right.negative with
  | true, true => right.compareMagnitudes left
  | true, false => .lt
  | false, true => .gt
  | false, false => left.compareMagnitudes right

def compareNumeric (left right : Octets) : Ordering :=
  (DecimalNumber.ofText (left.dropWhile isFieldBlank)).compare
    (.ofText (right.dropWhile isFieldBlank))

def unitPower (text : Octets) : Int :=
  let unsigned := if text.head? == some '-' then text.tail else text
  let digits := unsigned.takeWhile Char.isDigit
  let (part, rest) := match unsigned.drop digits.length with
    | '.' :: rest => (rest.takeWhile Char.isDigit, rest.dropWhile Char.isDigit)
    | rest => ([], rest)
  if (digits ++ part).all (· == '0') then 0
  else
    let power : Int := match rest.head? with
      | some 'k' => 1
      | some unit => "KMGTPEZY".toList.idxOf unit + 1
      | none => 0
    let power := if power = 9 then 0 else power
    if text.head? == some '-' then -power else power

def compareHuman (left right : Octets) : Ordering :=
  let left := left.dropWhile isFieldBlank
  let right := right.dropWhile isFieldBlank
  (compare (unitPower left) (unitPower right)).then (compareNumeric left right)

/-- The order of floating-point numbers. What is no number comes first. -/
def compareGeneral (left right : Octets) : Ordering :=
  match Floating.read? .extended left, Floating.read? .extended right with
  | none, none => .eq
  | none, some _ => .lt
  | some _, none => .gt
  | some ((left, _), _), some ((right, _), _) => left.compare right

def monthNames : List Octets :=
  ["JAN", "FEB", "MAR", "APR", "MAY", "JUN", "JUL", "AUG", "SEP", "OCT", "NOV", "DEC"].map
    String.toList

/-- The number of the month that a text begins with; zero if there is none. -/
def monthNumber (text : Octets) : Nat :=
  let name := ((text.dropWhile isFieldBlank).take 3).map Char.toUpper
  let place := monthNames.idxOf name
  if place < monthNames.length then place + 1 else 0

def versionRank : Octets → Int
  | [] => -1
  | character :: _ =>
      if character.isDigit then 0
      else if character.isAlpha then character.toNat
      else if character == '~' then -2
      else character.toNat + 256

def startsWithDigit (text : Octets) : Bool :=
  text.head?.any Char.isDigit

/-- Compares what stands in front of numbers, and gives what is left of both if it is the same.
`fuel` bounds the length of both. -/
def comparePlainParts : Nat → Octets → Octets → Except Ordering (Octets × Octets)
  | 0, left, right => .ok (left, right)
  | fuel + 1, left, right =>
      let isOver := fun (text : Octets) => text.isEmpty || startsWithDigit text
      if isOver left && isOver right then .ok (left, right)
      else match compare (versionRank left) (versionRank right) with
        | .eq => comparePlainParts fuel left.tail right.tail
        | order => .error order

/-- Compares versions: numbers in them count as numbers. `fuel` bounds the length of both. -/
def compareVersionsWithin : Nat → Octets → Octets → Ordering
  | 0, _, _ => .eq
  | fuel + 1, left, right =>
      if left.isEmpty && right.isEmpty then .eq
      else match comparePlainParts (left.length + right.length) left right with
        | .error order => order
        | .ok (left, right) =>
            let left := left.dropWhile (· == '0')
            let right := right.dropWhile (· == '0')
            let leftDigits := left.takeWhile Char.isDigit
            let rightDigits := right.takeWhile Char.isDigit
            match (compare leftDigits.length rightDigits.length).then
                (compareOctets leftDigits rightDigits) with
            | .eq =>
                compareVersionsWithin fuel (left.drop leftDigits.length)
                  (right.drop rightDigits.length)
            | order => order

def compareVersions (left right : Octets) : Ordering :=
  compareVersionsWithin (left.length + right.length) left right

/-- What stands behind suffixes of file names. `fuel` bounds the length. -/
def behindSuffixes : Nat → Octets → Octets
  | 0, text => text
  | fuel + 1, text =>
      match text with
      | '.' :: first :: rest =>
          if first.isAlpha || first == '~' then
            behindSuffixes fuel
              (rest.dropWhile fun character => character.isAlphanum || character == '~')
          else text
      | _ => text

/-- The suffixes at the end of a file name, which are never all of it. `fuel` bounds the
length. -/
def suffixesWithin : Nat → Octets → Octets
  | 0, _ => []
  | _, [] => []
  | fuel + 1, _ :: rest =>
      match behindSuffixes rest.length rest with
      | [] => rest
      | behind => suffixesWithin fuel behind

def withoutSuffixes (name : Octets) : Octets :=
  name.take (name.length - (suffixesWithin name.length name).length)

/-- Where a file name stands before versions are compared: the empty one, the two names for
directories and hidden ones come first. -/
def nameRank (name : Octets) : Nat :=
  if name.isEmpty then 0 else if name == ['.'] then 1 else if name == ['.', '.'] then 2
  else if name.head? == some '.' then 3 else 4

/-- The order of file names with versions in them. Suffixes count only if all else is the same. -/
def compareFileVersions (left right : Octets) : Ordering :=
  match compare (nameRank left) (nameRank right) with
  | .eq =>
      if nameRank left < 3 then .eq
      else (compareVersions (withoutSuffixes left) (withoutSuffixes right)).then
        (compareVersions left right)
  | order => order

namespace SortOrder

def considered (order : SortOrder) (key : Octets) : Octets :=
  let kept := match order.disregard with
    | .nothing => key
    | .unprinted => key.filter fun character => ' ' ≤ character && character ≤ '~'
    | .marks => key.filter fun character => character.isAlphanum || isFieldBlank character
  if order.folded then kept.map Char.toUpper else kept

def compareDigests (seed : List UInt8) (left right : Octets) : Ordering :=
  let digest := fun (text : Octets) =>
    Octets.ofBytes (Digest.ofBytes (seed ++ Octets.toBytes text))
  (compareOctets (digest left) (digest right)).then (compareOctets left right)

/-- The order of two keys. What is ordered at random is ordered by digests behind the seed. -/
def compare (seed : List UInt8) (order : SortOrder) (left right : Octets) : Ordering :=
  let left := order.considered left
  let right := order.considered right
  let found :=
    if order.numeric then compareNumeric left right
    else if order.general then compareGeneral left right
    else if order.human then compareHuman left right
    else if order.month then Ord.compare (monthNumber left) (monthNumber right)
    else if order.random then compareDigests seed left right
    else if order.version then compareFileVersions left right
    else compareOctets left right
  if order.reverse then found.swap else found

end SortOrder

def compareKeys (seed : List UInt8) (separator : Option Char) (keys : List SortKey)
    (left right : Octets) : Ordering :=
  match keys with
  | [] => .eq
  | key :: rest =>
      (key.order.compare seed (key.part separator left) (key.part separator right)).then
        (compareKeys seed separator rest left right)

end PipelineShell.Tool

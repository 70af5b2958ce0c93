import PipelineShell.Text.Octets

/-!
Floating-point numbers as they are read and written. A number is a whole number of halves,
quarters and so on, or twos, fours and so on, so that reading and writing are exact arithmetic on
whole numbers with one rounding: to the nearest, a half to the even neighbour.
-/

namespace PipelineShell

/-- How a kind of number is stored. -/
structure FloatingFormat where
  digits : Nat
  greatest : Int
  least : Int
deriving DecidableEq, Repr

namespace FloatingFormat

def double : FloatingFormat :=
  ⟨53, 1023, -1022⟩

def extended : FloatingFormat :=
  ⟨64, 16383, -16382⟩

def lastExponent (format : FloatingFormat) : Int :=
  format.least - (format.digits - 1 : Nat)

end FloatingFormat

/-- A number. -/
inductive Floating where
  | finite (negative : Bool) (magnitude : Nat) (exponent : Int)
  | infinite (negative : Bool)
  | nan (negative : Bool)
deriving DecidableEq, Repr

namespace Floating

def roundDivide (numerator denominator : Nat) : Nat :=
  let quotient := numerator / denominator
  let twice := 2 * (numerator % denominator)
  if denominator < twice || (twice = denominator && quotient % 2 = 1) then quotient + 1
  else quotient

def scale (base : Nat) (exponent : Int) (numerator denominator : Nat) : Nat × Nat :=
  if 0 ≤ exponent then (numerator * Nat.pow base exponent.toNat, denominator)
  else (numerator, denominator * Nat.pow base (-exponent).toNat)

def leadingExponent (numerator denominator : Nat) : Int :=
  let guess : Int := (numerator.log2 : Int) - denominator.log2
  let (scaled, whole) := scale 2 (-guess) numerator denominator
  if scaled < whole then guess - 1 else guess

def ofFraction (format : FloatingFormat) (negative : Bool) (numerator denominator : Nat) :
    Floating × Bool :=
  if numerator = 0 then (.finite negative 0 0, false)
  else
    let leading := leadingExponent numerator denominator
    let exponent := max (leading - (format.digits - 1 : Nat)) format.lastExponent
    let (scaled, whole) := scale 2 (-exponent) numerator denominator
    let magnitude := roundDivide scaled whole
    let (magnitude, exponent) :=
      if magnitude = Nat.pow 2 format.digits then (magnitude / 2, exponent + 1)
      else (magnitude, exponent)
    if format.greatest < exponent + (format.digits - 1 : Nat) then (.infinite negative, true)
    else
      let inexact := scaled % whole != 0
      (.finite negative magnitude exponent, inexact && leading < format.least)

/-! ### Reading -/

def digitValue (digit : Char) : Nat :=
  if digit.isDigit then digit.toNat - 48
  else if 'a' ≤ digit then digit.toNat - 87 else digit.toNat - 55

def isDigitOf (base : Nat) (character : Char) : Bool :=
  character.isDigit || (base = 16 && (('a' ≤ character && character ≤ 'f')
    || ('A' ≤ character && character ≤ 'F')))

def takeDigits (base : Nat) (text : Octets) : Octets × Octets :=
  (text.takeWhile (isDigitOf base), text.dropWhile (isDigitOf base))

def valueOf (base : Nat) (digits : Octets) : Nat :=
  digits.foldl (fun value digit => value * base + digitValue digit) 0

def exponentBound : Nat := 100000

def readExponent (letter : Char) (text : Octets) : Int × Octets :=
  match text with
  | mark :: rest =>
      if mark != letter && mark != letter.toUpper then (0, text)
      else
        let (negative, rest) := match rest with
          | '-' :: rest => (true, rest)
          | '+' :: rest => (false, rest)
          | rest => (false, rest)
        let (digits, behind) := takeDigits 10 rest
        if digits.isEmpty then (0, text)
        else
          let value := min exponentBound (valueOf 10 digits)
          (if negative then -(value : Int) else value, behind)
  | [] => (0, [])

/-- Reads a magnitude in a base: digits, perhaps a point and more digits, and perhaps an exponent;
`letter` begins the exponent, which counts powers of `radix`. -/
def readMagnitude? (format : FloatingFormat) (base radix : Nat) (letter : Char) (negative : Bool)
    (text : Octets) : Option ((Floating × Bool) × Octets) :=
  let (whole, rest) := takeDigits base text
  let (part, behind) := match rest with
    | '.' :: rest => takeDigits base rest
    | rest => ([], rest)
  if whole.isEmpty && part.isEmpty then none
  else
    let behind := if part.isEmpty && whole.isEmpty then rest else behind
    let (exponent, left) := readExponent letter behind
    let digits := (whole ++ part).dropWhile (· == '0')
    let numerator := valueOf base digits
    let perDigit := if base = 16 then 4 else 1
    let exponent := exponent - (part.length * perDigit : Nat)
    let size : Int := exponent + (digits.length * perDigit : Nat)
    if numerator = 0 then some ((.finite negative 0 0, false), left)
    else if 40000 < size then some ((.infinite negative, true), left)
    else if size < -40000 then some ((.finite negative 0 0, true), left)
    else
      let (numerator, denominator) := scale radix exponent numerator 1
      some (ofFraction format negative numerator denominator, left)

def beginsWith (word : String) (text : Octets) : Bool :=
  (text.take word.length).map Char.toLower == word.toList

def behindNan (text : Octets) : Octets :=
  match text with
  | '(' :: rest =>
      match rest.dropWhile fun character => character.isAlphanum || character == '_' with
      | ')' :: behind => behind
      | _ => text
  | _ => text

/-- Reads a number that the text begins with, and tells whether it is out of range; nothing if
there is none. -/
def read? (format : FloatingFormat) (text : Octets) : Option ((Floating × Bool) × Octets) :=
  let unspaced := text.dropWhile fun character =>
    character == ' ' || (9 ≤ character.toNat && character.toNat ≤ 13)
  let (negative, unsigned) := match unspaced with
    | '-' :: rest => (true, rest)
    | '+' :: rest => (false, rest)
    | rest => (false, rest)
  if beginsWith "infinity" unsigned then some ((.infinite negative, false), unsigned.drop 8)
  else if beginsWith "inf" unsigned then some ((.infinite negative, false), unsigned.drop 3)
  else if beginsWith "nan" unsigned then
    some ((.nan negative, false), behindNan (unsigned.drop 3))
  else
    let hexadecimal :=
      if beginsWith "0x" unsigned then readMagnitude? format 16 2 'p' negative (unsigned.drop 2)
      else none
    match hexadecimal with
    | some found => some found
    | none => readMagnitude? format 10 10 'e' negative unsigned

/-- The order of two numbers; those that are none come before all others. -/
def compare : Floating → Floating → Ordering
  | .nan negative, .nan other => Ord.compare (!negative) (!other)
  | .nan _, _ => .lt
  | _, .nan _ => .gt
  | .infinite negative, .infinite other => Ord.compare (!negative) (!other)
  | .infinite negative, _ => if negative then .lt else .gt
  | _, .infinite negative => if negative then .gt else .lt
  | .finite negative magnitude exponent, .finite other second place =>
      let shared := min exponent place
      let signed := fun (negative : Bool) (magnitude : Nat) (exponent : Int) =>
        let scaled : Int := (magnitude * Nat.pow 2 (exponent - shared).toNat : Nat)
        if negative then -scaled else scaled
      Ord.compare (signed negative magnitude exponent) (signed other second place)

/-! ### Writing -/

def decimal (value : Nat) : Octets :=
  (toString value).toList

def padZeros (length : Nat) (digits : Octets) : Octets :=
  List.replicate (length - digits.length) '0' ++ digits

def fixedDigits (magnitude : Nat) (exponent : Int) (places : Nat) : Octets × Octets :=
  let (numerator, denominator) := scale 2 exponent (magnitude * Nat.pow 10 places) 1
  let digits := padZeros (places + 1) (decimal (roundDivide numerator denominator))
  (digits.take (digits.length - places), digits.drop (digits.length - places))

def decimalExponent (numerator denominator : Nat) : Int :=
  let guess : Int := (decimal numerator).length - (decimal denominator).length
  let (scaled, whole) := scale 10 (-guess) numerator denominator
  if scaled < whole then guess - 1 else guess

/-- The decimal digits of a magnitude, `places` of them behind the leading one, and the exponent
of that. -/
def leadingDigits (magnitude : Nat) (exponent : Int) (places : Nat) : Octets × Int :=
  if magnitude = 0 then (List.replicate (places + 1) '0', 0)
  else
    let (numerator, denominator) := scale 2 exponent magnitude 1
    let leading := decimalExponent numerator denominator
    let (scaled, whole) := scale 10 (places - leading) numerator denominator
    let rounded := roundDivide scaled whole
    if rounded = Nat.pow 10 (places + 1) then (decimal (rounded / 10), leading + 1)
    else (decimal rounded, leading)

def exponentText (letter : Char) (leastDigits : Nat) (exponent : Int) : Octets :=
  letter :: (if exponent < 0 then '-' else '+')
    :: padZeros leastDigits (decimal exponent.natAbs)

def withPoint (keepPoint : Bool) (whole places : Octets) : Octets :=
  whole ++ if places.isEmpty && !keepPoint then [] else '.' :: places

def fixed (keepPoint : Bool) (magnitude : Nat) (exponent : Int) (places : Nat) : Octets :=
  let (whole, places) := fixedDigits magnitude exponent places
  withPoint keepPoint whole places

def scientific (keepPoint : Bool) (magnitude : Nat) (exponent : Int) (places : Nat) : Octets :=
  let (digits, leading) := leadingDigits magnitude exponent places
  withPoint keepPoint (digits.take 1) (digits.drop 1) ++ exponentText 'e' 2 leading

def trimZeros (digits : Octets) : Octets :=
  (digits.reverse.dropWhile (· == '0')).reverse

/-- A magnitude with a number of digits, in the shorter of both ways. Zeros at the end are left
away, unless `keepZeros` is set. -/
def general (keepZeros : Bool) (magnitude : Nat) (exponent : Int) (precision : Nat) : Octets :=
  let digits := max precision 1
  let (shown, leading) := leadingDigits magnitude exponent (digits - 1)
  let trim := fun (places : Octets) => if keepZeros then places else trimZeros places
  if leading < -4 || (digits : Int) ≤ leading then
    withPoint keepZeros (shown.take 1) (trim (shown.drop 1)) ++ exponentText 'e' 2 leading
  else
    let (whole, places) := fixedDigits magnitude exponent ((digits : Int) - 1 - leading).toNat
    withPoint keepZeros whole (trim places)

/-- A magnitude in base sixteen with a binary exponent. The leading digit is as great as the
format lets it be, one for 53 binary digits; without a number of places, as few as are exact. -/
def hexadecimal (format : FloatingFormat) (keepPoint : Bool) (magnitude : Nat) (exponent : Int)
    (places : Option Nat) : Octets :=
  let hex := fun (value : Nat) => Nat.toDigits 16 value
  let inner := (format.digits - 1) / 4 * 4
  if magnitude = 0 then
    "0x".toList ++ withPoint keepPoint ['0'] (List.replicate (places.getD 0) '0')
      ++ exponentText 'p' 1 0
  else
    let shift := format.digits - 1 - magnitude.log2
    let denormal := exponent + (format.digits - 1 : Nat) - shift < format.least
    let shift := if denormal then (exponent - format.lastExponent).toNat else shift
    let magnitude := magnitude * Nat.pow 2 shift
    let shown := exponent - shift + inner
    match places with
    | none =>
        let digits := padZeros (inner / 4 + 1) (hex magnitude)
        "0x".toList ++ withPoint keepPoint (digits.take 1) (trimZeros (digits.drop 1))
          ++ exponentText 'p' 1 shown
    | some places =>
        let kept := min places (inner / 4)
        let rounded := roundDivide magnitude (Nat.pow 16 (inner / 4 - kept))
        let digits := padZeros (kept + 1) (hex rounded)
        let excess := digits.length - (kept + 1)
        let (digits, shown) := if excess = 0 then (digits, shown) else
          (padZeros (kept + 1) (hex (rounded / 16)), shown + 4)
        "0x".toList ++ withPoint keepPoint (digits.take 1)
            (digits.drop 1 ++ List.replicate (places - kept) '0')
          ++ exponentText 'p' 1 shown

end Floating

end PipelineShell

import PipelineShell.Text.Floating
import PipelineShell.Text.Numeral

/-!
How a number or a text is laid out: with a sign or without, to a precision, and padded to a width.
-/

namespace PipelineShell

/-- A layout. -/
structure Layout where
  leftAligned : Bool
  plus : Bool
  blank : Bool
  alternate : Bool
  zeros : Bool
  width : Nat
  precision : Option Nat
deriving DecidableEq, Repr

namespace Layout

def plain : Layout :=
  ⟨false, false, false, false, false, 0, none⟩

/-- The layout with a flag set; nothing if the character is no flag. -/
def withFlag? (layout : Layout) : Char → Option Layout
  | '-' => some { layout with leftAligned := true }
  | '+' => some { layout with plus := true }
  | ' ' => some { layout with blank := true }
  | '#' => some { layout with alternate := true }
  | '0' => some { layout with zeros := true }
  | _ => none

def withWidth (layout : Layout) (width : Int) : Layout :=
  if width < 0 then { layout with leftAligned := true, width := width.natAbs }
  else { layout with width := width.toNat }

def pad (layout : Layout) (text : Octets) : Octets :=
  let missing := List.replicate (layout.width - text.length) ' '
  if layout.leftAligned then text ++ missing else missing ++ text

def padNumber (layout : Layout) (zeros : Bool) (front digits : Octets) : Octets :=
  if zeros && !layout.leftAligned then
    front ++ List.replicate (layout.width - front.length - digits.length) '0' ++ digits
  else layout.pad (front ++ digits)

def sign (layout : Layout) (negative : Bool) : Octets :=
  if negative then ['-'] else if layout.plus then ['+']
  else if layout.blank then [' '] else []

def text (layout : Layout) (text : Octets) : Octets :=
  layout.pad (match layout.precision with
    | some most => text.take most
    | none => text)

def character (layout : Layout) (character : Char) : Octets :=
  layout.pad [character]

/-- The digits of a magnitude to the precision. Zero has no digits to the precision zero. -/
def digits (layout : Layout) (base : Nat) (magnitude : Nat) : Octets :=
  let shown := if magnitude = 0 then [] else Nat.toDigits base magnitude
  List.replicate (layout.precision.getD 1 - shown.length) '0' ++ shown

def signed (layout : Layout) (value : Int) : Octets :=
  layout.padNumber (layout.zeros && layout.precision.isNone)
    (layout.sign (value < 0)) (layout.digits 10 value.natAbs)

def unsigned (layout : Layout) (letter : Char) (magnitude : Nat) : Octets :=
  let zeros := layout.zeros && layout.precision.isNone
  match letter with
  | 'o' =>
      let digits := layout.digits 8 magnitude
      let marked := layout.alternate && digits.head? != some '0'
      layout.padNumber zeros [] (if marked then '0' :: digits else digits)
  | 'x' =>
      let marked := layout.alternate && magnitude != 0
      layout.padNumber zeros (if marked then ['0', 'x'] else []) (layout.digits 16 magnitude)
  | 'X' =>
      let marked := layout.alternate && magnitude != 0
      layout.padNumber zeros (if marked then ['0', 'X'] else [])
        ((layout.digits 16 magnitude).map Char.toUpper)
  | _ => layout.padNumber zeros [] (layout.digits 10 magnitude)

def magnitudeText (layout : Layout) (format : FloatingFormat) (letter : Char)
    (magnitude : Nat) (exponent : Int) : Octets :=
  let precision := layout.precision.getD 6
  match letter with
  | 'a' =>
      Floating.hexadecimal format layout.alternate magnitude exponent layout.precision
  | 'e' => Floating.scientific layout.alternate magnitude exponent precision
  | 'f' => Floating.fixed layout.alternate magnitude exponent precision
  | _ => Floating.general layout.alternate magnitude exponent precision

def floating (layout : Layout) (format : FloatingFormat) (letter : Char) :
    Floating → Octets
  | .nan negative => cased (layout.pad (layout.sign negative ++ "nan".toList))
  | .infinite negative => cased (layout.pad (layout.sign negative ++ "inf".toList))
  | .finite negative magnitude exponent =>
      let shown := layout.magnitudeText format letter.toLower magnitude exponent
      let (base, digits) := if letter.toLower == 'a' then (shown.take 2, shown.drop 2)
        else ([], shown)
      cased (layout.padNumber layout.zeros (layout.sign negative ++ base) digits)
where
  cased (text : Octets) : Octets :=
    if letter.isUpper then text.map Char.toUpper else text

end Layout

end PipelineShell

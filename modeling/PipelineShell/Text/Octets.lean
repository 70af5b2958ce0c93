import PipelineShell.Text.Utf8

/-!
Bytes as tools and scripts see them: where every byte is a character of its own, a text of bytes
is a list of characters below 256. Bytes and octets stand for each other without loss.
-/

namespace PipelineShell

abbrev Octets := List Char

namespace Octets

def ofByte (byte : UInt8) : Char :=
  Char.ofNat byte.toNat

def toByte (character : Char) : UInt8 :=
  UInt8.ofNat character.toNat

def ofBytes (bytes : List UInt8) : Octets :=
  bytes.map ofByte

def ofContent (content : ByteArray) : Octets :=
  ofBytes content.data.toList

def ofText (text : String) : Octets :=
  ofBytes (Utf8.bytes text)

def toBytes (octets : Octets) : List UInt8 :=
  octets.map toByte

def toContent (octets : Octets) : ByteArray :=
  ⟨(toBytes octets).toArray⟩

/-- The text of octets. Octets that are not UTF-8 become replacement characters. -/
def toText (octets : Octets) : String :=
  if octets.all fun character => character.toNat < 0x80 then String.ofList octets
  else Utf8.text (toBytes octets)

def ofNumber (number : Int) : Octets :=
  (toString number).toList

def isAtMost : Octets → Octets → Bool
  | [], _ => true
  | _ :: _, [] => false
  | left :: lefts, right :: rights =>
      left < right || (left == right && isAtMost lefts rights)

abbrev spelled (text : String) : Octets :=
  text.toList

end Octets

end PipelineShell

/-!
UTF-8 as a byte automaton. Decoding never fails: each maximal run of bytes that begins a
character but does not complete it becomes one replacement character, and so does each byte
that cannot begin one. An ASCII byte always ends whatever was pending before it, so decoding a
text and decoding the pieces between its ASCII bytes agree.
-/

namespace PipelineShell.Utf8

def replacement : Char := Char.ofNat 0xfffd

/-- A character of which some bytes have been read. -/
structure Pending where
  value : Nat
  afterNext : Nat
  low : UInt8
  high : UInt8
deriving DecidableEq, Repr

def Pending.accepts (pending : Pending) (byte : UInt8) : Bool :=
  pending.low ≤ byte && byte ≤ pending.high

/-- The characters a byte completes when nothing is pending, and what is pending after it. The
bounds on the second byte exclude overlong forms, surrogates and values above `0x10ffff`. -/
def first (byte : UInt8) : List Char × Option Pending :=
  if byte < 0x80 then ([Char.ofNat byte.toNat], none)
  else if byte < 0xc2 then ([replacement], none)
  else if byte < 0xe0 then ([], some ⟨byte.toNat % 32, 0, 0x80, 0xbf⟩)
  else if byte < 0xf0 then
    ([], some ⟨byte.toNat % 16, 1, if byte = 0xe0 then 0xa0 else 0x80,
      if byte = 0xed then 0x9f else 0xbf⟩)
  else if byte < 0xf5 then
    ([], some ⟨byte.toNat % 8, 2, if byte = 0xf0 then 0x90 else 0x80,
      if byte = 0xf4 then 0x8f else 0xbf⟩)
  else ([replacement], none)

def step : Option Pending → UInt8 → List Char × Option Pending
  | none, byte => first byte
  | some pending, byte =>
      if pending.accepts byte then
        let value := pending.value * 64 + byte.toNat % 64
        match pending.afterNext with
        | 0 => ([Char.ofNat value], none)
        | more + 1 => ([], some ⟨value, more, 0x80, 0xbf⟩)
      else
        let (characters, rest) := first byte
        (replacement :: characters, rest)

def decodeFrom : Option Pending → List UInt8 → List Char
  | none, [] => []
  | some _, [] => [replacement]
  | pending, byte :: rest =>
      let (characters, next) := step pending byte
      characters ++ decodeFrom next rest

def decode (bytes : List UInt8) : List Char :=
  decodeFrom none bytes

def text (bytes : List UInt8) : String :=
  String.ofList (decode bytes)

def encode (characters : List Char) : List UInt8 :=
  characters.flatMap String.utf8EncodeChar

def bytes (text : String) : List UInt8 :=
  encode text.toList

def exactText? (content : List UInt8) : Option String :=
  if bytes (text content) = content then some (text content) else none

def firstOfLength? (content : List UInt8) : Nat → Option Char
  | 0 => none
  | length + 1 =>
      match (exactText? (content.take (length + 1))).map String.toList with
      | some [character] => some character
      | _ => firstOfLength? content length

def firstCharacter? (content : List UInt8) : Option Char :=
  firstOfLength? content 4

end PipelineShell.Utf8

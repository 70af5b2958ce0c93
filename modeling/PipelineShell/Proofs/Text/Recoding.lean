import PipelineShell.Proofs.Text.Decoding

/-!
Decoding in parts. An ASCII byte ends whatever is pending in front of it, so bytes may be cut before
and behind it and decoded apart. Encoding what bytes are decoded to keeps the cuts and the ASCII
bytes, and decoding once more gives the same text.
-/

namespace PipelineShell.Utf8

/-- The bytes may be decoded apart from any in front of them. -/
def Opens (content : List UInt8) : Prop :=
  ∀ byte ∈ content.head?, byte.toNat < 0x80

def Closes (content : List UInt8) : Prop :=
  ∀ byte ∈ content.getLast?, byte.toNat < 0x80

private theorem first_of_ascii {byte : UInt8} (ascii : byte.toNat < 0x80) :
    first byte = ([Char.ofNat byte.toNat], none) := by
  rw [first_eq, if_pos ascii]

private theorem not_accepts_of_ascii {pending : Pending} (sound : pending.Sound) {byte : UInt8}
    (ascii : byte.toNat < 0x80) : pending.accepts byte ≠ true := by
  intro accepted
  have bounds := (accepts_iff _ _).mp accepted
  have low_le := sound.low_le
  omega

/-- What is pending ends at an ASCII byte as it would at the end of the bytes. -/
theorem decodeFrom_ascii {state : Option Pending} (sound : SoundState state) {byte : UInt8}
    (ascii : byte.toNat < 0x80) (rest : List UInt8) :
    decodeFrom state (byte :: rest)
      = decodeFrom state [] ++ Char.ofNat byte.toNat :: decode rest := by
  cases state with
  | none =>
      rw [decodeFrom_cons, step, first_of_ascii ascii]
      rfl
  | some pending =>
      rw [decodeFrom_cons, step, if_neg (not_accepts_of_ascii (sound pending rfl) ascii),
        first_of_ascii ascii]
      rfl

private theorem decode_ascii {byte : UInt8} (ascii : byte.toNat < 0x80) (rest : List UInt8) :
    decode (byte :: rest) = Char.ofNat byte.toNat :: decode rest :=
  decodeFrom_ascii soundState_none ascii rest

theorem decodeFrom_append {state : Option Pending} (sound : SoundState state)
    (content : List UInt8) {more : List UInt8} (opens : Opens more) :
    decodeFrom state (content ++ more) = decodeFrom state content ++ decode more := by
  induction content generalizing state with
  | nil =>
      cases more with
      | nil => exact (List.append_nil _).symm
      | cons byte rest =>
          have ascii := opens byte rfl
          rw [List.nil_append, decodeFrom_ascii sound ascii, decode_ascii ascii]
  | cons byte rest ih =>
      rw [List.cons_append, decodeFrom_cons, decodeFrom_cons, ih (step_ascii sound byte).1,
        List.append_assoc]

theorem decode_append_of_opens (content : List UInt8) {more : List UInt8} (opens : Opens more) :
    decode (content ++ more) = decode content ++ decode more :=
  decodeFrom_append soundState_none content opens

theorem decode_append_of_closes {content : List UInt8} (closes : Closes content)
    (more : List UInt8) : decode (content ++ more) = decode content ++ decode more := by
  rcases List.eq_nil_or_concat content with rfl | ⟨front, last, rfl⟩
  · rfl
  · rw [List.concat_eq_append] at closes ⊢
    have ascii : last.toNat < 0x80 := closes last (by simp)
    have opens (rest : List UInt8) : Opens (last :: rest) := by
      intro byte here
      cases here
      exact ascii
    have lastEq : decode [last] = [Char.ofNat last.toNat] := decode_ascii ascii []
    rw [List.append_assoc, List.singleton_append, decode_append_of_opens front (opens more),
      decode_append_of_opens front (opens []), decode_ascii ascii, lastEq, List.append_assoc,
      List.singleton_append]

/-! ### Encoding what has been decoded -/

/-- The bytes of the text that some bytes are decoded to. -/
def recode (content : List UInt8) : List UInt8 :=
  bytes (text content)

private theorem recode_eq (content : List UInt8) : recode content = encode (decode content) := by
  rw [recode, bytes, text, String.toList_ofList]

theorem text_recode (content : List UInt8) : text (recode content) = text content :=
  text_bytes (text content)

theorem encode_append (characters more : List Char) :
    encode (characters ++ more) = encode characters ++ encode more :=
  List.flatMap_append

theorem recode_append_of_opens (content : List UInt8) {more : List UInt8} (opens : Opens more) :
    recode (content ++ more) = recode content ++ recode more := by
  rw [recode_eq, recode_eq, recode_eq, decode_append_of_opens content opens, encode_append]

theorem recode_append_of_closes {content : List UInt8} (closes : Closes content)
    (more : List UInt8) : recode (content ++ more) = recode content ++ recode more := by
  rw [recode_eq, recode_eq, recode_eq, decode_append_of_closes closes, encode_append]

private theorem utf8EncodeChar_ascii {byte : UInt8} (ascii : byte.toNat < 0x80) :
    String.utf8EncodeChar (Char.ofNat byte.toNat) = [byte] := by
  have valueEq : (Char.ofNat byte.toNat).val.toNat = byte.toNat :=
    toNat_ofNat_of_scalar (by omega)
  rw [String.utf8EncodeChar, valueEq, if_pos (by omega), UInt8.ofNat_toNat]

theorem recode_ascii {byte : UInt8} (ascii : byte.toNat < 0x80) (rest : List UInt8) :
    recode (byte :: rest) = byte :: recode rest := by
  rw [recode_eq, recode_eq, decode_ascii ascii, encode, List.flatMap_cons,
    utf8EncodeChar_ascii ascii]
  rfl

end PipelineShell.Utf8

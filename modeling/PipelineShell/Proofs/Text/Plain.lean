import PipelineShell.Proofs.Line.Scanning
import PipelineShell.Proofs.Text.Decoding

/-!
Texts that can be words. A text is plain if it has characters and none of them separates tokens.
The bytes of a plain text are a word, and whatever a word is decoded to is plain.
-/

namespace PipelineShell

def separators : List Char :=
  [' ', '\t', '\r', '\n', '|', '&', '>']

/-- A text that can be written as one word. -/
def IsPlainText (text : String) : Prop :=
  text ≠ "" ∧ ∀ character ∈ text.toList, character ∉ separators

private theorem toNat_of_mem_separators {character : Char} (member : character ∈ separators) :
    character.toNat < 0x80 := by
  simp only [separators, List.mem_cons, List.not_mem_nil, or_false] at member
  rcases member with rfl | rfl | rfl | rfl | rfl | rfl | rfl <;> decide

private theorem isWordByte_iff (byte : UInt8) :
    Byte.isWordByte byte = true ↔ ∀ character ∈ separators, byte.toNat ≠ character.toNat := by
  simp [Byte.isWordByte, Byte.isFiller, Byte.isOperator, separators, ← UInt8.toNat_inj, Byte.space,
    Byte.tab, Byte.carriageReturn, Byte.lineFeed, Byte.bar, Byte.ampersand, Byte.greater]
  omega

namespace Utf8

theorem toNat_of_mem_utf8EncodeChar {character : Char} {byte : UInt8}
    (member : byte ∈ String.utf8EncodeChar character) :
    byte.toNat = character.toNat ∨ 0x80 ≤ byte.toNat := by
  have range := toNat_cases character
  have valueEq : character.val.toNat = character.toNat := rfl
  rw [String.utf8EncodeChar, valueEq] at member
  generalize character.toNat = value at range member
  split at member
  · left
    rw [List.mem_singleton.mp member]
    exact toNat_ofNat_of_lt (by omega)
  · right
    have continued (part : Nat) : 0x80 ≤ (UInt8.ofNat (part % 0x40 + 0x80)).toNat := by
      rw [toNat_tail]
      exact Nat.le_add_left _ _
    have led (lead mark : Nat) (low : 0x80 ≤ mark) (small : lead + mark < 256) :
        0x80 ≤ (UInt8.ofNat (lead + mark)).toNat := by
      rw [toNat_ofNat_of_lt small]
      omega
    split at member
    · simp only [List.mem_cons, List.not_mem_nil, or_false] at member
      rcases member with rfl | rfl
      · exact led _ _ (by omega) (by omega)
      · exact continued _
    split at member
    · simp only [List.mem_cons, List.not_mem_nil, or_false] at member
      rcases member with rfl | rfl | rfl
      · exact led _ _ (by omega) (by omega)
      · exact continued _
      · exact continued _
    · simp only [List.mem_cons, List.not_mem_nil, or_false] at member
      rcases member with rfl | rfl | rfl | rfl
      · exact led _ _ (by omega) (by omega)
      · exact continued _
      · exact continued _
      · exact continued _

theorem bytes_append (text more : String) : bytes (text ++ more) = bytes text ++ bytes more := by
  rw [bytes, String.toList_append, encode, List.flatMap_append]
  rfl

private theorem bytes_ne_nil {content : String} (filled : content ≠ "") : bytes content ≠ [] := by
  intro nothing
  apply filled
  rw [← text_bytes content, nothing]
  rfl

end Utf8

/-- What a word is decoded to is plain, whether the word is UTF-8 or not. -/
theorem isPlainText_text {bytes : List UInt8} (isWord : Token.IsWord bytes) :
    IsPlainText (Utf8.text bytes) := by
  refine ⟨Utf8.text_ne_empty isWord.1, ?_⟩
  intro character member separates
  rw [Utf8.text, String.toList_ofList] at member
  obtain ⟨byte, inWord, same⟩ :=
    Utf8.exists_byte_of_mem_decode member (toNat_of_mem_separators separates)
  exact (isWordByte_iff byte).mp (isWord.2 byte inWord) character separates same

theorem isWord_bytes {text : String} (plain : IsPlainText text) :
    Token.IsWord (Utf8.bytes text) := by
  refine ⟨Utf8.bytes_ne_nil plain.1, ?_⟩
  intro byte member
  obtain ⟨character, inText, inCharacter⟩ := List.mem_flatMap.mp member
  apply (isWordByte_iff byte).mpr
  intro separator separates same
  rcases Utf8.toNat_of_mem_utf8EncodeChar inCharacter with whole | beyond
  · have characterEq : character = separator := Char.toNat_inj.mp (whole.symm.trans same)
    rw [characterEq] at inText
    exact plain.2 separator inText separates
  · have ascii := toNat_of_mem_separators separates
    omega

end PipelineShell

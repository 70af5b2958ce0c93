import PipelineShell.Proofs.Line.Rendering
import PipelineShell.Proofs.Line.Unseen
import PipelineShell.Proofs.Text.Recoding

/-!
Decoding word by word against decoding a stream as a whole. Words are cut at ASCII bytes, and those
end whatever is pending; so the text of a word is what the whole stream is decoded to between what
stands before and behind the word, and a stream reads as the UTF-8 of its own text does.
-/

namespace PipelineShell

/-! ### Texts in bytes -/

namespace Utf8

private theorem toNat_lt_of_separates {byte : UInt8} (separates : Byte.isWordByte byte = false) :
    byte.toNat < 0x80 := by
  by_cases filler : Byte.isFiller byte = true
  · rcases Token.isFiller_cases filler with rfl | rfl | rfl <;> decide
  by_cases isSign : Token.IsSign byte
  · rcases Token.isSign_cases isSign with rfl | rfl | rfl | rfl <;> decide
  · rw [Token.isWordByte_of_plain filler isSign] at separates
    cases separates

private theorem opens_of_stops {content : List UInt8} (stops : Token.Stops content) :
    Opens content :=
  fun byte here => toNat_lt_of_separates (stops byte here)

private theorem closes_of_separates {content : List UInt8}
    (separates : ∀ byte ∈ content.getLast?, Byte.isWordByte byte = false) : Closes content :=
  fun byte here => toNat_lt_of_separates (separates byte here)

/-- Texts that stand in the bytes one behind another: each is a word decoded alone, and decoding
the bytes as a whole gives it between what the bytes before and behind the word are decoded to. -/
inductive Shows : List UInt8 → List String → Prop
  | nothing (content : List UInt8) : Shows content []
  | word {before word after : List UInt8} {texts : List String} (isWord : Token.IsWord word)
      (cut : decode (before ++ (word ++ after))
        = decode before ++ (decode word ++ decode after))
      (later : Shows after texts) : Shows (before ++ (word ++ after)) (text word :: texts)

/-- A word shows its text if separators, or nothing, stand on both sides of it. -/
theorem shows_word {before word after : List UInt8} {texts : List String}
    (isWord : Token.IsWord word) (closes : Closes before) (stops : Token.Stops after)
    (later : Shows after texts) : Shows (before ++ (word ++ after)) (text word :: texts) := by
  refine .word isWord ?_ later
  rw [decode_append_of_closes closes, decode_append_of_opens word (opens_of_stops stops)]

theorem Shows.behind {before content : List UInt8} {texts : List String}
    (shows_ : Shows content texts) (closes : Closes before) : Shows (before ++ content) texts := by
  cases shows_ with
  | nothing => exact .nothing _
  | @word front word after texts isWord cut later =>
      rw [← List.append_assoc]
      refine .word isWord ?_ later
      rw [List.append_assoc, decode_append_of_closes closes, cut, decode_append_of_closes closes,
        List.append_assoc]

theorem Shows.append {content more : List UInt8} {texts others : List String}
    (shows_ : Shows content texts) (also : Shows more others)
    (ended : content.getLast? = some Byte.lineFeed) :
    Shows (content ++ more) (texts ++ others) := by
  have closes : ∀ {line : List UInt8}, line.getLast? = some Byte.lineFeed → Closes line := by
    intro line last byte here
    rw [last] at here
    cases here
    decide
  induction shows_ with
  | nothing content => exact also.behind (closes ended)
  | @word before word after texts isWord cut later ih =>
      -- the word holds no line feed, so that the line ends behind it
      have lastEq : after.getLast? = some Byte.lineFeed := by
        rw [← List.append_assoc, List.getLast?_append] at ended
        cases last : after.getLast? with
        | some byte =>
            rw [last] at ended
            exact ended
        | none =>
            rw [last, Option.none_or, List.getLast?_append,
              Option.or_of_isSome (by simp [isWord.1])] at ended
            exact absurd (List.mem_of_getLast? ended) (Token.lineFeed_not_mem_of_isWord isWord)
      have whole : before ++ (word ++ after) ++ more = before ++ (word ++ (after ++ more)) := by
        simp only [List.append_assoc]
      have cutMore : decode (before ++ (word ++ (after ++ more)))
          = decode before ++ (decode word ++ decode (after ++ more)) := by
        rw [← whole, decode_append_of_closes (closes ended), cut,
          decode_append_of_closes (closes lastEq)]
        simp only [List.append_assoc]
      rw [whole]
      exact .word isWord cutMore (ih lastEq)

theorem Shows.infix {content : List UInt8} {texts : List String} (shows_ : Shows content texts) :
    ∀ shown ∈ texts, shown.toList <:+: decode content := by
  induction shows_ with
  | nothing content => exact List.forall_mem_nil _
  | @word before word after texts isWord cut later ih =>
      rw [cut]
      intro shown member
      rcases List.mem_cons.mp member with rfl | further
      · rw [text, String.toList_ofList]
        exact ⟨decode before, decode after, List.append_assoc _ _ _⟩
      · obtain ⟨front, behind, whole⟩ := ih shown further
        refine ⟨decode before ++ (decode word ++ front), behind, ?_⟩
        rw [← whole]
        simp only [List.append_assoc]

end Utf8

/-! ### Texts of a line -/

def Token.words : Token → List (List UInt8)
  | .word bytes => [bytes]
  | .connective _ => []
  | .redirect _ path => [path]
  | .background => []

def Item.texts : Item → List String
  | .command step => step.arguments
  | .connective _ => []

/-- The arguments of a line in order, and its path behind them. -/
def CommandLine.texts (line : CommandLine) : List String :=
  line.items.flatMap Item.texts ++ line.output.path?.toList

def Reading.texts : Reading → List String
  | .line read => read.texts
  | .blank => []
  | .incomplete => []
  | .fault _ => []

namespace Grammar

private theorem words_of_isCommand {tokens : List Token} {step : Command}
    (command : IsCommand tokens step) :
    (tokens.flatMap Token.words).map Utf8.text = step.arguments := by
  cases command with
  | ofWords first others =>
      have each : ((first :: others).map Token.word).flatMap Token.words = first :: others := by
        rw [List.flatMap_map]
        exact List.flatMap_singleton' _
      rw [each]

private theorem words_of_isSequence {tokens : List Token} {items : List Item}
    (sequence : IsSequence tokens items) :
    (tokens.flatMap Token.words).map Utf8.text = items.flatMap Item.texts := by
  induction sequence with
  | single command =>
      rw [words_of_isCommand command, List.flatMap_singleton]
      rfl
  | @joined tokens more items step before join command ih =>
      have behind : (Token.connective join :: more).flatMap Token.words
          = more.flatMap Token.words := rfl
      rw [List.flatMap_append, List.map_append, ih, behind, words_of_isCommand command,
        List.flatMap_append]
      simp [Item.texts]

private theorem texts_of_isLine {tokens : List Token} {line : CommandLine}
    (isLine : IsLine tokens line) :
    (tokens.flatMap Token.words).map Utf8.text = line.texts := by
  cases isLine with
  | @ofParts sequence redirection mark items output background commands target ending =>
      have path : (redirection.flatMap Token.words).map Utf8.text = output.path?.toList := by
        cases target <;> rfl
      have none : mark.flatMap Token.words = [] := by
        cases ending <;> rfl
      rw [List.flatMap_append, List.flatMap_append, none, List.append_nil, List.map_append, path,
        words_of_isSequence commands]
      rfl

end Grammar

/-! ### Scanned words stand in the bytes -/

namespace Token

private theorem closes_of_isGap {gap : List UInt8} (isGap : IsGap gap) : Utf8.Closes gap :=
  Utf8.closes_of_separates fun byte here =>
    isWordByte_of_isFiller (isGap byte (List.mem_of_getLast? here))

private theorem closes_of_signs {written : List UInt8} (signs : ∀ byte ∈ written, IsSign byte) :
    Utf8.Closes written :=
  Utf8.closes_of_separates fun byte here =>
    isWordByte_of_isSign (signs byte (List.mem_of_getLast? here))

private theorem shows_of_isWritten {token : Token} {written rest : List UInt8} {texts : List String}
    (isWritten : IsWritten token written) (filled : token.IsFilled) (ends : token.EndsBefore rest)
    (later : Utf8.Shows rest texts) :
    Utf8.Shows (written ++ rest) (token.words.map Utf8.text ++ texts) := by
  cases isWritten with
  | word bytes => exact Utf8.shows_word filled (closes_of_isGap isGap_nil) ends later
  | @redirect append gap path isGap =>
      have signs : ∀ byte ∈ sign append, IsSign byte := by
        cases append <;> simp [sign, IsSign, Byte.isOperator]
      have shown := Utf8.shows_word filled (closes_of_isGap isGap) ends later
      rw [List.append_assoc, List.append_assoc]
      exact shown.behind (closes_of_signs signs)
  | pipe => exact later.behind (closes_of_signs (by simp [IsSign, Byte.isOperator]))
  | and => exact later.behind (closes_of_signs (by simp [IsSign, Byte.isOperator]))
  | or => exact later.behind (closes_of_signs (by simp [IsSign, Byte.isOperator]))
  | background => exact later.behind (closes_of_signs (by simp [IsSign, Byte.isOperator]))

private theorem shows_scan (bytes : List UInt8) :
    Utf8.Shows bytes (((scan bytes).tokens.flatMap words).map Utf8.text) := by
  induction bytes using induction_by_tokens with
  | handed bytes ih =>
      have stands := standsIn_front bytes
      generalize found : front bytes = ahead at stands
      cases stands with
      | @token gap written rest token isGap isWritten filled ends =>
          have later := ih token rest found
          rw [scan_of_token found, List.flatMap_cons, List.map_append]
          exact (shows_of_isWritten isWritten filled ends later).behind (closes_of_isGap isGap)
      | terminator isGap rest =>
          rw [scan_of_terminator found]
          exact .nothing _
      | exhausted isGap =>
          rw [scan_of_exhausted found]
          exact .nothing _
      | missingTarget =>
          rw [scan_of_missingTarget found]
          exact .nothing _

end Token

theorem Reading.shows_ofLine (bytes : List UInt8) :
    Utf8.Shows bytes (Reading.ofLine bytes).texts := by
  cases reading : Reading.ofLine bytes with
  | line read =>
      have isLine := (Reading.ofLine_eq_line_iff.mp reading).2
      rw [Reading.texts, ← Grammar.texts_of_isLine isLine]
      exact Token.shows_scan bytes
  | blank => exact .nothing _
  | incomplete => exact .nothing _
  | fault fault => exact .nothing _

theorem Stream.shows_readings (bytes : List UInt8) :
    Utf8.Shows bytes ((Stream.readings bytes).flatMap Reading.texts) := by
  induction bytes using Stream.induction_by_lines with
  | unterminated inner absent =>
      rw [Stream.readings, Stream.lines_of_absent absent]
      exact .nothing _
  | terminated inner rest absent ih =>
      have line := Reading.shows_ofLine (inner ++ [Byte.lineFeed])
      rw [Stream.readings, Stream.lines_of_line absent, List.map_cons, List.flatMap_cons,
        ← List.singleton_append, ← List.append_assoc]
      exact line.append ih (by simp)

/-! ### A stream and the encoding of its text -/

namespace Token

/-- Nothing that is read from a stream shows that the stream has been decoded and encoded. -/
theorem unseen_recode : Unseen Utf8.recode where
  nil := rfl
  filler := by
    intro byte rest filler
    have ascii := Utf8.toNat_lt_of_separates (isWordByte_of_isFiller filler)
    exact ⟨[byte], List.forall_mem_singleton.mpr filler, Utf8.recode_ascii ascii rest, nofun⟩
  sign := fun byte rest isSign =>
    Utf8.recode_ascii (Utf8.toNat_lt_of_separates (isWordByte_of_isSign isSign)) rest
  word := fun word rest _ stops => Utf8.recode_append_of_opens word (Utf8.opens_of_stops stops)
  isWord := fun word isWord => isWord_bytes (isPlainText_text isWord)
  text := fun word _ => Utf8.text_recode word
  line := by
    intro inner rest _
    have closes : Utf8.Closes (inner ++ [Byte.lineFeed]) :=
      Utf8.closes_of_separates (by simp [Byte.isWordByte])
    rw [← List.singleton_append, ← List.append_assoc]
    exact Utf8.recode_append_of_closes closes rest

end Token

namespace LineReader

/-- A stream, whether it is UTF-8 or not, reads as the encoding of what it is decoded to as a
whole. The arguments and paths of the lines that are read from it stand in it in order, and each is
what decoding the stream as a whole gives at its place, neither more nor less; so that those read
from the bytes of a text are parts of that text. -/
theorem readAlone_recode (bytes : List UInt8) :
    readAlone (Utf8.bytes (Utf8.text bytes)) = readAlone bytes ∧
      Utf8.Shows bytes ((readAlone bytes).flatMap Reading.texts) ∧
      ∀ content : String, Utf8.bytes content = bytes →
        ∀ text ∈ (readAlone bytes).flatMap Reading.texts, text.toList <:+: content.toList := by
  have shown : Utf8.Shows bytes ((readAlone bytes).flatMap Reading.texts) := by
    rw [readAlone_eq]
    exact Stream.shows_readings bytes
  refine ⟨?_, shown, ?_⟩
  · rw [readAlone_eq, readAlone_eq]
    exact Token.unseen_recode.readings bytes
  · intro content contentEq text member
    have decoded : Utf8.decode bytes = content.toList := by
      rw [← contentEq, Utf8.bytes, Utf8.decode_encode]
    rw [← decoded]
    exact shown.infix text member

/-- `é >ü`, and the same line with the second bytes of both letters gone, in front of the operator
and of the carriage return that closes the line: one replacement character stands for each. -/
theorem readAlone_recode_of_cut_letters :
    let whole := "é >ü\r\n"
    let broken : List UInt8 := [0xc3, 0x20, 0x3e, 0xc3, 0x0d, 0x0a]
    (readAlone (Utf8.bytes whole)).flatMap Reading.texts = ["é", "ü"] ∧
      ("ü".toList <:+: whole.toList) ∧ Utf8.bytes (Utf8.text broken) ≠ broken ∧
      readAlone (Utf8.bytes (Utf8.text broken)) = readAlone broken ∧
      readAlone broken
        = [.line ⟨[.command ⟨"\uFFFD", ["\uFFFD"]⟩], .emptied "\uFFFD", false⟩] := by
  intro whole broken
  have reads : ∀ first second : List UInt8, Token.IsWord first → Token.IsWord second →
      readAlone (first ++ Byte.space :: Byte.greater
          :: (second ++ [Byte.carriageReturn, Byte.lineFeed]))
        = [.line ⟨[.command ⟨Utf8.text first, [Utf8.text first]⟩],
            .emptied (Utf8.text second), false⟩] := by
    intro first second isWord isPath
    have gap : Token.IsGap [Byte.carriageReturn] := by decide
    have path := Token.IsWritten.redirect false second Token.isGap_nil
    have spells : Token.Spells none [.word first, .redirect false second] _ :=
      .next Token.isGap_nil (by simp) (.word first)
        (.next Token.isGap_space (by simp) path (.last gap))
    have scanned := Token.scan_of_spells spells (by simp [Token.IsFilled, isWord, isPath])
    have absent : Byte.lineFeed ∉ first ++ ([Byte.space] ++ ([Byte.greater] ++ (second
        ++ [Byte.carriageReturn]))) := by
      have apart : Byte.lineFeed ≠ Byte.space ∧ Byte.lineFeed ≠ Byte.greater ∧
          Byte.lineFeed ≠ Byte.carriageReturn := by decide
      simp [Token.lineFeed_not_mem_of_isWord isWord, Token.lineFeed_not_mem_of_isWord isPath,
        apart]
    have read := readAlone_of_line absent
    simp only [List.append_assoc, List.cons_append, List.nil_append, Token.sign, if_false,
      Bool.false_eq_true] at read scanned
    rw [read]
    congr 1
    apply Reading.ofLine_eq_line_iff.mpr
    rw [scanned]
    exact ⟨rfl, .ofParts (.single (.ofWords first [])) (.emptied second) .absent⟩
  have wholeTexts : (readAlone (Utf8.bytes whole)).flatMap Reading.texts = ["é", "ü"] := by
    have read := reads [0xc3, 0xa9] [0xc3, 0xbc] (by decide) (by decide)
    have wholeEq : Utf8.bytes whole = [0xc3, 0xa9] ++ Byte.space :: Byte.greater
        :: ([0xc3, 0xbc] ++ [Byte.carriageReturn, Byte.lineFeed]) := by
      decide
    rw [wholeEq, read]
    decide
  refine ⟨wholeTexts, ?_, by decide, (readAlone_recode broken).1, ?_⟩
  · apply (readAlone_recode (Utf8.bytes whole)).2.2 whole rfl
    rw [wholeTexts]
    decide
  · exact reads [0xc3] [0xc3] (by decide) (by decide)

end LineReader

end PipelineShell

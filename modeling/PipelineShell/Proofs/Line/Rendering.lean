import PipelineShell.Proofs.Line.Acceptance
import PipelineShell.Proofs.Line.Building
import PipelineShell.Proofs.Line.Spelling
import PipelineShell.Proofs.Text.Plain

/-!
Printing a line and reading it again. A line that calls have built comes back as itself exactly if
its texts are plain, and the texts of every line that is read are.
-/

namespace PipelineShell

open Grammar

/-! ### Plain lines -/

def Output.path? : Output → Option String
  | .inherited => none
  | .emptied path => some path
  | .appended path => some path

/-- A line of which every argument and the path are plain. -/
structure CommandLine.IsPlain (line : CommandLine) : Prop where
  arguments : ∀ step, .command step ∈ line.items → ∀ argument ∈ step.arguments, IsPlainText argument
  path : ∀ path ∈ line.output.path?, IsPlainText path

/-! ### The tokens of a line -/

def Item.tokens : Item → List Token
  | .command step => step.arguments.map fun argument => .word (Utf8.bytes argument)
  | .connective join => [.connective join]

def Output.tokens : Output → List Token
  | .inherited => []
  | .emptied path => [.redirect false (Utf8.bytes path)]
  | .appended path => [.redirect true (Utf8.bytes path)]

def CommandLine.mark (line : CommandLine) : List Token :=
  if line.background then [.background] else []

def CommandLine.tokens (line : CommandLine) : List Token :=
  line.items.flatMap Item.tokens ++ line.output.tokens ++ line.mark

private theorem filled_of_mem_tokens {line : CommandLine} (plain : line.IsPlain) {token : Token}
    (member : token ∈ line.tokens) : token.IsFilled := by
  rcases List.mem_append.mp member with front | inMark
  · rcases List.mem_append.mp front with inItems | inOutput
    · obtain ⟨item, inLine, inItem⟩ := List.mem_flatMap.mp inItems
      cases item with
      | command step =>
          obtain ⟨argument, inStep, tokenEq⟩ := List.mem_map.mp inItem
          rw [← tokenEq]
          exact isWord_bytes (plain.arguments step inLine argument inStep)
      | connective join =>
          rw [List.mem_singleton.mp inItem]
          trivial
    · have path := plain.path
      cases output : line.output with
      | inherited =>
          rw [output] at inOutput
          cases inOutput
      | emptied target =>
          rw [output] at inOutput path
          rw [List.mem_singleton.mp inOutput]
          exact isWord_bytes (path target rfl)
      | appended target =>
          rw [output] at inOutput path
          rw [List.mem_singleton.mp inOutput]
          exact isWord_bytes (path target rfl)
  · rw [CommandLine.mark] at inMark
    split at inMark
    · rw [List.mem_singleton.mp inMark]
      trivial
    · cases inMark

/-! ### The tokens are those of the grammar -/

private theorem isCommand_tokens {words : List String} (areWords : AreWords words) :
    IsCommand (Item.tokens (.command (.ofWords words))) (.ofWords words) := by
  cases words with
  | nil => exact absurd rfl areWords.filled
  | cons first others =>
      have command := IsCommand.ofWords (Utf8.bytes first) (others.map Utf8.bytes)
      have restored : ∀ texts : List String, (texts.map Utf8.bytes).map Utf8.text = texts := by
        intro texts
        rw [List.map_map]
        exact (List.map_congr_left fun text _ => Utf8.text_bytes text).trans (List.map_id texts)
      rw [← List.map_cons, List.map_map, restored, Utf8.text_bytes] at command
      exact command

private theorem isSequence_tokens {items : List Item} (alternating : IsAlternating items) :
    IsSequence (items.flatMap Item.tokens) items := by
  induction alternating with
  | single areWords =>
      rw [List.flatMap_singleton]
      exact .single (isCommand_tokens areWords)
  | joined before join areWords ih =>
      rw [List.flatMap_append, List.flatMap_cons, List.flatMap_singleton]
      exact .joined ih join (isCommand_tokens areWords)

private theorem isLine_tokens {line : CommandLine} (alternating : IsAlternating line.items) :
    IsLine line.tokens line := by
  have target : IsRedirection line.output.tokens line.output := by
    cases line.output with
    | inherited => exact .absent
    | emptied path =>
        have emptied := IsRedirection.emptied (Utf8.bytes path)
        rw [Utf8.text_bytes] at emptied
        exact emptied
    | appended path =>
        have appended := IsRedirection.appended (Utf8.bytes path)
        rw [Utf8.text_bytes] at appended
        exact appended
  have ending : IsMark line.mark line.background := by
    rw [CommandLine.mark]
    cases line.background with
    | false => exact .absent
    | true => exact .present
  exact .ofParts (isSequence_tokens alternating) target ending

/-! ### The bytes of a line -/

private theorem space_cons_bytes_intercalate {texts : List String} (filled : texts ≠ []) :
    Byte.space :: Utf8.bytes (" ".intercalate texts)
      = texts.flatMap fun text => Byte.space :: Utf8.bytes text := by
  induction texts with
  | nil => exact absurd rfl filled
  | cons first others ih =>
      cases others with
      | nil => rw [String.intercalate_singleton, List.flatMap_singleton]
      | cons second more =>
          rw [String.intercalate_cons_cons, Utf8.bytes_append, Utf8.bytes_append,
            List.flatMap_cons, ← ih (List.cons_ne_nil _ _), List.append_assoc]
          rfl

private theorem space_cons_bytes_item {words : List String} (areWords : AreWords words) :
    Byte.space :: Utf8.bytes (Item.render (.command (.ofWords words)))
      = Token.spellAll (Item.tokens (.command (.ofWords words))) := by
  rw [Item.tokens, Token.spellAll, List.flatMap_map]
  exact space_cons_bytes_intercalate areWords.filled

private theorem space_cons_bytes_connective (join : Connective) :
    Byte.space :: Utf8.bytes (Item.render (.connective join))
      = Token.spellAll (Item.tokens (.connective join)) := by
  cases join <;> decide

private theorem space_cons_bytes_items {items : List Item} (alternating : IsAlternating items) :
    Byte.space :: Utf8.bytes (" ".intercalate (items.map Item.render))
      = Token.spellAll (items.flatMap Item.tokens) := by
  have each : items ≠ [] ∧ ∀ item ∈ items, Byte.space :: Utf8.bytes item.render
      = Token.spellAll item.tokens := by
    induction alternating with
    | single areWords =>
        refine ⟨List.cons_ne_nil _ _, ?_⟩
        intro item member
        rw [List.mem_singleton.mp member]
        exact space_cons_bytes_item areWords
    | joined before join areWords ih =>
        refine ⟨List.append_ne_nil_of_left_ne_nil ih.1 _, ?_⟩
        intro item member
        rcases List.mem_append.mp member with earlier | last
        · exact ih.2 item earlier
        · rcases List.mem_cons.mp last with here | behind
          · rw [here]
            exact space_cons_bytes_connective join
          · rw [List.mem_singleton.mp behind]
            exact space_cons_bytes_item areWords
  rw [space_cons_bytes_intercalate (by simp [each.1]), List.flatMap_map, Token.spellAll,
    List.flatMap_assoc, List.flatMap, List.flatMap, List.map_congr_left each.2]
  rfl

private theorem bytes_output (output : Output) :
    Utf8.bytes output.render = Token.spellAll output.tokens := by
  cases output with
  | inherited => rfl
  | emptied path =>
      rw [Output.render, Utf8.bytes_append, Output.tokens, Token.spellAll, List.flatMap_singleton]
      rfl
  | appended path =>
      rw [Output.render, Utf8.bytes_append, Output.tokens, Token.spellAll, List.flatMap_singleton]
      rfl

private theorem space_cons_bytes_render {line : CommandLine}
    (alternating : IsAlternating line.items) :
    Byte.space :: Utf8.bytes line.render = Token.spellAll line.tokens := by
  have mark : Utf8.bytes (if line.background then " &" else "") = Token.spellAll line.mark := by
    rw [CommandLine.mark]
    cases line.background <;> decide
  rw [CommandLine.render, Utf8.bytes_append, Utf8.bytes_append, mark, bytes_output,
    CommandLine.tokens, Token.spellAll_append, Token.spellAll_append,
    ← space_cons_bytes_items alternating]
  rfl

/-! ### Printed lines are read back -/

/-- A plain line that has been built is read as itself. -/
theorem ofLine_render {line : CommandLine} (alternating : IsAlternating line.items)
    (plain : line.IsPlain) :
    Reading.ofLine (Utf8.bytes line.render ++ [Byte.lineFeed]) = .line line := by
  have filled : ∀ token ∈ line.tokens, token.IsFilled :=
    fun _token member => filled_of_mem_tokens plain member
  have scanned : Token.scan (Utf8.bytes line.render ++ [Byte.lineFeed]) = ⟨line.tokens, none⟩ := by
    rw [← Token.scan_space, ← List.cons_append, space_cons_bytes_render alternating,
      Token.scan_spellAll filled]
  rw [Reading.ofLine_eq_line_iff, scanned]
  exact ⟨rfl, isLine_tokens alternating⟩

private theorem lineFeed_not_mem_render {line : CommandLine}
    (alternating : IsAlternating line.items)
    (plain : line.IsPlain) : Byte.lineFeed ∉ Utf8.bytes line.render := by
  have filled : ∀ token ∈ line.tokens, token.IsFilled :=
    fun _token member => filled_of_mem_tokens plain member
  have absent := Token.lineFeed_not_mem_spellAll filled
  rw [← space_cons_bytes_render alternating] at absent
  exact fun member => absent (List.mem_cons_of_mem _ member)

/-! ### Lines that are read are plain -/

private theorem exists_word_of_isCommand {tokens : List Token} {step : Command}
    (command : IsCommand tokens step) {argument : String} (told : argument ∈ step.arguments) :
    ∃ bytes, .word bytes ∈ tokens ∧ argument = Utf8.text bytes := by
  cases command with
  | ofWords first others =>
      obtain ⟨bytes, inWords, textEq⟩ := List.mem_map.mp told
      exact ⟨bytes, List.mem_map_of_mem inWords, textEq.symm⟩

private theorem exists_word_of_isSequence {tokens : List Token} {items : List Item}
    (sequence : IsSequence tokens items) {step : Command} (member : .command step ∈ items)
    {argument : String} (told : argument ∈ step.arguments) :
    ∃ bytes, .word bytes ∈ tokens ∧ argument = Utf8.text bytes := by
  induction sequence with
  | single command =>
      cases List.mem_singleton.mp member
      exact exists_word_of_isCommand command told
  | joined before join command ih =>
      rcases List.mem_append.mp member with earlier | last
      · obtain ⟨bytes, inFront, textEq⟩ := ih earlier
        exact ⟨bytes, List.mem_append_left _ inFront, textEq⟩
      · rcases List.mem_cons.mp last with here | behind
        · cases here
        · cases List.mem_singleton.mp behind
          obtain ⟨bytes, inMore, textEq⟩ := exists_word_of_isCommand command told
          exact ⟨bytes, List.mem_append_right _ (List.mem_cons_of_mem _ inMore), textEq⟩

private theorem isPlain_of_isLine {tokens : List Token} {line : CommandLine}
    (filled : ∀ token ∈ tokens, token.IsFilled) (isLine : IsLine tokens line) : line.IsPlain := by
  cases isLine with
  | ofParts commands target ending =>
      constructor
      · intro step member argument told
        obtain ⟨bytes, inCommands, textEq⟩ := exists_word_of_isSequence commands member told
        rw [textEq]
        exact isPlainText_text
          (filled _ (List.mem_append_left _ (List.mem_append_left _ inCommands)))
      · intro path given
        cases target with
        | absent => cases given
        | emptied bytes =>
            cases given
            exact isPlainText_text (filled (.redirect false bytes)
              (List.mem_append_left _ (List.mem_append_right _ List.mem_cons_self)))
        | appended bytes =>
            cases given
            exact isPlainText_text (filled (.redirect true bytes)
              (List.mem_append_left _ (List.mem_append_right _ List.mem_cons_self)))

private theorem exists_areWords_of_isCommand {tokens : List Token} {step : Command}
    (filled : ∀ token ∈ tokens, token.IsFilled) (command : IsCommand tokens step) :
    ∃ words, AreWords words ∧ step = .ofWords words := by
  cases command with
  | ofWords first others =>
      refine ⟨(first :: others).map Utf8.text, ⟨List.cons_ne_nil _ _, ?_⟩, rfl⟩
      intro text member
      obtain ⟨bytes, inWords, textEq⟩ := List.mem_map.mp member
      rw [← textEq]
      exact Utf8.text_ne_empty (filled (.word bytes) (List.mem_map_of_mem inWords)).1

private theorem isAlternating_of_isSequence {tokens : List Token} {items : List Item}
    (filled : ∀ token ∈ tokens, token.IsFilled) (sequence : IsSequence tokens items) :
    IsAlternating items := by
  induction sequence with
  | single command =>
      obtain ⟨words, areWords, stepEq⟩ := exists_areWords_of_isCommand filled command
      rw [stepEq]
      exact .single areWords
  | joined before join command ih =>
      have alternating := ih fun token member => filled token (List.mem_append_left _ member)
      obtain ⟨words, areWords, stepEq⟩ := exists_areWords_of_isCommand (fun token member =>
        filled token (List.mem_append_right _ (List.mem_cons_of_mem _ member))) command
      rw [stepEq]
      exact .joined alternating join areWords

private theorem isAlternating_of_isLine {tokens : List Token} {line : CommandLine}
    (filled : ∀ token ∈ tokens, token.IsFilled) (isLine : IsLine tokens line) :
    IsAlternating line.items := by
  cases isLine with
  | ofParts commands target ending =>
      exact isAlternating_of_isSequence (fun token member =>
        filled token (List.mem_append_left _ (List.mem_append_left _ member))) commands

theorem Stream.isPlain_of_mem_readings {bytes : List UInt8} {line : CommandLine}
    (member : .line line ∈ readings bytes) : IsAlternating line.items ∧ line.IsPlain := by
  obtain ⟨lineBytes, _, reads⟩ := List.mem_map.mp member
  obtain ⟨_, isLine⟩ := Reading.ofLine_eq_line_iff.mp reads
  exact ⟨isAlternating_of_isLine Token.filled_of_scan isLine,
    isPlain_of_isLine Token.filled_of_scan isLine⟩

/-! ### Printing and reading -/

namespace LineReader

/-- What a reader makes of a printed line and a line feed. -/
def readBack (line : CommandLine) : List Reading :=
  ((empty.feed (Utf8.bytes line.render)).feed [Byte.lineFeed]).takeLines.1

private theorem readBack_eq (line : CommandLine) :
    readBack line = Stream.readings (Utf8.bytes line.render ++ [Byte.lineFeed]) := by
  rw [readBack, ((wellPlaced_empty.feed _).feed _).takeLines_eq.1, unread_feed, unread_empty_feed]

private theorem readBack_of_isPlain {line : CommandLine} (alternating : IsAlternating line.items)
    (plain : line.IsPlain) : readBack line = [.line line] := by
  rw [readBack_eq, Stream.readings,
    Stream.lines_of_line (lineFeed_not_mem_render alternating plain)]
  exact congrArg (fun reading => [reading]) (ofLine_render alternating plain)

/-- Printing a line that calls on a draft have built and reading it gives that line and no more
exactly if its texts are plain; and whatever bytes a reader is fed, each line that it gives is
plain, so that printing and reading it again gives the same line. -/
theorem read_printed_eq_iff_plain :
    (∀ calls line, (LineDraft.empty.offerAll calls).finish = .ok (some line) →
      (readBack line = [.line line] ↔ line.IsPlain)) ∧
    ∀ calls line, ReaderAnswer.reading (.line line) ∈ (empty.answers calls).1 →
      line.IsPlain ∧ readBack line = [.line line] := by
  constructor
  · intro calls line finished
    have alternating := (LineDraft.wellFormed_empty.offerAll calls).isAlternating finished
    constructor
    · intro same
      rw [readBack_eq] at same
      have member : .line line ∈ Stream.readings (Utf8.bytes line.render ++ [Byte.lineFeed]) := by
        rw [same]
        exact List.mem_cons_self
      exact (Stream.isPlain_of_mem_readings member).2
    · exact readBack_of_isPlain alternating
  · intro calls line member
    have given : .line line ∈ (empty.answers calls).1.filterMap ReaderAnswer.taken? :=
      List.mem_filterMap.mpr ⟨_, member, rfl⟩
    have account := (wellPlaced_empty.accounts_of_answers calls).readings
    have inStream := List.mem_append_left (Stream.readings (empty.answers calls).2.unread) given
    rw [account] at inStream
    obtain ⟨alternating, plain⟩ := Stream.isPlain_of_mem_readings inStream
    exact ⟨plain, readBack_of_isPlain alternating plain⟩

/-- `ls > o &` is read back, a word with a space in it is not. -/
theorem read_printed_of_words :
    let line : CommandLine := ⟨[.command (.ofWords ["ls"])], .emptied "o", true⟩
    let apart : CommandLine := ⟨[.command (.ofWords ["a b"])], .inherited, false⟩
    let calls : List ReaderCall := [.feed (Utf8.bytes line.render ++ [Byte.lineFeed]), .next]
    (LineDraft.empty.offerAll [.word "ls", .redirect (.emptied "o"), .word "x", .background]).finish
        = .ok (some line) ∧
      (LineDraft.empty.offerAll [.background, .word "a b"]).finish = .ok (some apart) ∧
      ReaderAnswer.reading (.line line) ∈ (empty.answers calls).1 ∧
      readBack line = [.line line] ∧ readBack apart ≠ [.line apart] := by
  intro line apart calls
  have alternating : IsAlternating line.items :=
    .single ⟨by decide, by decide⟩
  have plain : line.IsPlain := by
    refine ⟨?_, fun path given => ?_⟩
    · intro step member argument told
      cases List.mem_singleton.mp member
      rw [List.mem_singleton.mp told]
      exact ⟨by decide, by simp [separators]⟩
    · cases given
      exact ⟨by decide, by simp [separators]⟩
  have member : ReaderAnswer.reading (.line line) ∈ (empty.answers calls).1 := by
    have reads := (wellPlaced_empty.feed (Utf8.bytes line.render ++ [Byte.lineFeed])).next_of_line
      (lineFeed_not_mem_render alternating plain) (unread_empty_feed _)
    rw [ofLine_render alternating plain] at reads
    have answersEq : (empty.answers calls).1
        = [.fed, .reading (empty.feed (Utf8.bytes line.render ++ [Byte.lineFeed])).next.1] := rfl
    rw [answersEq, reads]
    exact List.mem_cons_of_mem _ List.mem_cons_self
  refine ⟨rfl, rfl, member, (read_printed_eq_iff_plain.2 calls line member).2, ?_⟩
  intro same
  have alsoPlain := (read_printed_eq_iff_plain.1 [.background, .word "a b"] apart rfl).mp same
  have plainText := alsoPlain.arguments (.ofWords ["a b"]) List.mem_cons_self "a b"
    List.mem_cons_self
  exact plainText.2 ' ' (by decide) (by decide)

end LineReader

end PipelineShell

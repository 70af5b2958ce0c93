import PipelineShell.Proofs.Line.Drafting
import PipelineShell.Proofs.Reader.Batch

/-!
What a line reads as. A terminated line is accepted exactly if its tokens are a line of the
grammar, and then as that line; it is blank exactly if it has no token; and for the others the
fault that stands furthest left is reported.
-/

namespace PipelineShell

open Grammar

namespace LineDraft

/-! ### Closing a draft -/

private theorem eq_nil_of_isClosed {tokens : List Token} {items : List Item}
    (front : IsClosed tokens items) (nothing : items = []) : tokens = [] := by
  cases front with
  | nil => rfl
  | snoc before command join => exact absurd nothing (by simp)

private theorem finish_of_words {words : List (List UInt8)} (filled : words ≠ [])
    (closed : List Item)
    (output : Option Output) (background : Bool) :
    finish ⟨closed, (words.map Utf8.text).reverse, output, background⟩
      = .ok (some ⟨closed.reverse ++ [.command (.ofWords (words.map Utf8.text))],
          output.getD .inherited, background⟩) := by
  have itemsEq : items ⟨closed, (words.map Utf8.text).reverse, output, background⟩
      = closed.reverse ++ [.command (.ofWords (words.map Utf8.text))] := by
    simp [items, openCommand, filled]
  rw [finish, itemsEq]
  cases given : (words.map Utf8.text).reverse with
  | nil => exact absurd given (by simp [filled])
  | cons last others => rfl

private theorem parts_of_isModifier {modifiers : List Token} {output : Option Output}
    {background : Bool}
    (modified : IsModifier modifiers output background) :
    ∃ redirection mark, modifiers = redirection ++ mark ∧
      IsRedirection redirection (output.getD .inherited) ∧ IsMark mark background := by
  have target (append : Bool) (path : List UInt8) :
      IsRedirection [.redirect append path] (Token.target append path) := by
    cases append with
    | false => exact .emptied path
    | true => exact .appended path
  cases modified with
  | absent => exact ⟨[], [], rfl, .absent, .absent⟩
  | redirection append path => exact ⟨_, [], rfl, target append path, .absent⟩
  | mark => exact ⟨[], _, rfl, .absent, .present⟩
  | both append path => exact ⟨[.redirect append path], _, rfl, target append path, .present⟩

private theorem isModifier_of_parts {redirection mark : List Token} {output : Output}
    {background : Bool}
    (target : IsRedirection redirection output) (ending : IsMark mark background) :
    ∃ given : Option Output, given.getD .inherited = output ∧
      IsModifier (redirection ++ mark) given background := by
  cases target with
  | absent =>
      cases ending with
      | absent => exact ⟨none, rfl, .absent⟩
      | present => exact ⟨none, rfl, .mark⟩
  | emptied path =>
      cases ending with
      | absent => exact ⟨_, rfl, .redirection false path⟩
      | present => exact ⟨_, rfl, .both false path⟩
  | appended path =>
      cases ending with
      | absent => exact ⟨_, rfl, .redirection true path⟩
      | present => exact ⟨_, rfl, .both true path⟩

theorem Reads.finish_cases {tokens : List Token} {draft : LineDraft}
    (reads : Reads tokens draft) :
    (tokens = [] ∧ draft.finish = .ok none) ∨
    (endsInConnective tokens = true ∧ draft.finish = .error .noRightOperand) ∨
    ∃ line, IsLine tokens line ∧ draft.finish = .ok (some line) ∧
      endsInConnective tokens = false := by
  have joined := reads.agrees.joined
  cases reads with
  | @between _ closed front =>
      cases closed with
      | nil => exact Or.inl ⟨eq_nil_of_isClosed front rfl, rfl⟩
      | cons last others => exact Or.inr (Or.inl ⟨joined, rfl⟩)
  | @inside front modifiers closed words output background isClosed some modified =>
      right
      right
      obtain ⟨redirection, mark, modifiersEq, target, ending⟩ := parts_of_isModifier modified
      have sequence := isSequence_of_isClosed isClosed (isCommand_of_words some)
      have given : (words.map Utf8.text).reverse.isEmpty = false := by
        simp [some]
      refine ⟨_, ?_, finish_of_words some closed output background, ?_⟩
      · rw [modifiersEq, ← List.append_assoc]
        exact .ofParts sequence target ending
      · rw [joined, given, Bool.false_and]

private theorem exists_reads_of_isLine {tokens : List Token} {line : CommandLine}
    (isLine : IsLine tokens line) :
    ∃ draft, Reads tokens draft ∧ draft.finish = .ok (some line) := by
  cases isLine with
  | @ofParts sequence redirection mark items output background commands target ending =>
      obtain ⟨front, closed, words, isClosed, some, sequenceEq, itemsEq⟩ :=
        exists_closed_of_isSequence commands
      obtain ⟨given, outputEq, modified⟩ := isModifier_of_parts target ending
      rw [← List.reverse_reverse closed] at isClosed
      refine ⟨⟨closed.reverse, (words.map Utf8.text).reverse, given, background⟩, ?_, ?_⟩
      · rw [sequenceEq, List.append_assoc _ redirection]
        exact .inside isClosed some modified
      · rw [finish_of_words some, List.reverse_reverse, outputEq, itemsEq]

end LineDraft

/-! ### The tokens decide -/

def Token.Scan.judge (scan : Token.Scan) : Except LineFault (Option CommandLine) :=
  (scan.tokens.foldlM LineDraft.push .empty).bind fun draft => draft.close scan.fault

theorem CommandLine.parse_eq_judge (bytes : List UInt8) :
    CommandLine.parse bytes = (Token.scan bytes).judge :=
  CommandLine.parse_eq_foldlM bytes

namespace Token.Scan

variable {tokens : List Token} (filled : ∀ token ∈ tokens, token.IsFilled)

include filled

private theorem judge_of_faultless (intact : Faultless tokens) :
    ∃ draft : LineDraft, draft.Reads tokens ∧
      ∀ ending, judge ⟨tokens, ending⟩ = draft.close ending := by
  rcases LineDraft.foldlM_push_cases tokens filled with
    ⟨draft, taken, reads, _⟩ | ⟨front, token, after, fault, split, _, faulty, _⟩
  · exact ⟨draft, reads, fun ending => by rw [judge, taken]; rfl⟩
  · rw [intact front token after split] at faulty
    cases faulty

private theorem judge_of_isLine {line : CommandLine} (isLine : IsLine tokens line) :
    judge ⟨tokens, none⟩ = .ok (some line) := by
  obtain ⟨draft, reads, finished⟩ := LineDraft.exists_reads_of_isLine isLine
  rw [judge, reads.foldlM_push filled]
  exact finished

private theorem judge_of_isLeftmostFault {ending : Option LineFault} {fault : LineFault}
    (leftmost : IsLeftmostFault ⟨tokens, ending⟩ fault) :
    judge ⟨tokens, ending⟩ = .error fault := by
  cases leftmost with
  | @ofToken before after token ending fault intact faulty =>
      rcases LineDraft.foldlM_push_cases (before ++ token :: after) filled with
        ⟨draft, taken, _, alsoIntact⟩ | ⟨front, other, later, cause, split, fine, cursed, refused⟩
      · rw [alsoIntact before token after rfl] at faulty
        cases faulty
      · rw [judge, refused, intact.fault_unique fine faulty cursed split]
        rfl
  | ofEnding intact faulty =>
      obtain ⟨draft, reads, judged⟩ := judge_of_faultless filled intact
      rw [judged]
      cases ending with
      | some cause => exact congrArg Except.error (Option.some.inj faulty)
      | none =>
          rw [faultAtEnd] at faulty
          split at faulty
          · rename_i joined
            cases faulty
            rcases reads.finish_cases with ⟨nothing, _⟩ | ⟨_, refused⟩ | ⟨_, _, _, open_⟩
            · rw [nothing] at joined
              cases joined
            · exact refused
            · rw [open_] at joined
              cases joined
          · cases faulty

/-- The verdict on filled tokens: nothing, a line of the grammar, or the leftmost fault. -/
theorem judge_cases (ending : Option LineFault) :
    (tokens = [] ∧ ending = none ∧ judge ⟨tokens, ending⟩ = .ok none) ∨
    (∃ line, IsLine tokens line ∧ ending = none ∧ judge ⟨tokens, ending⟩ = .ok (some line)) ∨
    ∃ fault, IsLeftmostFault ⟨tokens, ending⟩ fault ∧
      judge ⟨tokens, ending⟩ = .error fault := by
  rcases LineDraft.foldlM_push_cases tokens filled with
    ⟨draft, taken, reads, intact⟩ | ⟨front, token, after, fault, split, fine, faulty, refused⟩
  · have judged : judge ⟨tokens, ending⟩ = draft.close ending := by
      rw [judge, taken]
      rfl
    rw [judged]
    cases ending with
    | some fault => exact Or.inr (Or.inr ⟨fault, .ofEnding intact rfl, rfl⟩)
    | none =>
        rcases reads.finish_cases with ⟨nothing, noLine⟩ | ⟨joined, refused⟩ |
          ⟨line, isLine, finished, _⟩
        · exact Or.inl ⟨nothing, rfl, noLine⟩
        · refine Or.inr (Or.inr ⟨_, .ofEnding intact ?_, refused⟩)
          exact if_pos joined
        · exact Or.inr (Or.inl ⟨line, isLine, rfl, finished⟩)
  · subst split
    refine Or.inr (Or.inr ⟨fault, .ofToken fine faulty, ?_⟩)
    rw [judge, refused]
    rfl

private theorem judge_eq_line_iff {ending : Option LineFault} {line : CommandLine} :
    judge ⟨tokens, ending⟩ = .ok (some line) ↔ ending = none ∧ IsLine tokens line := by
  constructor
  · intro judged
    rcases judge_cases filled ending with
      ⟨_, _, noLine⟩ | ⟨other, isLine, clean, accepted⟩ | ⟨_, _, refused⟩
    · rw [noLine] at judged
      cases judged
    · rw [accepted] at judged
      cases judged
      exact ⟨clean, isLine⟩
    · rw [refused] at judged
      cases judged
  · rintro ⟨rfl, isLine⟩
    exact judge_of_isLine filled isLine

private theorem judge_eq_blank_iff {ending : Option LineFault} :
    judge ⟨tokens, ending⟩ = .ok none ↔ tokens = [] ∧ ending = none := by
  constructor
  · intro judged
    rcases judge_cases filled ending with
      ⟨nothing, clean, _⟩ | ⟨_, _, _, accepted⟩ | ⟨_, _, refused⟩
    · exact ⟨nothing, clean⟩
    · rw [accepted] at judged
      cases judged
    · rw [refused] at judged
      cases judged
  · rintro ⟨rfl, rfl⟩
    rfl

private theorem judge_eq_fault_iff {ending : Option LineFault} {fault : LineFault} :
    judge ⟨tokens, ending⟩ = .error fault ↔ IsLeftmostFault ⟨tokens, ending⟩ fault := by
  constructor
  · intro judged
    rcases judge_cases filled ending with
      ⟨_, _, noLine⟩ | ⟨_, _, _, accepted⟩ | ⟨cause, leftmost, refused⟩
    · rw [noLine] at judged
      cases judged
    · rw [accepted] at judged
      cases judged
    · rw [refused] at judged
      cases judged
      exact leftmost
  · exact judge_of_isLeftmostFault filled

end Token.Scan

/-! ### The reading of a line -/

section

variable {bytes : List UInt8}

theorem Token.filled_of_scan : ∀ token ∈ (Token.scan bytes).tokens, token.IsFilled :=
  fun _token member => Token.filled_of_mem_scan member

theorem Reading.ofLine_eq_line_iff {line : CommandLine} :
    Reading.ofLine bytes = .line line
      ↔ (Token.scan bytes).fault = none ∧ IsLine (Token.scan bytes).tokens line := by
  rw [← Token.Scan.judge_eq_line_iff Token.filled_of_scan, ofLine, CommandLine.parse_eq_judge]
  split <;> rename_i judged <;> simp [judged]

theorem Reading.ofLine_eq_blank_iff :
    Reading.ofLine bytes = .blank
      ↔ (Token.scan bytes).tokens = [] ∧ (Token.scan bytes).fault = none := by
  rw [← Token.Scan.judge_eq_blank_iff Token.filled_of_scan, ofLine, CommandLine.parse_eq_judge]
  split <;> rename_i judged <;> simp [judged]

theorem Reading.ofLine_eq_fault_iff {fault : LineFault} :
    Reading.ofLine bytes = .fault fault ↔ IsLeftmostFault (Token.scan bytes) fault := by
  rw [ofLine, CommandLine.parse_eq_judge]
  have decided : (Token.scan bytes).judge = .error fault
      ↔ IsLeftmostFault (Token.scan bytes) fault :=
    Token.Scan.judge_eq_fault_iff Token.filled_of_scan
  rw [← decided]
  split <;> rename_i judged <;> simp [judged]

end

namespace LineReader

/-- Whatever calls led to a reader: if a line feed is among its unread bytes, then the bytes up to
the first one are taken as a line exactly if their tokens are a line of the grammar, and as that
line; as blank exactly if they have no token; and for any other the leftmost fault is reported. -/
theorem next_accepts_exactly_grammar (calls : List ReaderCall) (inner rest : List UInt8)
    (absent : Byte.lineFeed ∉ inner)
    (front : (empty.answers calls).2.unread = inner ++ Byte.lineFeed :: rest) :
    let reading := (empty.answers calls).2.next.1
    let scan := Token.scan (inner ++ [Byte.lineFeed])
    (∀ line, reading = .line line ↔ scan.fault = none ∧ IsLine scan.tokens line) ∧
      (reading = .blank ↔ scan.tokens = [] ∧ scan.fault = none) ∧
      (∀ fault, reading = .fault fault ↔ IsLeftmostFault scan fault) ∧
      reading ≠ .incomplete := by
  intro reading scan
  have readingEq : reading = Reading.ofLine (inner ++ [Byte.lineFeed]) :=
    (wellPlaced_empty.accounts_of_answers calls).placed.next_of_line absent front
  rw [readingEq]
  exact ⟨fun _line => Reading.ofLine_eq_line_iff, Reading.ofLine_eq_blank_iff,
    fun _fault => Reading.ofLine_eq_fault_iff, Reading.ofLine_ne_incomplete _⟩

/-- The line `ls >o&`, fed in two pieces of which the second reaches into the next line. -/
theorem next_accepts_redirected_background :
    let inner : List UInt8 := [0x6c, 0x73, 0x20, 0x3e, 0x6f, 0x26]
    let calls : List ReaderCall := [.feed [0x6c, 0x73, 0x20, 0x3e], .feed [0x6f, 0x26, 0x0a, 0x7c]]
    Byte.lineFeed ∉ inner ∧
      (empty.answers calls).2.unread = inner ++ Byte.lineFeed :: [0x7c] ∧
      (empty.answers calls).2.next.1
        = .line ⟨[.command ⟨"ls", ["ls"]⟩], .emptied "o", true⟩ := by
  intro inner calls
  have absent : Byte.lineFeed ∉ inner := by
    decide
  have front : (empty.answers calls).2.unread = inner ++ Byte.lineFeed :: [0x7c] := by
    change ((empty.feed [0x6c, 0x73, 0x20, 0x3e]).feed [0x6f, 0x26, 0x0a, 0x7c]).unread = _
    rw [unread_feed, unread_empty_feed]
    rfl
  have scanEq : Token.scan (inner ++ [Byte.lineFeed])
      = ⟨[.word [0x6c, 0x73], .redirect false [0x6f], .background], none⟩ := by
    have first : Token.front (inner ++ [Byte.lineFeed])
        = .token (.word [0x6c, 0x73]) [0x20, 0x3e, 0x6f, 0x26, 0x0a] := by
      decide
    have second : Token.front [0x20, 0x3e, 0x6f, 0x26, 0x0a]
        = .token (.redirect false [0x6f]) [0x26, 0x0a] := by
      decide
    have third : Token.front [0x26, 0x0a] = .token .background [0x0a] := by
      decide
    have last : Token.front [0x0a] = .terminator [] := by
      decide
    rw [Token.scan_of_token first, Token.scan_of_token second, Token.scan_of_token third,
      Token.scan_of_terminator last]
  refine ⟨absent, front, ?_⟩
  apply ((next_accepts_exactly_grammar calls inner [0x7c] absent front).1 _).mpr
  rw [scanEq]
  exact ⟨rfl, .ofParts (.single (.ofWords [0x6c, 0x73] [])) (.emptied [0x6f]) .present⟩

end LineReader

end PipelineShell

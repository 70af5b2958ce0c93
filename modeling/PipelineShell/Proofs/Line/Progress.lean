import PipelineShell.CommandLine.Reader
import PipelineShell.Proofs.Line.Drafting
import PipelineShell.Proofs.Line.Inversion
import PipelineShell.Proofs.Line.Places

/-!
The calls for the tokens of a line that ends with its only line feed. Each is made in front of that
line feed and moves on; it stays in front of it unless it finds the end of the line, and then it has
come to the last place. So the calls are fewer than the bytes, and the line is parsed with as many.
Every word has bytes, so it has characters, and none is refused for having none.
-/

namespace PipelineShell

namespace LineCursor

variable {cursor behind : LineCursor} {bytes rest : List UInt8}

/-! ### All calls of a line -/

private theorem isGap_of_exhausted (found : Token.front bytes = .exhausted) :
    Token.IsGap bytes := by
  have stands := Token.standsIn_front bytes
  rw [found] at stands
  cases stands with
  | exhausted isGap => exact isGap

private theorem exists_gap_of_terminator (found : Token.front bytes = .terminator rest) :
    ∃ gap, Token.IsGap gap ∧ bytes = gap ++ Byte.lineFeed :: rest := by
  have stands := Token.standsIn_front bytes
  rw [found] at stands
  cases stands with
  | terminator isGap => exact ⟨_, isGap, rfl⟩

structure IsOpen (line : List UInt8) (cursor : LineCursor) : Prop where
  line_eq : cursor.line = line
  left_eq : ∃ inner, Byte.lineFeed ∉ inner ∧ cursor.left = inner ++ [Byte.lineFeed]

/-- What a call does in front of the line feed: it finds what the scanner finds there and moves on,
and it has come to the end of the line if it has found the end, and otherwise not. -/
structure Advances (line : List UInt8) (cursor : LineCursor) (found : Found)
    (behind : LineCursor) : Prop where
  called : cursor.next? = some (found, behind)
  front_eq : Token.front (line.drop cursor.place) = found.toFront (line.drop behind.place)
  place_lt : cursor.place < behind.place
  remains : found ≠ .exhausted
  ended : found.isEnd = true → behind.place = line.length
  unended : found.isEnd = false → IsOpen line behind

variable {line : List UInt8} {found : Found}

private theorem isOpen_atFront {inner : List UInt8} (one : Byte.lineFeed ∉ inner) :
    IsOpen (inner ++ [Byte.lineFeed]) (atFront (inner ++ [Byte.lineFeed])) :=
  ⟨rfl, inner, one, rfl⟩

theorem IsOpen.place_lt (isOpen : IsOpen line cursor) : cursor.place < line.length := by
  obtain ⟨inner, _, leftEq⟩ := isOpen.left_eq
  have lengths := cursor.length_left
  rw [leftEq, List.length_append, List.length_singleton, isOpen.line_eq] at lengths
  omega

theorem Takes.front_drop_eq {front : Token.Front} (takes : Takes cursor front found bytes behind)
    (lineEq : cursor.line = line) : front = found.toFront (line.drop behind.place) := by
  rw [← lineEq, ← takes.passes.line_eq]
  exact takes.front_eq

theorem IsOpen.exists_advances (isOpen : IsOpen line cursor) :
    ∃ found behind, Advances line cursor found behind := by
  obtain ⟨found, bytes, behind, called, takes⟩ := answers_next? cursor
  obtain ⟨inner, one, leftEq⟩ := isOpen.left_eq
  have frontEq := takes.front_eq
  have remains : found ≠ .exhausted := by
    rintro rfl
    have isGap := isGap_of_exhausted frontEq
    rw [leftEq] at isGap
    exact Token.lineFeed_not_mem_of_isGap isGap (List.mem_append_right inner List.mem_cons_self)
  have moved := takes.passes.place_eq
  refine ⟨found, behind, called, ?_, ?_, remains, ?_, ?_⟩
  · have droppedEq := takes.front_drop_eq isOpen.line_eq
    rw [left, isOpen.line_eq] at droppedEq
    exact droppedEq
  · have passed := List.length_pos_iff.mpr (takes.advances remains)
    omega
  · intro isEnd
    cases found with
    | token token => cases isEnd
    | missingTarget => cases isEnd
    | exhausted => exact absurd rfl remains
    | terminator =>
        -- the line feed that was found is the only one, so nothing is left behind it
        obtain ⟨gap, _, leftAlso⟩ := exists_gap_of_terminator frontEq
        rw [leftEq] at leftAlso
        obtain ⟨_, _, nothing⟩ :=
          (List.append_cons_inj_of_notMem one List.not_mem_nil).mp leftAlso
        have lengths := takes.passes.length_left
        have inside := isOpen.place_lt
        rw [← nothing, List.length_nil, cursor.length_left, isOpen.line_eq] at lengths
        omega
  · intro unended
    have passesEq := takes.passes.left_eq
    rw [leftEq] at passesEq
    obtain ⟨more, behindEq, innerEq⟩ :=
      Token.exists_rest_of_append passesEq (takes.unended unended)
    refine ⟨takes.passes.line_eq.trans isOpen.line_eq, more, ?_, behindEq⟩
    intro member
    rw [innerEq] at one
    exact one (List.mem_append_right bytes member)

theorem Advances.place_le (advances : Advances line cursor found behind) :
    behind.place ≤ line.length := by
  cases isEnd : found.isEnd with
  | true => exact Nat.le_of_eq (advances.ended isEnd)
  | false => exact Nat.le_of_lt (advances.unended isEnd).place_lt

theorem Advances.isEnd_iff (advances : Advances line cursor found behind) :
    found.isEnd = true ↔ behind.place = line.length := by
  constructor
  · exact advances.ended
  · intro atEnd
    by_contra notEnd
    have inside := (advances.unended (Bool.eq_false_iff.mpr notEnd)).place_lt
    omega

theorem Advances.filled (advances : Advances line cursor found behind) :
    ∀ token, found = .token token → token.IsFilled := by
  rintro token rfl
  exact Token.filled_of_front advances.front_eq

/-- The cursor at which a call for a token is made, after so many calls of which none has found the
end of the line. A redirection without a path is no end: the calls may go on behind it. -/
inductive Asked (line : List UInt8) : Nat → LineCursor → Prop where
  | first : Asked line 0 (atFront line)
  | next {calls : Nat} {cursor behind : LineCursor} {found : Found}
      (asked : Asked line calls cursor) (called : cursor.next? = some (found, behind))
      (unended : found.isEnd = false) : Asked line (calls + 1) behind

theorem Asked.isOpen {calls : Nat} (asked : Asked line calls cursor)
    (front : IsOpen line (atFront line)) : IsOpen line cursor ∧ calls ≤ cursor.place := by
  induction asked with
  | first => exact ⟨front, Nat.le_refl 0⟩
  | next asked called unended ih =>
      obtain ⟨isOpen, callsLe⟩ := ih
      obtain ⟨found, behind, advances⟩ := isOpen.exists_advances
      rw [advances.called] at called
      cases called
      refine ⟨advances.unended unended, ?_⟩
      have moved := advances.place_lt
      omega

/-- With as many calls as there are bytes left the draft is closed or refused, and what becomes of
it is what the scanned tokens make of it. -/
theorem IsOpen.parse?_eq {calls : Nat} (isOpen : IsOpen line cursor)
    (enough : line.length ≤ cursor.place + calls) (draft : LineDraft) :
    cursor.parse? draft calls
      = some (((Token.scan (line.drop cursor.place)).tokens.foldlM LineDraft.push draft).bind
          fun longer => longer.close (Token.scan (line.drop cursor.place)).fault) := by
  induction calls generalizing cursor draft with
  | zero =>
      have inside := isOpen.place_lt
      omega
  | succ calls ih =>
      obtain ⟨found, behind, advances⟩ := isOpen.exists_advances
      have frontEq := advances.front_eq
      have moved := advances.place_lt
      rw [parse?, advances.called, Option.bind_eq_bind, Option.bind_some]
      cases found with
      | terminator =>
          rw [Token.scan_of_terminator frontEq]
          rfl
      | exhausted => exact absurd rfl advances.remains
      | missingTarget =>
          rw [Token.scan_of_missingTarget frontEq]
          rfl
      | token token =>
          -- the call has taken a byte at least, so the calls that are left do for the others
          have later := ih (advances.unended rfl) (by omega)
          rw [Token.scan_of_token frontEq, List.foldlM_cons]
          dsimp only
          cases draft.push token with
          | error fault => rfl
          | ok longer => exact later longer

end LineCursor

/-! ### Words with characters -/

namespace LineDraft

private theorem leftOperandFault_ne_emptyWord (draft : LineDraft) :
    draft.leftOperandFault ≠ some .emptyWord := by
  unfold leftOperandFault
  split <;> simp

private theorem push_ne_emptyWord {token : Token} (filled : token.IsFilled) (draft : LineDraft) :
    draft.push token ≠ .error .emptyWord := by
  have operand := draft.leftOperandFault_ne_emptyWord
  have misplaced : ∀ closedTo : Bool,
      (if closedTo then some .tokenAfterModifier else draft.leftOperandFault)
        ≠ some LineFault.emptyWord := by
    intro closedTo
    cases closedTo
    · exact operand
    · simp
  cases token with
  | word bytes =>
      have written : Utf8.text bytes ≠ "" := Utf8.text_ne_empty filled.1
      rw [push, Drafting.push, Drafting.taken_word, if_neg written]
      split <;> simp
  | connective join =>
      rw [push, Drafting.push, Drafting.taken_connective]
      exact fun refused => misplaced _ (guarded_error_iff.mp refused)
  | redirect append path =>
      rw [push, Drafting.push, Drafting.taken_redirect]
      exact fun refused => misplaced _ (guarded_error_iff.mp refused)
  | background =>
      rw [push, Drafting.push, Drafting.taken_markBackground]
      exact fun refused => misplaced _ (guarded_error_iff.mp refused)

private theorem foldlM_push_ne_emptyWord {tokens : List Token}
    (filled : ∀ token ∈ tokens, token.IsFilled)
    (draft : LineDraft) : tokens.foldlM push draft ≠ .error .emptyWord := by
  induction tokens generalizing draft with
  | nil => exact fun refused => nomatch refused
  | cons token later ih =>
      obtain ⟨filledHere, filledLater⟩ := List.forall_mem_cons.mp filled
      rw [List.foldlM_cons]
      intro refused
      cases pushed : draft.push token with
      | error fault =>
          rw [pushed] at refused
          cases refused
          exact push_ne_emptyWord filledHere draft pushed
      | ok longer =>
          rw [pushed] at refused
          exact ih filledLater longer refused

private theorem finish_ne_emptyWord (draft : LineDraft) : draft.finish ≠ .error .emptyWord := by
  unfold finish
  split <;> simp

end LineDraft

theorem Token.fault_scan_ne_emptyWord (bytes : List UInt8) :
    (scan bytes).fault ≠ some .emptyWord := by
  induction bytes using induction_by_tokens with
  | handed bytes ih =>
      cases found : front bytes with
      | token token rest =>
          rw [scan_of_token found]
          exact ih token rest found
      | terminator rest => simp [scan_of_terminator found]
      | exhausted => simp [scan_of_exhausted found]
      | missingTarget => simp [scan_of_missingTarget found]

theorem CommandLine.parse_ne_emptyWord (bytes : List UInt8) :
    CommandLine.parse bytes ≠ .error .emptyWord := by
  have filled : ∀ token ∈ (Token.scan bytes).tokens, token.IsFilled :=
    fun _token member => Token.filled_of_mem_scan member
  intro refused
  rw [CommandLine.parse_eq_foldlM] at refused
  cases drafted : (Token.scan bytes).tokens.foldlM LineDraft.push .empty with
  | error fault =>
      rw [drafted] at refused
      cases refused
      exact LineDraft.foldlM_push_ne_emptyWord filled .empty drafted
  | ok draft =>
      rw [drafted] at refused
      cases ending : (Token.scan bytes).fault with
      | none =>
          rw [ending] at refused
          exact draft.finish_ne_emptyWord refused
      | some fault =>
          rw [ending] at refused
          cases refused
          exact Token.fault_scan_ne_emptyWord bytes ending

theorem LineReader.next_ne_emptyWord (reader : LineReader) :
    reader.next.1 ≠ .fault .emptyWord := by
  unfold LineReader.next
  split
  · simp
  · intro read
    unfold Reading.ofLine at read
    dsimp only at read
    split at read
    · cases read
    · cases read
    · rename_i refused
      cases read
      exact CommandLine.parse_ne_emptyWord _ refused

/-! ### A line from its first place to its last -/

namespace LineCursor

/-- In a line that ends with its only line feed, each call for a token that is made before the end
has been found comes to something, none of its checks failing, and finds what the scanner finds
there. It moves on, but not out of the line; it finds the end just if it comes to the last place,
and never for want of bytes; and the words and paths it finds have bytes. So there are fewer calls
before the end than bytes, and with as many calls as bytes the line is parsed to what it is parsed
to from the scanned tokens. No line is refused for a word without characters, whatever reader it
is in. -/
theorem tokens_are_found_within_line :
    (∀ inner, Byte.lineFeed ∉ inner →
      let line := inner ++ [Byte.lineFeed]
      (∀ calls cursor, Asked line calls cursor →
        calls ≤ cursor.place ∧ cursor.place < line.length ∧
        ∃ found behind, cursor.next? = some (found, behind) ∧
          Token.front (line.drop cursor.place) = found.toFront (line.drop behind.place) ∧
          cursor.place < behind.place ∧ behind.place ≤ line.length ∧
          (found.isEnd = true ↔ behind.place = line.length) ∧ found ≠ .exhausted ∧
          ∀ token, found = .token token → token.IsFilled) ∧
      (atFront line).parse? .empty line.length = some (CommandLine.parse line)) ∧
    ∀ reader : LineReader, reader.next.1 ≠ .fault .emptyWord := by
  refine ⟨?_, fun reader => reader.next_ne_emptyWord⟩
  intro inner one line
  have front : IsOpen line (atFront line) := isOpen_atFront one
  constructor
  · intro calls cursor asked
    obtain ⟨isOpen, callsLe⟩ := asked.isOpen front
    obtain ⟨found, behind, advances⟩ := isOpen.exists_advances
    exact ⟨callsLe, isOpen.place_lt, found, behind, advances.called, advances.front_eq,
      advances.place_lt, advances.place_le, advances.isEnd_iff, advances.remains, advances.filled⟩
  · rw [CommandLine.parse_eq_foldlM]
    exact front.parse?_eq (Nat.le_add_left _ _) .empty

/-- `a||b>> c&\r\n`: both doubled signs are stepped over whole, and so is the end of the line, with
which the sixth call comes to the last place. -/
theorem tokens_are_found_within_line_of_doubled_signs :
    let inner := [0x61, Byte.bar, Byte.bar, 0x62, Byte.greater, Byte.greater, Byte.space, 0x63,
      Byte.ampersand, Byte.carriageReturn]
    let line := inner ++ [Byte.lineFeed]
    Byte.lineFeed ∉ inner ∧ Asked line 1 ⟨line, 1⟩ ∧ Asked line 5 ⟨line, 9⟩ ∧
      (∃ found behind, (⟨line, 1⟩ : LineCursor).next? = some (found, behind) ∧
        1 < behind.place ∧ behind.place ≤ line.length ∧ found ≠ .exhausted) ∧
      (⟨line, 9⟩ : LineCursor).next? = some (.terminator, ⟨line, line.length⟩) ∧
      (atFront line).parse? .empty line.length = some (CommandLine.parse line) := by
  intro inner line
  have one : Byte.lineFeed ∉ inner := by decide
  have word : (⟨line, 0⟩ : LineCursor).next? = some (.token (.word [0x61]), ⟨line, 1⟩) := by cbv
  have bars : (⟨line, 1⟩ : LineCursor).next?
      = some (.token (.connective .or), ⟨line, 3⟩) := by cbv
  have more : (⟨line, 3⟩ : LineCursor).next? = some (.token (.word [0x62]), ⟨line, 4⟩) := by cbv
  have target : (⟨line, 4⟩ : LineCursor).next?
      = some (.token (.redirect true [0x63]), ⟨line, 8⟩) := by cbv
  have mark : (⟨line, 8⟩ : LineCursor).next? = some (.token .background, ⟨line, 9⟩) := by cbv
  have behindWord : Asked line 1 ⟨line, 1⟩ := .next .first word rfl
  have behindMark : Asked line 5 ⟨line, 9⟩ :=
    .next (.next (.next (.next behindWord bars rfl) more rfl) target rfl) mark rfl
  obtain ⟨within, parsed⟩ := tokens_are_found_within_line.1 inner one
  refine ⟨one, behindWord, behindMark, ?_, by cbv, parsed⟩
  obtain ⟨_, _, found, behind, called, _, moved, inside, _, remains, _⟩ := within 1 _ behindWord
  exact ⟨found, behind, called, moved, inside, remains⟩

-- Without its line feed a line takes one call more than it has tokens to find no bytes left.
example : (atFront [0x61]).parse? .empty 1 = none := by cbv

end LineCursor

end PipelineShell

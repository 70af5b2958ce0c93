import PipelineShell.Proofs.Line.Acceptance
import PipelineShell.Proofs.Line.Inversion

/-!
Bytes that wait for their line feed. A reader that has been asked for a line in vain holds no line
feed. It tells its bytes apart one by one, blanks from others; the scanner and the draft tell them
apart by reading the line that a line feed would make of them. Both agree.
-/

namespace PipelineShell

/-- A line reads as blank exactly if nothing but blanks stands before its line feed. -/
theorem Reading.ofLine_eq_blank_iff_isGap {inner : List UInt8} (absent : Byte.lineFeed ∉ inner) :
    Reading.ofLine (inner ++ [Byte.lineFeed]) = .blank ↔ Token.IsGap inner := by
  rw [Reading.ofLine_eq_blank_iff]
  constructor
  · rintro ⟨tokensEq, faultless⟩
    rcases Token.spells_scan absent none (fun _ impossible => nomatch impossible) with
      missing | ⟨_, spells⟩
    · rw [faultless] at missing
      cases missing
    · rw [tokensEq] at spells
      generalize whole : inner ++ [Byte.lineFeed] = line at spells
      cases spells with
      | last isGap =>
          rw [List.append_cancel_right whole]
          exact isGap
  · intro isGap
    have spells : Token.Spells none [] _ := .last isGap
    have scanned := Token.scan_of_spells spells (List.forall_mem_nil _)
    rw [scanned]
    exact ⟨rfl, rfl⟩

theorem Reading.any_solid_eq_false_iff {inner : List UInt8} (absent : Byte.lineFeed ∉ inner) :
    (inner.any fun byte => !LineReader.isBlankByte byte) = false
      ↔ Reading.ofLine (inner ++ [Byte.lineFeed]) = .blank := by
  rw [Reading.ofLine_eq_blank_iff_isGap absent, List.any_eq_false, Token.IsGap]
  refine forall₂_congr fun byte member => ?_
  have different : byte ≠ Byte.lineFeed := fun same => absent (same ▸ member)
  simp [LineReader.isBlankByte, different]

namespace LineReader

theorem answers_append (reader : LineReader) (calls more : List ReaderCall) :
    (reader.answers (calls ++ more)).2 = ((reader.answers calls).2.answers more).2 := by
  induction calls generalizing reader with
  | nil => rfl
  | cons call later ih => exact ih (reader.answer call).2

private theorem answers_of_asking {calls : List ReaderCall}
    (asking : ∀ call ∈ calls, call = .hasLeftover)
    (reader : LineReader) : (reader.answers calls).2 = reader := by
  induction calls with
  | nil => rfl
  | cons call later ih =>
      obtain ⟨first, others⟩ := List.forall_mem_cons.mp asking
      rw [first]
      exact ih others

/-- The last line that the calls have asked for was not complete, and nothing has been fed since. -/
def Stalls (calls : List ReaderCall) : Prop :=
  ∃ earlier later, calls = earlier ++ .next :: later ∧
    (empty.answers earlier).2.next.1 = .incomplete ∧ ∀ call ∈ later, call = .hasLeftover

theorem unterminated_of_stalls {calls : List ReaderCall} (stalls : Stalls calls) :
    (empty.answers calls).2.WellPlaced ∧ Byte.lineFeed ∉ (empty.answers calls).2.unread := by
  obtain ⟨earlier, later, callsEq, incomplete, asking⟩ := stalls
  have placed := (wellPlaced_empty.accounts_of_answers earlier).placed
  have reached : (empty.answers calls).2 = (empty.answers earlier).2.next.2 := by
    rw [callsEq, answers_append]
    exact answers_of_asking asking _
  rw [reached]
  refine ⟨placed.next, ?_⟩
  rcases placed.next_cases with ⟨absent, _, same⟩ | ⟨inner, rest, _, _, gives, _⟩
  · rw [same]
    exact absent
  · exact absurd (gives.symm.trans incomplete) (Reading.ofLine_ne_incomplete _)

section

variable {reader : LineReader} (placed : reader.WellPlaced)
  (unterminated : Byte.lineFeed ∉ reader.unread)

include placed unterminated

private theorem next_feed_lineFeed :
    (reader.feed [Byte.lineFeed]).next.1 = Reading.ofLine (reader.unread ++ [Byte.lineFeed]) :=
  (placed.feed _).next_of_line unterminated (unread_feed reader [Byte.lineFeed])

theorem takeLines_feed_lineFeed :
    (reader.feed [Byte.lineFeed]).takeLines.1 = [(reader.feed [Byte.lineFeed]).next.1] := by
  rw [(placed.feed _).takeLines_eq.1, unread_feed, Stream.readings,
    Stream.lines_of_line unterminated, next_feed_lineFeed placed unterminated]
  rfl

theorem hasLeftover_eq_false_iff :
    reader.hasLeftover = false ↔ (reader.feed [Byte.lineFeed]).next.1 = .blank := by
  rw [next_feed_lineFeed placed unterminated, hasLeftover]
  exact Reading.any_solid_eq_false_iff unterminated

end

end LineReader

end PipelineShell

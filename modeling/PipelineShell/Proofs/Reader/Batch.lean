import PipelineShell.Proofs.Reader.Cursor

/-!
Reading a stream piece by piece against reading it line by line. However calls that feed and take
are mixed, what has been taken and what the unread bytes still hold are together the readings of
the lines fed so far; and two readers with the same unread bytes cannot be told apart.
-/

namespace PipelineShell

inductive ReaderCall where
  | feed (bytes : List UInt8)
  | next
  | hasLeftover
deriving DecidableEq, Repr

inductive ReaderAnswer where
  | fed
  | reading (reading : Reading)
  | leftover (found : Bool)
deriving DecidableEq, Repr

def ReaderCall.bytes : ReaderCall → List UInt8
  | .feed bytes => bytes
  | .next => []
  | .hasLeftover => []

/-- The reading that an answer gives, unless no line was complete. -/
def ReaderAnswer.taken? : ReaderAnswer → Option Reading
  | .reading .incomplete => none
  | .reading taken => some taken
  | .fed => none
  | .leftover _ => none

namespace LineReader

def answer (reader : LineReader) : ReaderCall → ReaderAnswer × LineReader
  | .feed bytes => (.fed, reader.feed bytes)
  | .next => (.reading reader.next.1, reader.next.2)
  | .hasLeftover => (.leftover reader.hasLeftover, reader)

def answers (reader : LineReader) : List ReaderCall → List ReaderAnswer × LineReader
  | [] => ([], reader)
  | call :: later =>
      let first := reader.answer call
      let others := first.2.answers later
      (first.1 :: others.1, others.2)

/-- What a reader of its own makes of some bytes. -/
def readAlone (bytes : List UInt8) : List Reading :=
  (empty.feed bytes).takeLines.1

end LineReader

def Stream.readings (bytes : List UInt8) : List Reading :=
  (lines bytes).map Reading.ofLine

theorem Stream.readings_append (bytes more : List UInt8) :
    readings (bytes ++ more) = readings bytes ++ readings (remainder bytes ++ more) := by
  rw [readings, lines_append, List.map_append]
  rfl

theorem Reading.ofLine_ne_incomplete (bytes : List UInt8) :
    Reading.ofLine bytes ≠ .incomplete := by
  unfold ofLine
  split <;> exact Reading.noConfusion

theorem ReaderAnswer.taken?_ofLine (bytes : List UInt8) :
    (ReaderAnswer.reading (Reading.ofLine bytes)).taken? = some (Reading.ofLine bytes) := by
  have complete := Reading.ofLine_ne_incomplete bytes
  cases found : Reading.ofLine bytes with
  | incomplete => exact absurd found complete
  | line line => rfl
  | blank => rfl
  | fault fault => rfl

namespace LineReader

/-! ### One call -/

/-- What a call preserves: the readings it gives are missing from the unread bytes behind it, and
no others are. -/
structure Accounts (reader : LineReader) (fed : List UInt8) (taken : List Reading)
    (after : LineReader) : Prop where
  placed : after.WellPlaced
  readings : taken ++ Stream.readings after.unread = Stream.readings (reader.unread ++ fed)
  remainder : Stream.remainder after.unread = Stream.remainder (reader.unread ++ fed)

theorem WellPlaced.accounts_of_next {reader : LineReader} (placed : reader.WellPlaced) :
    reader.Accounts [] (ReaderAnswer.reading reader.next.1).taken?.toList reader.next.2 := by
  rcases placed.next_cases with ⟨_absent, stays, same⟩ | ⟨inner, rest, absent, whole, gives, left⟩
  · rw [stays]
    refine ⟨placed.next, ?_, ?_⟩
    · rw [same, List.append_nil]
      rfl
    · rw [same, List.append_nil]
  · rw [gives, ReaderAnswer.taken?_ofLine]
    refine ⟨placed.next, ?_, ?_⟩
    · rw [left, List.append_nil, whole, Stream.readings, Stream.readings,
        Stream.lines_of_line absent]
      rfl
    · rw [left, List.append_nil, whole, Stream.remainder_of_line]

theorem WellPlaced.accounts_of_answer {reader : LineReader} (placed : reader.WellPlaced)
    (call : ReaderCall) :
    reader.Accounts call.bytes (reader.answer call).1.taken?.toList (reader.answer call).2 := by
  cases call with
  | feed bytes =>
      refine ⟨placed.feed bytes, ?_, ?_⟩
      · change [] ++ Stream.readings (reader.feed bytes).unread = _
        rw [unread_feed]
        rfl
      · change Stream.remainder (reader.feed bytes).unread = _
        rw [unread_feed]
        rfl
  | next => exact placed.accounts_of_next
  | hasLeftover =>
      refine ⟨placed, ?_, ?_⟩
      · rw [ReaderCall.bytes, List.append_nil]
        rfl
      · rw [ReaderCall.bytes, List.append_nil]
        rfl

/-! ### Many calls -/

theorem Accounts.trans {reader middle last : LineReader} {fed more : List UInt8}
    {taken later : List Reading} (first : reader.Accounts fed taken middle)
    (second : middle.Accounts more later last) :
    reader.Accounts (fed ++ more) (taken ++ later) last := by
  refine ⟨second.placed, ?_, ?_⟩
  · rw [← List.append_assoc reader.unread, Stream.readings_append, ← first.readings,
      ← first.remainder, List.append_assoc, second.readings, Stream.readings_append,
      List.append_assoc]
  · rw [← List.append_assoc reader.unread, Stream.remainder_append, ← first.remainder,
      ← Stream.remainder_append, second.remainder]

theorem WellPlaced.accounts_of_answers {reader : LineReader} (placed : reader.WellPlaced)
    (calls : List ReaderCall) :
    reader.Accounts (calls.flatMap ReaderCall.bytes)
      ((reader.answers calls).1.filterMap ReaderAnswer.taken?) (reader.answers calls).2 := by
  induction calls generalizing reader with
  | nil =>
      refine ⟨placed, ?_, ?_⟩
      · rw [List.flatMap_nil, List.append_nil]
        rfl
      · rw [List.flatMap_nil, List.append_nil]
        rfl
  | cons call later ih =>
      have first := placed.accounts_of_answer call
      have both := first.trans (ih first.placed)
      have takenEq : (reader.answer call).1.taken?.toList
            ++ ((reader.answer call).2.answers later).1.filterMap ReaderAnswer.taken?
          = (reader.answers (call :: later)).1.filterMap ReaderAnswer.taken? := by
        rw [answers, List.filterMap_cons]
        cases (reader.answer call).1.taken? <;> rfl
      rw [takenEq] at both
      exact both

theorem WellPlaced.takeLinesBehind_eq {reader : LineReader} (placed : reader.WellPlaced)
    (taken : List Reading) :
    (takeLinesBehind taken reader).1 = taken.reverse ++ Stream.readings reader.unread ∧
      (takeLinesBehind taken reader).2.WellPlaced ∧
      (takeLinesBehind taken reader).2.unread = Stream.remainder reader.unread := by
  induction taken, reader using takeLinesBehind.induct with
  | case1 taken reader first incomplete =>
      rw [takeLinesBehind, dif_pos incomplete]
      rcases placed.next_cases with ⟨absent, _stays, same⟩ | ⟨inner, rest, _, _, gives, _⟩
      · refine ⟨?_, placed.next, ?_⟩
        · rw [Stream.readings, Stream.lines_of_absent absent]
          exact (List.append_nil _).symm
        · rw [Stream.remainder_of_absent absent]
          exact same
      · exact absurd (gives.symm.trans incomplete) (Reading.ofLine_ne_incomplete _)
  | case2 taken reader first complete ih =>
      rw [takeLinesBehind, dif_neg complete]
      rcases placed.next_cases with
        ⟨_absent, stays, _same⟩ | ⟨inner, rest, absent, whole, gives, left⟩
      · exact absurd stays complete
      · obtain ⟨readings, placedAfter, remains⟩ := ih placed.next
        refine ⟨?_, placedAfter, ?_⟩
        · rw [readings, left, gives, whole, Stream.readings, Stream.readings,
            Stream.lines_of_line absent, List.reverse_cons, List.append_assoc]
          rfl
        · rw [remains, left, whole, Stream.remainder_of_line]

/-- Taking every complete line gives the readings of the unread lines and leaves what follows. -/
theorem WellPlaced.takeLines_eq {reader : LineReader} (placed : reader.WellPlaced) :
    reader.takeLines.1 = Stream.readings reader.unread ∧ reader.takeLines.2.WellPlaced ∧
      reader.takeLines.2.unread = Stream.remainder reader.unread :=
  placed.takeLinesBehind_eq []

/-! ### Readers with the same unread bytes -/

/-- Readers that no call tells apart, as far as the cursors are in order. -/
structure Alike (reader other : LineReader) : Prop where
  placed : reader.WellPlaced
  otherPlaced : other.WellPlaced
  unread_eq : reader.unread = other.unread

theorem Alike.next {reader other : LineReader} (alike : reader.Alike other) :
    reader.next.1 = other.next.1 ∧ reader.next.2.Alike other.next.2 := by
  have same := alike.unread_eq
  rcases alike.placed.next_cases with
    ⟨absent, stays, kept⟩ | ⟨inner, rest, absent, whole, gives, left⟩ <;>
  rcases alike.otherPlaced.next_cases with
    ⟨otherAbsent, otherStays, otherKept⟩ |
      ⟨otherInner, otherRest, otherAbsent, otherWhole, otherGives, otherLeft⟩
  · refine ⟨by rw [stays, otherStays], alike.placed.next, alike.otherPlaced.next, ?_⟩
    rw [kept, otherKept, same]
  · rw [same, otherWhole] at absent
    exact absurd (List.mem_append_right _ List.mem_cons_self) absent
  · rw [← same, whole] at otherAbsent
    exact absurd (List.mem_append_right _ List.mem_cons_self) otherAbsent
  · rw [whole, otherWhole] at same
    obtain ⟨innerEq, restEq⟩ := Stream.first_line_unique absent otherAbsent same
    refine ⟨by rw [gives, otherGives, innerEq], alike.placed.next, alike.otherPlaced.next, ?_⟩
    rw [left, otherLeft, restEq]

theorem Alike.answer {reader other : LineReader} (alike : reader.Alike other)
    (call : ReaderCall) :
    (reader.answer call).1 = (other.answer call).1 ∧
      (reader.answer call).2.Alike (other.answer call).2 := by
  cases call with
  | feed bytes =>
      refine ⟨rfl, alike.placed.feed bytes, alike.otherPlaced.feed bytes, ?_⟩
      change (reader.feed bytes).unread = (other.feed bytes).unread
      rw [unread_feed, unread_feed, alike.unread_eq]
  | next => exact ⟨congrArg ReaderAnswer.reading alike.next.1, alike.next.2⟩
  | hasLeftover =>
      refine ⟨?_, alike⟩
      change ReaderAnswer.leftover reader.hasLeftover = .leftover other.hasLeftover
      rw [hasLeftover, hasLeftover, alike.unread_eq]

theorem Alike.answers {reader other : LineReader} (alike : reader.Alike other)
    (calls : List ReaderCall) : (reader.answers calls).1 = (other.answers calls).1 := by
  induction calls generalizing reader other with
  | nil => rfl
  | cons call later ih =>
      have first := alike.answer call
      rw [LineReader.answers, LineReader.answers, first.1, ih first.2]

/-! ### The stream decides -/

theorem unread_empty_feed (bytes : List UInt8) : (empty.feed bytes).unread = bytes := by
  rw [unread_feed]
  rfl

theorem readAlone_eq (bytes : List UInt8) : readAlone bytes = Stream.readings bytes := by
  rw [readAlone, (wellPlaced_empty.feed bytes).takeLines_eq.1, unread_empty_feed]

theorem readAlone_of_line {inner : List UInt8} (absent : Byte.lineFeed ∉ inner) :
    readAlone (inner ++ [Byte.lineFeed]) = [Reading.ofLine (inner ++ [Byte.lineFeed])] := by
  rw [readAlone_eq, Stream.readings, Stream.lines_of_line absent]
  rfl

private theorem readings_eq_flatMap_readAlone (bytes : List UInt8) :
    Stream.readings bytes = (Stream.lines bytes).flatMap readAlone := by
  have each : ∀ line ∈ Stream.lines bytes, readAlone line = [Reading.ofLine line] := by
    intro line member
    obtain ⟨inner, absent, lineEq⟩ := Stream.exists_inner_of_mem_lines member
    rw [lineEq, readAlone_of_line absent]
  rw [Stream.readings, List.map_eq_flatMap, List.flatMap, List.flatMap,
    List.map_congr_left each]

/-- Whatever calls feed a stream to a reader and take from it, and whatever pieces the stream
comes in: once the reader is drained, what it has given is what readers of their own make of the
lines, one reading for each, and it answers further calls like a reader that has been fed the
bytes behind the last line only. -/
theorem piecewise_reading_eq_linewise (calls : List ReaderCall) :
    let fed := calls.flatMap ReaderCall.bytes
    let run := empty.answers calls
    let drained := run.2.takeLines
    run.1.filterMap ReaderAnswer.taken? ++ drained.1 = (Stream.lines fed).flatMap readAlone ∧
      (∀ line ∈ Stream.lines fed, ∃ reading, readAlone line = [reading]) ∧
      (Stream.lines fed).length = fed.count Byte.lineFeed ∧
      Stream.Cut fed (Stream.lines fed) (Stream.remainder fed) ∧
      ∀ later, (drained.2.answers later).1
        = ((empty.feed (Stream.remainder fed)).answers later).1 := by
  intro fed run drained
  have account := wellPlaced_empty.accounts_of_answers calls
  obtain ⟨drainedEq, drainedPlaced, drainedUnread⟩ := account.placed.takeLines_eq
  refine ⟨?_, ?_, Stream.length_lines fed, Stream.cut_lines_remainder fed, ?_⟩
  · change run.1.filterMap ReaderAnswer.taken? ++ run.2.takeLines.1 = _
    rw [drainedEq, account.readings, ← readings_eq_flatMap_readAlone]
    rfl
  · intro line member
    obtain ⟨inner, absent, lineEq⟩ := Stream.exists_inner_of_mem_lines member
    exact ⟨_, by rw [lineEq, readAlone_of_line absent]⟩
  · intro later
    have alike : drained.2.Alike (empty.feed (Stream.remainder fed)) := by
      refine ⟨drainedPlaced, wellPlaced_empty.feed _, ?_⟩
      rw [unread_empty_feed, drainedUnread, account.remainder]
      rfl
    exact alike.answers later

end LineReader

end PipelineShell

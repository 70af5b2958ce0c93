import PipelineShell.Proofs.Reader.Batch
import PipelineShell.Session

/-!
What a sequence of reads is as an input. Up to the read that ends it, an input is the bytes of its
reads, however they are cut, and the way it ends; what stands behind the last line feed counts as a
line just if the input has come to its end and something other than blanks is there.
-/

namespace PipelineShell

inductive Closing where
  | atEnd
  | failed (message : String)
deriving DecidableEq

namespace ReadOutcome

/-- The bytes of the reads up to the one that is the last, if there is one. -/
def bytesOf : List ReadOutcome → List UInt8
  | [] => []
  | .interrupted :: rest => bytesOf rest
  | .failed _ :: _ => []
  | .bytes [] :: _ => []
  | .bytes (byte :: content) :: rest => byte :: content ++ bytesOf rest

def closing? : List ReadOutcome → Option Closing
  | [] => none
  | .interrupted :: rest => closing? rest
  | .failed message :: _ => some (.failed message)
  | .bytes [] :: _ => some .atEnd
  | .bytes (_ :: _) :: rest => closing? rest

end ReadOutcome

namespace Stream

/-- The input, where a last line that the end has cut off gets its terminator. -/
def closed (bytes : List UInt8) (closing : Option Closing) : List UInt8 :=
  if closing = some .atEnd ∧
      (remainder bytes).any fun byte => !LineReader.isBlankByte byte then
    bytes ++ [Byte.lineFeed]
  else bytes

def closedReadings (bytes : List UInt8) (closing : Option Closing) : List Reading :=
  readings (closed bytes closing)

theorem closedReadings_append (bytes more : List UInt8) (closing : Option Closing) :
    closedReadings (bytes ++ more) closing
      = readings bytes ++ closedReadings (remainder bytes ++ more) closing := by
  have sameRemainder := remainder_append bytes more
  rw [closedReadings, closedReadings, closed, closed, sameRemainder]
  split
  · rw [List.append_assoc, readings_append, List.append_assoc]
  · rw [readings_append]

theorem closedReadings_of_open (bytes : List UInt8) {closing : Option Closing}
    (goesOn : closing ≠ some .atEnd) : closedReadings bytes closing = readings bytes := by
  rw [closedReadings, closed, if_neg fun both => goesOn both.1]

end Stream

namespace ReadOutcome

/-- The readings that reads give, with what is held from reads before them. -/
def readingsOf (held : List UInt8) (reads : List ReadOutcome) : List Reading :=
  Stream.closedReadings (held ++ bytesOf reads) (closing? reads)

theorem closing?_append (reads more : List ReadOutcome) :
    closing? (reads ++ more) = (closing? reads).or (closing? more) := by
  induction reads with
  | nil => rfl
  | cons outcome rest ih =>
      cases outcome with
      | interrupted => exact ih
      | failed message => rfl
      | bytes content =>
          cases content with
          | nil => rfl
          | cons byte content => exact ih

theorem bytesOf_append (reads more : List ReadOutcome) :
    bytesOf (reads ++ more)
      = if closing? reads = none then bytesOf reads ++ bytesOf more else bytesOf reads := by
  induction reads with
  | nil => rfl
  | cons outcome rest ih =>
      cases outcome with
      | interrupted => exact ih
      | failed message => rfl
      | bytes content =>
          cases content with
          | nil => rfl
          | cons byte content =>
              change byte :: content ++ bytesOf (rest ++ more)
                = if closing? rest = none then byte :: content ++ bytesOf rest ++ bytesOf more
                  else byte :: content ++ bytesOf rest
              rw [ih]
              split
              · rw [List.append_assoc]
              · rfl

/-- What has been read gives the same readings whatever is read next. -/
theorem readingsOf_append (held : List UInt8) (reads more : List ReadOutcome)
    (goesOn : closing? reads = none) :
    readingsOf held (reads ++ more) = readingsOf held reads
      ++ readingsOf (Stream.remainder (held ++ bytesOf reads)) more := by
  have plain : Stream.closedReadings (held ++ bytesOf reads) none
      = Stream.readings (held ++ bytesOf reads) :=
    Stream.closedReadings_of_open _ fun impossible => nomatch impossible
  rw [readingsOf, readingsOf, readingsOf, bytesOf_append, closing?_append, goesOn, if_pos rfl,
    Option.none_or, ← List.append_assoc, Stream.closedReadings_append, plain]

theorem readingsOf_of_closed (held : List UInt8) {reads : List ReadOutcome}
    (more : List ReadOutcome) (isClosed : (closing? reads).isSome) :
    readingsOf held (reads ++ more) = readingsOf held reads := by
  obtain ⟨closing, closingEq⟩ := Option.isSome_iff_exists.mp isClosed
  rw [readingsOf, readingsOf, bytesOf_append, closing?_append, closingEq,
    if_neg (fun impossible => nomatch impossible), Option.some_or]

theorem readingsOf_of_part (held : List UInt8) {reads all : List ReadOutcome}
    (within : reads <+: all) : readingsOf held reads <+: readingsOf held all := by
  obtain ⟨more, split⟩ := within
  rw [← split]
  cases closingEq : closing? reads with
  | none =>
      rw [readingsOf_append held reads more closingEq]
      exact List.prefix_append _ _
  | some closing =>
      have isClosed : (closing? reads).isSome := by
        rw [closingEq]
        rfl
      exact ⟨[], by rw [List.append_nil, readingsOf_of_closed held more isClosed]⟩

end ReadOutcome

end PipelineShell

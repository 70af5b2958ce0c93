import PipelineShell.CommandLine.Token

/-!
Lines out of a stream. Bytes go in, in pieces of any size; each terminated line comes out once.
A malformed line is consumed with its terminator, so it never touches the next one.
-/

namespace PipelineShell

/-- What stands at the front of a stream. -/
inductive Reading where
  | line (line : CommandLine)
  /-- A terminated line without a token. -/
  | blank
  /-- No terminator has been fed; nothing was consumed. -/
  | incomplete
  | fault (fault : LineFault)
deriving DecidableEq, Repr

def Reading.ofLine (bytes : List UInt8) : Reading :=
  match CommandLine.parse bytes with
  | .ok (some parsed) => .line parsed
  | .ok none => .blank
  | .error cause => .fault cause

/-- The buffer of a stream. Bytes that have been consumed stay in front until more are fed. -/
structure LineReader where
  buffer : Array UInt8
  /-- Where the bytes that have not been consumed begin. -/
  start : Nat
  /-- Up to where the bytes from `start` on have been searched for a line feed, in vain. -/
  searched : Nat
deriving DecidableEq, Repr

namespace LineReader

def empty : LineReader :=
  ⟨#[], 0, 0⟩

def compact (reader : LineReader) : LineReader :=
  if reader.start = 0 then reader
  else ⟨reader.buffer.extract reader.start, 0, reader.searched - reader.start⟩

def feed (reader : LineReader) (bytes : List UInt8) : LineReader :=
  let kept := reader.compact
  { kept with buffer := kept.buffer ++ bytes }

def between (reader : LineReader) (first last : Nat) : List UInt8 :=
  (reader.buffer.extract first last).toList

def unread (reader : LineReader) : List UInt8 :=
  reader.between reader.start reader.buffer.size

/-- Whether the byte is one that a blank line may hold, its terminator included. -/
def isBlankByte (byte : UInt8) : Bool :=
  Byte.isFiller byte || byte == Byte.lineFeed

/-- Whether bytes other than blanks wait for their terminator. -/
def hasLeftover (reader : LineReader) : Bool :=
  reader.unread.any fun byte => !isBlankByte byte

/-- The place of the first line feed at `place` or behind it. -/
def lineFeedFrom (buffer : Array UInt8) (place : Nat) : Option Nat :=
  if inside : place < buffer.size then
    if buffer[place] == Byte.lineFeed then some place else lineFeedFrom buffer (place + 1)
  else none
termination_by buffer.size - place

/-- Takes the next line. Unless no line is complete, the line is consumed whatever it reads as. -/
def next (reader : LineReader) : Reading × LineReader :=
  match lineFeedFrom reader.buffer reader.searched with
  | none => (.incomplete, { reader with searched := reader.buffer.size })
  | some place =>
      (Reading.ofLine (reader.between reader.start (place + 1)),
        { reader with start := place + 1, searched := place + 1 })

theorem lineFeedFrom_lt {buffer : Array UInt8} {place found : Nat}
    (located : lineFeedFrom buffer place = some found) : place ≤ found ∧ found < buffer.size := by
  induction place using lineFeedFrom.induct buffer with
  | case1 place inside isLineFeed =>
      rw [lineFeedFrom, dif_pos inside, if_pos isLineFeed] at located
      cases located
      exact ⟨Nat.le_refl _, inside⟩
  | case2 place inside isOther ih =>
      rw [lineFeedFrom, dif_pos inside, if_neg isOther] at located
      have later := ih located
      exact ⟨Nat.le_of_succ_le later.1, later.2⟩
  | case3 place outside =>
      rw [lineFeedFrom, dif_neg outside] at located
      cases located

theorem searched_of_next {reader : LineReader} (complete : reader.next.1 ≠ .incomplete) :
    reader.next.2.buffer.size - reader.next.2.searched
      < reader.buffer.size - reader.searched := by
  cases located : lineFeedFrom reader.buffer reader.searched with
  | none =>
      rw [next, located] at complete
      exact absurd rfl complete
  | some place =>
      have bounds := lineFeedFrom_lt located
      rw [next, located]
      dsimp only
      omega

/-- Takes every complete line behind those that have been taken, of which the last is in front. -/
def takeLinesBehind (taken : List Reading) (reader : LineReader) : List Reading × LineReader :=
  let first := reader.next
  if _ : first.1 = .incomplete then (taken.reverse, first.2)
  else takeLinesBehind (first.1 :: taken) first.2
termination_by reader.buffer.size - reader.searched
decreasing_by exact searched_of_next (by assumption)

def takeLines (reader : LineReader) : List Reading × LineReader :=
  takeLinesBehind [] reader

/-- Feeds the pieces in order and takes the complete lines after each. -/
def takeLinesThrough (reader : LineReader) : List (List UInt8) → List Reading × LineReader
  | [] => ([], reader)
  | piece :: rest =>
      let first := (reader.feed piece).takeLines
      let later := first.2.takeLinesThrough rest
      (first.1 ++ later.1, later.2)

end LineReader

/-- The list in pieces of `size` elements; the last may be shorter. A size of zero counts as one. -/
def pieces {α : Type} (size : Nat) (items : List α) : List (List α) :=
  match items with
  | [] => []
  | first :: rest => (first :: rest.take (size - 1)) :: pieces size (rest.drop (size - 1))
termination_by items.length
decreasing_by
  rw [List.length_drop, List.length_cons]
  exact Nat.lt_succ_of_le (Nat.sub_le _ _)

end PipelineShell

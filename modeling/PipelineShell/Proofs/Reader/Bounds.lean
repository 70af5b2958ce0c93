import PipelineShell.Proofs.Reader.Batch

/-!
Reading with every bound checked. The reader cuts parts out of its buffer and takes one cursor from
the other without asking whether they are in order: a part that is not in the buffer would come out
short, and a cursor that lies in front of the other would end up at zero. Here the same calls are
made with the checks, and come to nothing where one fails. From a new reader on none ever does.
-/

namespace PipelineShell.LineReader

def between? (reader : LineReader) (first last : Nat) : Option (List UInt8) :=
  if first ≤ last ∧ last ≤ reader.buffer.size then some (reader.between first last) else none

/-- How far a place is behind another, if it is not in front of it. -/
def distance? (first last : Nat) : Option Nat :=
  if first ≤ last then some (last - first) else none

def compact? (reader : LineReader) : Option LineReader :=
  if reader.start = 0 then some reader
  else do
    let kept ← reader.between? reader.start reader.buffer.size
    let searched ← distance? reader.start reader.searched
    return ⟨kept.toArray, 0, searched⟩

def feed? (reader : LineReader) (bytes : List UInt8) : Option LineReader := do
  let kept ← reader.compact?
  return { kept with buffer := kept.buffer ++ bytes }

def takeLine? (reader : LineReader) : Option (Option (List UInt8) × LineReader) := do
  let unsearched ← reader.between? reader.searched reader.buffer.size
  match unsearched.findIdx? (· == Byte.lineFeed) with
  | none => return (none, { reader with searched := reader.buffer.size })
  | some passed =>
      let stop := reader.searched + passed + 1
      let line ← reader.between? reader.start stop
      return (some line, { reader with start := stop, searched := stop })

def hasLeftover? (reader : LineReader) : Option Bool := do
  let held ← reader.between? reader.start reader.buffer.size
  return held.any fun byte => !isBlankByte byte

def answer? (reader : LineReader) : ReaderCall → Option (ReaderAnswer × LineReader)
  | .feed bytes => do
      let fed ← reader.feed? bytes
      return (.fed, fed)
  | .next => do
      let (line, behind) ← reader.takeLine?
      return (.reading (line.elim .incomplete Reading.ofLine), behind)
  | .hasLeftover => do
      let found ← reader.hasLeftover?
      return (.leftover found, reader)

def answers? (reader : LineReader) : List ReaderCall → Option (List ReaderAnswer × LineReader)
  | [] => some ([], reader)
  | call :: later => do
      let (first, behind) ← reader.answer? call
      let (others, last) ← behind.answers? later
      return (first :: others, last)

/-! ### Checks that hold -/

variable {reader : LineReader}

private theorem between?_of_le {first last : Nat} (ordered : first ≤ last)
    (inside : last ≤ reader.buffer.size) :
    reader.between? first last = some (reader.between first last) :=
  if_pos ⟨ordered, inside⟩

theorem WellPlaced.start_le_size (placed : reader.WellPlaced) :
    reader.start ≤ reader.buffer.size :=
  Nat.le_trans placed.start_le_searched placed.searched_le_size

theorem WellPlaced.compact?_eq (placed : reader.WellPlaced) :
    reader.compact? = some reader.compact := by
  have ordered : distance? reader.start reader.searched = some (reader.searched - reader.start) :=
    if_pos placed.start_le_searched
  unfold compact? compact
  split
  · rfl
  · rw [between?_of_le placed.start_le_size (Nat.le_refl _), ordered]
    rfl

theorem WellPlaced.feed?_eq (placed : reader.WellPlaced) (bytes : List UInt8) :
    reader.feed? bytes = some (reader.feed bytes) := by
  rw [feed?, placed.compact?_eq]
  rfl

theorem WellPlaced.hasLeftover?_eq (placed : reader.WellPlaced) :
    reader.hasLeftover? = some reader.hasLeftover := by
  rw [hasLeftover?, between?_of_le placed.start_le_size (Nat.le_refl _)]
  rfl

private theorem lineFeedFrom_eq (buffer : Array UInt8) (place : Nat) :
    lineFeedFrom buffer place
      = ((buffer.toList.drop place).findIdx? (· == Byte.lineFeed)).map (place + ·) := by
  induction place using lineFeedFrom.induct buffer with
  | case1 place inside isLineFeed =>
      have listed : place < buffer.toList.length := by rw [Array.length_toList]; exact inside
      rw [lineFeedFrom, dif_pos inside, if_pos isLineFeed, List.drop_eq_getElem_cons listed,
        Array.getElem_toList, List.findIdx?_cons, if_pos isLineFeed]
      rfl
  | case2 place inside isOther ih =>
      have listed : place < buffer.toList.length := by rw [Array.length_toList]; exact inside
      rw [lineFeedFrom, dif_pos inside, if_neg isOther, ih, List.drop_eq_getElem_cons listed,
        Array.getElem_toList, List.findIdx?_cons, if_neg isOther, Option.map_map]
      congr 1
      funext passed
      exact Nat.succ_add_eq_add_succ place passed
  | case3 place outside =>
      have beyond : buffer.toList.length ≤ place := by rw [Array.length_toList]; omega
      rw [lineFeedFrom, dif_neg outside, List.drop_eq_nil_of_le beyond]
      rfl

/-- No check fails when a line is taken, and what is taken ends with its only line feed. -/
theorem WellPlaced.exists_takeLine? (placed : reader.WellPlaced) :
    ∃ line, reader.takeLine? = some (line, reader.next.2) ∧
      reader.next.1 = line.elim .incomplete Reading.ofLine ∧
      (line = none ∨ ∃ inner, line = some (inner ++ [Byte.lineFeed]) ∧ Byte.lineFeed ∉ inner) := by
  have behind : reader.between reader.searched reader.buffer.size
      = reader.buffer.toList.drop reader.searched := by
    rw [between_eq, ← Array.length_toList, ← List.length_drop, List.take_length]
  have searching := lineFeedFrom_eq reader.buffer reader.searched
  rw [takeLine?, between?_of_le placed.searched_le_size (Nat.le_refl _), behind,
    Option.bind_eq_bind, Option.bind_some]
  cases passedEq : (reader.buffer.toList.drop reader.searched).findIdx? (· == Byte.lineFeed) with
  | none =>
      rw [passedEq] at searching
      have nowhere : lineFeedFrom reader.buffer reader.searched = none := searching
      rw [LineReader.next, nowhere]
      exact ⟨none, rfl, rfl, Or.inl rfl⟩
  | some passed =>
      rw [passedEq] at searching
      have located : lineFeedFrom reader.buffer reader.searched
          = some (reader.searched + passed) := searching
      obtain ⟨inner, absent, _, lineEq⟩ := placed.exists_line_of_lineFeedFrom located
      have inside := (lineFeedFrom_lt located).2
      have ordered : reader.start ≤ reader.searched + passed + 1 := by
        have cursors := placed.start_le_searched
        omega
      rw [LineReader.next, located]
      dsimp only
      rw [between?_of_le ordered inside, lineEq]
      exact ⟨some (inner ++ [Byte.lineFeed]), rfl, rfl, Or.inr ⟨inner, rfl, absent⟩⟩

theorem WellPlaced.answer?_eq (placed : reader.WellPlaced) (call : ReaderCall) :
    reader.answer? call = some (reader.answer call) := by
  cases call with
  | feed bytes =>
      rw [answer?, placed.feed?_eq]
      rfl
  | next =>
      obtain ⟨line, taken, gives, _⟩ := placed.exists_takeLine?
      rw [answer?, taken, answer, gives]
      rfl
  | hasLeftover =>
      rw [answer?, placed.hasLeftover?_eq]
      rfl

theorem WellPlaced.answers?_eq (placed : reader.WellPlaced) (calls : List ReaderCall) :
    reader.answers? calls = some (reader.answers calls) := by
  induction calls generalizing reader with
  | nil => rfl
  | cons call later ih =>
      have behind := (placed.accounts_of_answer call).placed
      rw [answers?, placed.answer?_eq, Option.bind_eq_bind, Option.bind_some]
      dsimp only
      rw [ih behind]
      rfl

/-- Whatever calls have led to a reader, its cursors stand in order inside its buffer, and no line
feed stands between them. None of the checks has failed on the way or fails in the next call, and
the line that would be taken next, if there is one, ends with its only line feed. -/
theorem cursors_stay_in_bounds (calls : List ReaderCall) :
    let reader := (empty.answers calls).2
    (reader.start ≤ reader.searched ∧ reader.searched ≤ reader.buffer.size ∧
      Byte.lineFeed ∉ reader.between reader.start reader.searched) ∧
    empty.answers? calls = some (empty.answers calls) ∧
    (∀ call, reader.answer? call = some (reader.answer call)) ∧
    ∃ line, reader.takeLine? = some (line, reader.next.2) ∧
      reader.next.1 = line.elim .incomplete Reading.ofLine ∧
      (line = none ∨
        ∃ inner, line = some (inner ++ [Byte.lineFeed]) ∧ Byte.lineFeed ∉ inner) := by
  intro reader
  have placed : reader.WellPlaced := (wellPlaced_empty.accounts_of_answers calls).placed
  refine ⟨?_, wellPlaced_empty.answers?_eq calls, placed.answer?_eq, placed.exists_takeLine?⟩
  exact ⟨placed.start_le_searched, placed.searched_le_size, placed.searched_in_vain⟩

-- A cursor in front of the other, which no calls lead to, is noticed by the checks.
example : (⟨#[Byte.space], 1, 0⟩ : LineReader).feed? [] = none := by decide

end PipelineShell.LineReader

import PipelineShell.Proofs.Reader.Lines

/-!
The cursors of a line reader. In every state that feeding and taking lead to, the cursors stand
in order inside the buffer and no line feed stands between them. Given that, a reader behaves as
its unread bytes say: `next_cases` is all that later proofs know about taking a line.
-/

namespace PipelineShell.LineReader

/-- The cursors stand in order, and the bytes between them have been searched in vain. -/
structure WellPlaced (reader : LineReader) : Prop where
  start_le_searched : reader.start ≤ reader.searched
  searched_le_size : reader.searched ≤ reader.buffer.size
  searched_in_vain : Byte.lineFeed ∉ reader.between reader.start reader.searched

/-! ### The buffer as a list -/

theorem between_eq (reader : LineReader) (first last : Nat) :
    reader.between first last = (reader.buffer.toList.drop first).take (last - first) := by
  rw [between, Array.toList_extract, List.extract_eq_take_drop]

theorem unread_eq (reader : LineReader) :
    reader.unread = reader.buffer.toList.drop reader.start := by
  have lengthEq : (reader.buffer.toList.drop reader.start).length
      = reader.buffer.size - reader.start := by
    rw [List.length_drop, Array.length_toList]
  rw [unread, between_eq, ← lengthEq, List.take_length]

theorem WellPlaced.unread_eq_append {reader : LineReader} (placed : reader.WellPlaced) :
    reader.unread
      = reader.between reader.start reader.searched
        ++ reader.buffer.toList.drop reader.searched := by
  have split := List.take_append_drop (reader.searched - reader.start)
    (reader.buffer.toList.drop reader.start)
  rw [List.drop_drop, Nat.add_sub_cancel' placed.start_le_searched] at split
  rw [unread_eq, between_eq]
  exact split.symm

/-! ### Feeding -/

private theorem compact_start (reader : LineReader) : reader.compact.start = 0 := by
  unfold compact
  split
  · assumption
  · rfl

private theorem compact_searched (reader : LineReader) :
    reader.compact.searched = reader.searched - reader.start := by
  unfold compact
  split
  · rename_i atZero
    rw [atZero, Nat.sub_zero]
  · rfl

private theorem compact_buffer (reader : LineReader) :
    reader.compact.buffer.toList = reader.unread := by
  unfold compact
  split
  · rename_i atZero
    rw [unread_eq, atZero, List.drop_zero]
  · rfl

private theorem feed_buffer (reader : LineReader) (bytes : List UInt8) :
    (reader.feed bytes).buffer.toList = reader.unread ++ bytes := by
  rw [feed, Array.toList_appendList, compact_buffer]

theorem unread_feed (reader : LineReader) (bytes : List UInt8) :
    (reader.feed bytes).unread = reader.unread ++ bytes := by
  have atZero : (reader.feed bytes).start = 0 := compact_start reader
  rw [unread_eq, feed_buffer, atZero, List.drop_zero]

theorem wellPlaced_empty : empty.WellPlaced where
  start_le_searched := Nat.le_refl 0
  searched_le_size := Nat.le_refl 0
  searched_in_vain := List.not_mem_nil

theorem WellPlaced.feed {reader : LineReader} (placed : reader.WellPlaced)
    (bytes : List UInt8) : (reader.feed bytes).WellPlaced := by
  have atZero : (reader.feed bytes).start = 0 := compact_start reader
  have searchedEq : (reader.feed bytes).searched = reader.searched - reader.start :=
    compact_searched reader
  have inside : reader.searched - reader.start ≤ reader.unread.length := by
    have within := placed.searched_le_size
    rw [unread_eq, List.length_drop, Array.length_toList]
    omega
  constructor
  · rw [atZero]
    exact Nat.zero_le _
  · rw [searchedEq, ← Array.length_toList, feed_buffer, List.length_append]
    exact Nat.le_trans inside (Nat.le_add_right _ _)
  · have kept : (reader.feed bytes).between 0 (reader.searched - reader.start)
        = reader.between reader.start reader.searched := by
      rw [between_eq, between_eq, feed_buffer, List.drop_zero, Nat.sub_zero,
        List.take_append_of_le_length inside, unread_eq]
    rw [atZero, searchedEq, kept]
    exact placed.searched_in_vain

/-! ### Searching -/

private theorem not_mem_of_lineFeedFrom {buffer : Array UInt8} {place : Nat}
    (nowhere : lineFeedFrom buffer place = none) :
    Byte.lineFeed ∉ buffer.toList.drop place := by
  induction place using lineFeedFrom.induct buffer with
  | case1 place inside isLineFeed =>
      rw [lineFeedFrom, dif_pos inside, if_pos isLineFeed] at nowhere
      cases nowhere
  | case2 place inside isOther ih =>
      rw [lineFeedFrom, dif_pos inside, if_neg isOther] at nowhere
      rw [List.drop_eq_getElem_cons (by rw [Array.length_toList]; exact inside),
        Array.getElem_toList]
      intro member
      rcases List.mem_cons.mp member with here | later
      · exact isOther (beq_iff_eq.mpr here.symm)
      · exact ih nowhere later
  | case3 place outside =>
      rw [List.drop_eq_nil_of_le (by rw [Array.length_toList]; exact Nat.le_of_not_lt outside)]
      exact List.not_mem_nil

private theorem drop_of_lineFeedFrom {buffer : Array UInt8} {place found : Nat}
    (located : lineFeedFrom buffer place = some found) :
    ∃ inner, Byte.lineFeed ∉ inner ∧ found = place + inner.length ∧
      buffer.toList.drop place
        = inner ++ Byte.lineFeed :: buffer.toList.drop (found + 1) := by
  induction place using lineFeedFrom.induct buffer with
  | case1 place inside isLineFeed =>
      rw [lineFeedFrom, dif_pos inside, if_pos isLineFeed] at located
      cases located
      refine ⟨[], List.not_mem_nil, rfl, ?_⟩
      rw [List.drop_eq_getElem_cons (by rw [Array.length_toList]; exact inside),
        Array.getElem_toList, beq_iff_eq.mp isLineFeed]
      rfl
  | case2 place inside isOther ih =>
      rw [lineFeedFrom, dif_pos inside, if_neg isOther] at located
      obtain ⟨inner, absent, foundEq, later⟩ := ih located
      refine ⟨buffer[place] :: inner, ?_, ?_, ?_⟩
      · intro member
        rcases List.mem_cons.mp member with here | further
        · exact isOther (beq_iff_eq.mpr here.symm)
        · exact absent further
      · rw [foundEq, List.length_cons]
        omega
      · rw [List.drop_eq_getElem_cons (by rw [Array.length_toList]; exact inside),
          Array.getElem_toList, later]
        rfl
  | case3 place outside =>
      rw [lineFeedFrom, dif_neg outside] at located
      cases located

/-! ### Taking a line -/

theorem WellPlaced.exists_line_of_lineFeedFrom {reader : LineReader} (placed : reader.WellPlaced)
    {found : Nat} (located : lineFeedFrom reader.buffer reader.searched = some found) :
    ∃ inner, Byte.lineFeed ∉ inner ∧
      reader.unread = inner ++ Byte.lineFeed :: reader.buffer.toList.drop (found + 1) ∧
      reader.between reader.start (found + 1) = inner ++ [Byte.lineFeed] := by
  obtain ⟨inner, absent, foundEq, behind⟩ := drop_of_lineFeedFrom located
  have whole : reader.unread
      = (reader.between reader.start reader.searched ++ inner)
        ++ Byte.lineFeed :: reader.buffer.toList.drop (found + 1) := by
    rw [placed.unread_eq_append, behind, List.append_assoc]
  refine ⟨reader.between reader.start reader.searched ++ inner, ?_, whole, ?_⟩
  · rw [List.mem_append, not_or]
    exact ⟨placed.searched_in_vain, absent⟩
  · have ordered := placed.start_le_searched
    have within := placed.searched_le_size
    have lengthEq : (reader.between reader.start reader.searched ++ inner).length + 1
        = found + 1 - reader.start := by
      rw [List.length_append, between_eq, List.length_take, List.length_drop,
        Array.length_toList]
      omega
    rw [between_eq, ← unread_eq, whole, ← lengthEq, List.take_length_add_append]
    rfl

/-- Taking a line, as seen on the unread bytes: either no line feed stands among them and nothing
is consumed, or exactly the first line is. -/
theorem WellPlaced.next_cases {reader : LineReader} (placed : reader.WellPlaced) :
    (Byte.lineFeed ∉ reader.unread ∧ reader.next.1 = .incomplete ∧
      reader.next.2.unread = reader.unread) ∨
    ∃ inner rest, Byte.lineFeed ∉ inner ∧ reader.unread = inner ++ Byte.lineFeed :: rest ∧
      reader.next.1 = Reading.ofLine (inner ++ [Byte.lineFeed]) ∧
      reader.next.2.unread = rest := by
  cases located : lineFeedFrom reader.buffer reader.searched with
  | none =>
      left
      have behind := not_mem_of_lineFeedFrom located
      have stays : reader.next = (.incomplete, { reader with searched := reader.buffer.size }) := by
        rw [next, located]
      refine ⟨?_, by rw [stays], by rw [stays]; rfl⟩
      rw [placed.unread_eq_append, List.mem_append, not_or]
      exact ⟨placed.searched_in_vain, behind⟩
  | some found =>
      right
      obtain ⟨inner, absent, whole, lineEq⟩ := placed.exists_line_of_lineFeedFrom located
      have moves : reader.next = (Reading.ofLine (reader.between reader.start (found + 1)),
          { reader with start := found + 1, searched := found + 1 }) := by
        rw [next, located]
      refine ⟨inner, reader.buffer.toList.drop (found + 1), absent, whole, ?_, ?_⟩
      · rw [moves, lineEq]
      · rw [moves, unread_eq]

theorem WellPlaced.next_of_line {reader : LineReader} (placed : reader.WellPlaced)
    {inner rest : List UInt8} (absent : Byte.lineFeed ∉ inner)
    (front : reader.unread = inner ++ Byte.lineFeed :: rest) :
    reader.next.1 = Reading.ofLine (inner ++ [Byte.lineFeed]) := by
  rcases placed.next_cases with ⟨nowhere, _, _⟩ | ⟨first, behind, clean, whole, gives, _⟩
  · rw [front] at nowhere
    exact absurd (List.mem_append_right _ List.mem_cons_self) nowhere
  · rw [front] at whole
    rw [(Stream.first_line_unique absent clean whole).1]
    exact gives

theorem WellPlaced.next {reader : LineReader} (placed : reader.WellPlaced) :
    reader.next.2.WellPlaced := by
  cases located : lineFeedFrom reader.buffer reader.searched with
  | none =>
      have stays : reader.next.2 = { reader with searched := reader.buffer.size } := by
        rw [LineReader.next, located]
      have split := placed.unread_eq_append
      rw [stays]
      refine ⟨Nat.le_trans placed.start_le_searched placed.searched_le_size, Nat.le_refl _, ?_⟩
      change Byte.lineFeed ∉ reader.unread
      rw [split, List.mem_append, not_or]
      exact ⟨placed.searched_in_vain, not_mem_of_lineFeedFrom located⟩
  | some found =>
      have moves : reader.next.2
          = { reader with start := found + 1, searched := found + 1 } := by
        rw [LineReader.next, located]
      rw [moves]
      refine ⟨Nat.le_refl _, (lineFeedFrom_lt located).2, ?_⟩
      rw [between_eq, Nat.sub_self, List.take_zero]
      exact List.not_mem_nil

end PipelineShell.LineReader

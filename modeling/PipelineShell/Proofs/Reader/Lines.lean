import PipelineShell.CommandLine.Reader

/-!
A stream cut into lines, said without a reader. Every stream is a number of terminated lines and
a remainder in which no line feed stands; appending bytes to a stream only continues its
remainder.
-/

namespace PipelineShell.Stream

/-- The terminated lines of a stream, each with the line feed that ends it. -/
def lines : List UInt8 → List (List UInt8)
  | [] => []
  | byte :: rest =>
      if byte = Byte.lineFeed then [byte] :: lines rest
      else match lines rest with
        | [] => []
        | line :: later => (byte :: line) :: later

/-- The bytes behind the last line feed of a stream. -/
def remainder : List UInt8 → List UInt8
  | [] => []
  | byte :: rest =>
      if Byte.lineFeed ∈ byte :: rest then remainder rest else byte :: rest

/-! ### The first line of a stream -/

private theorem exists_first_line {bytes : List UInt8} (present : Byte.lineFeed ∈ bytes) :
    ∃ inner rest, Byte.lineFeed ∉ inner ∧ bytes = inner ++ Byte.lineFeed :: rest := by
  obtain ⟨inner, rest, split, absent⟩ := List.eq_append_cons_of_mem present
  exact ⟨inner, rest, absent, split⟩

theorem first_line_unique {inner other rest tail : List UInt8}
    (absent : Byte.lineFeed ∉ inner) (alsoAbsent : Byte.lineFeed ∉ other)
    (same : inner ++ Byte.lineFeed :: rest = other ++ Byte.lineFeed :: tail) :
    inner = other ∧ rest = tail := by
  induction inner generalizing other with
  | nil =>
      cases other with
      | nil => exact ⟨rfl, (List.cons.inj same).2⟩
      | cons byte more =>
          have head : Byte.lineFeed = byte := (List.cons.inj same).1
          rw [head] at alsoAbsent
          exact absurd List.mem_cons_self alsoAbsent
  | cons byte more ih =>
      cases other with
      | nil =>
          have head : byte = Byte.lineFeed := (List.cons.inj same).1
          rw [head] at absent
          exact absurd List.mem_cons_self absent
      | cons first others =>
          obtain ⟨head, tails⟩ := List.cons.inj same
          have later := ih (List.not_mem_of_not_mem_cons absent)
            (List.not_mem_of_not_mem_cons alsoAbsent) tails
          exact ⟨by rw [head, later.1], later.2⟩

/-- What holds of a stream without a line feed, and of a line with a stream behind it of which
it holds, holds of every stream. -/
@[elab_as_elim]
theorem induction_by_lines {motive : List UInt8 → Prop}
    (unterminated : ∀ inner, Byte.lineFeed ∉ inner → motive inner)
    (terminated : ∀ inner rest, Byte.lineFeed ∉ inner → motive rest →
      motive (inner ++ Byte.lineFeed :: rest)) (bytes : List UInt8) : motive bytes := by
  by_cases present : Byte.lineFeed ∈ bytes
  · obtain ⟨inner, rest, absent, split⟩ := exists_first_line present
    have shorter : rest.length < bytes.length := by
      rw [split, List.length_append, List.length_cons]
      omega
    rw [split]
    exact terminated inner rest absent (induction_by_lines unterminated terminated rest)
  · exact unterminated bytes present
termination_by bytes.length

/-! ### Lines and remainder, line by line -/

theorem lines_of_absent {inner : List UInt8} (absent : Byte.lineFeed ∉ inner) :
    lines inner = [] := by
  induction inner with
  | nil => rfl
  | cons byte rest ih =>
      have different : byte ≠ Byte.lineFeed := fun same => absent (same ▸ List.mem_cons_self)
      rw [lines, if_neg different, ih (List.not_mem_of_not_mem_cons absent)]

theorem lines_of_line {inner : List UInt8} (absent : Byte.lineFeed ∉ inner) (rest : List UInt8) :
    lines (inner ++ Byte.lineFeed :: rest) = (inner ++ [Byte.lineFeed]) :: lines rest := by
  induction inner with
  | nil =>
      rw [List.nil_append, lines, if_pos rfl]
      rfl
  | cons byte more ih =>
      have different : byte ≠ Byte.lineFeed := fun same => absent (same ▸ List.mem_cons_self)
      rw [List.cons_append, lines, if_neg different, ih (List.not_mem_of_not_mem_cons absent)]
      rfl

theorem remainder_of_absent {inner : List UInt8} (absent : Byte.lineFeed ∉ inner) :
    remainder inner = inner := by
  cases inner with
  | nil => rfl
  | cons byte rest => rw [remainder, if_neg absent]

theorem remainder_of_line (inner rest : List UInt8) :
    remainder (inner ++ Byte.lineFeed :: rest) = remainder rest := by
  induction inner with
  | nil => rw [List.nil_append, remainder, if_pos List.mem_cons_self]
  | cons byte more ih =>
      have present : Byte.lineFeed ∈ byte :: (more ++ Byte.lineFeed :: rest) := by simp
      rw [List.cons_append, remainder, if_pos present, ih]

/-! ### Laws of cutting -/

theorem not_mem_remainder (bytes : List UInt8) : Byte.lineFeed ∉ remainder bytes := by
  induction bytes using induction_by_lines with
  | unterminated inner absent =>
      rw [remainder_of_absent absent]
      exact absent
  | terminated inner rest absent ih =>
      rw [remainder_of_line]
      exact ih

/-- Appending to a stream continues its remainder and leaves its lines alone. -/
theorem lines_append (bytes more : List UInt8) :
    lines (bytes ++ more) = lines bytes ++ lines (remainder bytes ++ more) := by
  induction bytes using induction_by_lines with
  | unterminated inner absent =>
      rw [lines_of_absent absent, remainder_of_absent absent]
      rfl
  | terminated inner rest absent ih =>
      rw [List.append_assoc, List.cons_append, lines_of_line absent, lines_of_line absent,
        remainder_of_line, ih]
      rfl

theorem remainder_append (bytes more : List UInt8) :
    remainder (bytes ++ more) = remainder (remainder bytes ++ more) := by
  induction bytes using induction_by_lines with
  | unterminated inner absent => rw [remainder_of_absent absent]
  | terminated inner rest absent ih =>
      rw [List.append_assoc, List.cons_append, remainder_of_line, remainder_of_line, ih]

private theorem flatten_lines_append_remainder (bytes : List UInt8) :
    (lines bytes).flatten ++ remainder bytes = bytes := by
  induction bytes using induction_by_lines with
  | unterminated inner absent =>
      rw [lines_of_absent absent, remainder_of_absent absent]
      rfl
  | terminated inner rest absent ih =>
      rw [lines_of_line absent, remainder_of_line, List.flatten_cons, List.append_assoc, ih,
        List.append_assoc]
      rfl

theorem length_lines (bytes : List UInt8) :
    (lines bytes).length = bytes.count Byte.lineFeed := by
  induction bytes using induction_by_lines with
  | unterminated inner absent =>
      rw [lines_of_absent absent, List.count_eq_zero_of_not_mem absent]
      rfl
  | terminated inner rest absent ih =>
      rw [lines_of_line absent, List.length_cons, ih, List.count_append,
        List.count_eq_zero_of_not_mem absent, List.count_cons_self, Nat.zero_add]

theorem exists_inner_of_mem_lines {bytes line : List UInt8} (member : line ∈ lines bytes) :
    ∃ inner, Byte.lineFeed ∉ inner ∧ line = inner ++ [Byte.lineFeed] := by
  induction bytes using induction_by_lines with
  | unterminated inner absent =>
      rw [lines_of_absent absent] at member
      cases member
  | terminated inner rest absent ih =>
      rw [lines_of_line absent, List.mem_cons] at member
      rcases member with here | later
      · exact ⟨inner, absent, here⟩
      · exact ih later

/-- Lines and a tail that a stream falls into: each line ends with its only line feed, and none
stands in the tail. -/
structure Cut (bytes : List UInt8) (cutLines : List (List UInt8)) (tail : List UInt8) : Prop where
  whole : cutLines.flatten ++ tail = bytes
  terminated : ∀ line ∈ cutLines, ∃ inner, Byte.lineFeed ∉ inner ∧ line = inner ++ [Byte.lineFeed]
  unterminated : Byte.lineFeed ∉ tail

theorem cut_lines_remainder (bytes : List UInt8) : Cut bytes (lines bytes) (remainder bytes) where
  whole := flatten_lines_append_remainder bytes
  terminated := fun _line member => exists_inner_of_mem_lines member
  unterminated := not_mem_remainder bytes

end PipelineShell.Stream

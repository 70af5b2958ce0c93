import Mathlib.Data.List.Basic
import PipelineShell.Proofs.Line.Spelling

/-!
The scanner and the spellings of a line. A line that is scanned without a fault spells the tokens
that it is scanned to; with the way back a line spells filled tokens exactly if it is scanned to
them.
-/

namespace PipelineShell.Token

theorem exists_rest_of_append {inner part rest : List UInt8}
    (whole : inner ++ [Byte.lineFeed] = part ++ rest) (absent : Byte.lineFeed ∉ part) :
    ∃ more, rest = more ++ [Byte.lineFeed] ∧ inner = part ++ more := by
  rcases List.append_eq_append_iff.mp whole with ⟨more, partEq, lastEq⟩ | ⟨more, innerEq, restEq⟩
  · cases more with
    | nil => exact ⟨[], lastEq.symm, by simp [partEq]⟩
    | cons byte others =>
        have isLast := (List.cons.inj lastEq).1
        rw [partEq, isLast] at absent
        exact absurd (List.mem_append_right _ List.mem_cons_self) absent
  · exact ⟨more, restEq, innerEq⟩

/-- A line of which the scanner reports no fault spells what it is scanned to, also behind a token
that ends before it. -/
theorem spells_scan {inner : List UInt8} (one : Byte.lineFeed ∉ inner) (before : Option Token)
    (apart : ∀ earlier ∈ before, earlier.EndsBefore (inner ++ [Byte.lineFeed])) :
    (scan (inner ++ [Byte.lineFeed])).fault = some .noTarget ∨
      (scan (inner ++ [Byte.lineFeed])).fault = none ∧
        Spells before (scan (inner ++ [Byte.lineFeed])).tokens (inner ++ [Byte.lineFeed]) := by
  induction length : inner.length using Nat.strongRecOn generalizing inner before with
  | ind size ih =>
      have stands := standsIn_front (inner ++ [Byte.lineFeed])
      generalize lineEq : inner ++ [Byte.lineFeed] = line at stands apart ⊢
      generalize found : front line = ahead at stands
      cases stands with
      | @token gap written rest token isGap isWritten filled ends =>
          have absent : Byte.lineFeed ∉ gap ++ written := by
            simp [lineFeed_not_mem_of_isGap isGap,
              lineFeed_not_mem_of_isWritten filled isWritten]
          rw [← List.append_assoc] at lineEq
          obtain ⟨more, rfl, innerEq⟩ := exists_rest_of_append lineEq absent
          obtain ⟨first, others, rfl, _, same⟩ := exists_head_of_isWritten filled isWritten
          have shorter : more.length < size := by
            rw [← length, innerEq]
            simp
            omega
          have noGap : ∀ earlier ∈ before, earlier.needsGap token = true → gap ≠ [] := by
            rintro earlier isBefore needed rfl
            have stopped := apart earlier isBefore first rfl
            rw [same, needed] at stopped
            cases stopped
          have oneLater : Byte.lineFeed ∉ more :=
            fun member => one (innerEq ▸ List.mem_append_right _ member)
          have later := ih more.length shorter oneLater (some token)
            (fun _ here => Option.some.inj here ▸ ends) rfl
          rw [scan_of_token found]
          exact later.imp id fun spelled => ⟨spelled.1, .next isGap noGap isWritten spelled.2⟩
      | @terminator gap isGap rest =>
          obtain ⟨_, _, rfl⟩ :=
            (List.append_cons_inj_of_notMem one List.not_mem_nil).mp lineEq
          rw [scan_of_terminator found]
          exact Or.inr ⟨rfl, .last isGap⟩
      | exhausted isGap =>
          rw [← lineEq] at isGap
          exact absurd (List.mem_append_right inner List.mem_cons_self)
            (lineFeed_not_mem_of_isGap isGap)
      | missingTarget =>
          rw [scan_of_missingTarget found]
          exact Or.inl rfl

/-- A spelling of filled tokens is scanned to them, each taken from the front, and then to the end
of the line, with nothing left; and a terminated line that is scanned without a missing target
spells the tokens that it is scanned to. -/
theorem scan_inverts_spelling :
    (∀ tokens line, (∀ token ∈ tokens, token.IsFilled) → Spells none tokens line →
      scan line = ⟨tokens, none⟩ ∧ ∃ rest, Yields line tokens rest ∧ front rest = .terminator []) ∧
    ∀ inner, Byte.lineFeed ∉ inner →
      (scan (inner ++ [Byte.lineFeed])).fault = some .noTarget ∨
        (scan (inner ++ [Byte.lineFeed])).fault = none ∧
        (∀ token ∈ (scan (inner ++ [Byte.lineFeed])).tokens, token.IsFilled) ∧
        Spells none (scan (inner ++ [Byte.lineFeed])).tokens (inner ++ [Byte.lineFeed]) := by
  constructor
  · intro tokens line filled spells
    exact ⟨scan_of_spells spells filled, spells.yields filled⟩
  · intro inner one
    rcases spells_scan one none (fun _ absent => nomatch absent) with missing | spelled
    · exact Or.inl missing
    · exact Or.inr ⟨spelled.1, fun _ member => filled_of_mem_scan member, spelled.2⟩

/-- `\ta|\r||>> \rp b& &&\r\n`: both signs are doubled once and apart once, and the last carriage
return belongs to the end of the line. -/
theorem scan_inverts_spelling_of_doubled_signs :
    let inner := [Byte.tab, 0x61, Byte.bar, Byte.carriageReturn, Byte.bar, Byte.bar, Byte.greater,
      Byte.greater, Byte.space, Byte.carriageReturn, 0x70, Byte.space, 0x62, Byte.ampersand,
      Byte.space, Byte.ampersand, Byte.ampersand, Byte.carriageReturn]
    let line := inner ++ [Byte.lineFeed]
    let tokens : List Token :=
      [.word [0x61], .connective .pipe, .connective .or, .redirect true [0x70], .word [0x62],
        .background, .connective .and]
    (∀ token ∈ tokens, token.IsFilled) ∧ Spells none tokens line ∧ scan line = ⟨tokens, none⟩ ∧
      Byte.lineFeed ∉ inner ∧ Spells none (scan line).tokens line := by
  intro inner line tokens
  have filled : ∀ token ∈ tokens, token.IsFilled := by decide
  have spells : Spells none tokens line := by
    refine @Spells.next _ _ _ [Byte.tab] [0x61] _ (by decide) (by decide) (.word _) ?_
    refine @Spells.next _ _ _ [] _ _ (by decide) (by decide) .pipe ?_
    refine @Spells.next _ _ _ [Byte.carriageReturn] _ _ (by decide) (by decide) .or ?_
    have isGap : IsGap [Byte.space, Byte.carriageReturn] := by decide
    refine @Spells.next _ _ _ [] _ _ (by decide) (by decide) (.redirect true [0x70] isGap) ?_
    refine @Spells.next _ _ _ [Byte.space] [0x62] _ (by decide) (by decide) (.word _) ?_
    refine @Spells.next _ _ _ [] _ _ (by decide) (by decide) .background ?_
    refine @Spells.next _ _ _ [Byte.space] _ _ (by decide) (by decide) .and ?_
    exact @Spells.last _ [Byte.carriageReturn] (by decide)
  have scanned := (scan_inverts_spelling.1 tokens line filled spells).1
  have one : Byte.lineFeed ∉ inner := by decide
  refine ⟨filled, spells, scanned, one, ?_⟩
  rcases scan_inverts_spelling.2 inner one with missing | ⟨_, _, back⟩
  · rw [show scan (inner ++ [Byte.lineFeed]) = ⟨tokens, none⟩ from scanned] at missing
    cases missing
  · exact back

end PipelineShell.Token

import PipelineShell.Proofs.Line.Unseen

/-!
Blanks and line ends that are written differently. A tab or a carriage return may be replaced by a
space, and a carriage return may be put in front of any line feed, without a difference in what is
read: each such stream has the same settled form, in which every blank is a space and none stands at
the end of a line, and no reading shows that a stream has been settled.
-/

namespace PipelineShell

namespace Stream

/-- The second stream is the first with some tabs and carriage returns replaced by spaces, and with
a carriage return put in front of some line feeds. -/
inductive Respaced : List UInt8 → List UInt8 → Prop
  | nil : Respaced [] []
  | kept (byte : UInt8) {bytes others : List UInt8} (later : Respaced bytes others) :
      Respaced (byte :: bytes) (byte :: others)
  | replaced {byte : UInt8} (blank : byte = Byte.tab ∨ byte = Byte.carriageReturn)
      {bytes others : List UInt8} (later : Respaced bytes others) :
      Respaced (byte :: bytes) (Byte.space :: others)
  | closed {bytes others : List UInt8} (later : Respaced bytes others) :
      Respaced (Byte.lineFeed :: bytes) (Byte.carriageReturn :: Byte.lineFeed :: others)

/-- Every blank as a space, and none in front of a line feed. -/
def settle : List UInt8 → List UInt8
  | [] => []
  | byte :: rest =>
      if Byte.isFiller byte then
        if (settle rest).head? = some Byte.lineFeed then settle rest
        else Byte.space :: settle rest
      else byte :: settle rest

private theorem settle_filler {byte : UInt8} (filler : Byte.isFiller byte = true)
    (rest : List UInt8) :
    settle (byte :: rest) = if (settle rest).head? = some Byte.lineFeed then settle rest
      else Byte.space :: settle rest := by
  rw [settle, if_pos filler]

private theorem settle_solid {byte : UInt8} (solid : Byte.isFiller byte = false)
    (rest : List UInt8) :
    settle (byte :: rest) = byte :: settle rest := by
  rw [settle, if_neg (Bool.eq_false_iff.mp solid)]

private theorem settle_of_respaced {bytes others : List UInt8} (respaced : Respaced bytes others) :
    settle others = settle bytes := by
  induction respaced with
  | nil => rfl
  | kept byte later ih => rw [settle, settle, ih]
  | @replaced byte blank bytes others later ih =>
      have filler : Byte.isFiller byte = true := by
        rcases blank with rfl | rfl <;> rfl
      rw [settle_filler filler, settle_filler rfl, ih]
  | @closed bytes others later ih =>
      rw [settle_filler rfl, settle_solid rfl, settle_solid rfl, ih]
      exact if_pos rfl

private theorem settle_ne_nil {bytes : List UInt8} (filled : bytes ≠ []) : settle bytes ≠ [] := by
  cases bytes with
  | nil => exact absurd rfl filled
  | cons byte rest =>
      rw [settle]
      split
      · split
        · rename_i ending
          intro nothing
          rw [nothing] at ending
          cases ending
        · exact List.cons_ne_nil _ _
      · exact List.cons_ne_nil _ _

theorem settle_word_append {word : List UInt8}
    (solid : ∀ byte ∈ word, Byte.isWordByte byte = true) (rest : List UInt8) :
    settle (word ++ rest) = word ++ settle rest := by
  induction word with
  | nil => rfl
  | cons byte others ih =>
      obtain ⟨first, later⟩ := List.forall_mem_cons.mp solid
      rw [List.cons_append, settle_solid (Token.isWordByte_cases first).1, ih later]
      rfl

private theorem settle_word {word : List UInt8} (isWord : Token.IsWord word) :
    settle word = word := by
  have whole := settle_word_append isWord.2 []
  rw [List.append_nil] at whole
  exact whole.trans (List.append_nil word)

private theorem settle_line (inner rest : List UInt8) :
    settle (inner ++ Byte.lineFeed :: rest)
      = settle (inner ++ [Byte.lineFeed]) ++ settle rest := by
  induction inner with
  | nil =>
      rw [List.nil_append, List.nil_append, settle_solid rfl, settle_solid rfl]
      rfl
  | cons byte others ih =>
      obtain ⟨first, more, front⟩ := List.exists_cons_of_ne_nil
        (settle_ne_nil (List.append_ne_nil_of_right_ne_nil others (List.cons_ne_nil _ [])))
      rw [List.cons_append, List.cons_append, settle, settle, ih, front]
      by_cases filler : Byte.isFiller byte = true
      · rw [if_pos filler, if_pos filler]
        by_cases ending : (first :: more).head? = some Byte.lineFeed
        · rw [if_pos ending]
          exact if_pos ending
        · rw [if_neg ending]
          exact if_neg ending
      · rw [if_neg filler, if_neg filler]
        rfl

/-- Nothing that is read from a stream shows that the stream has been settled. -/
theorem unseen_settle : Token.Unseen settle where
  nil := rfl
  filler := by
    intro byte rest filler
    rw [settle_filler filler]
    by_cases ending : (settle rest).head? = some Byte.lineFeed
    · exact ⟨[], Token.isGap_nil, if_pos ending, fun _ => ending⟩
    · exact ⟨[Byte.space], Token.isGap_space, if_neg ending, nofun⟩
  sign := fun _ rest isSign => settle_solid (Token.isFiller_of_isSign isSign) rest
  word := by
    intro word rest isWord _
    rw [settle_word isWord]
    exact settle_word_append isWord.2 rest
  isWord := by
    intro word isWord
    rw [settle_word isWord]
    exact isWord
  text := by
    intro word isWord
    rw [settle_word isWord]
  line := fun inner rest _ => settle_line inner rest

end Stream

namespace LineReader

/-- Whichever tabs and carriage returns of a stream are replaced by spaces, and in front of
whichever line feeds a carriage return is put: the same lines, blanks and faults are read. -/
theorem readAlone_of_respaced {bytes others : List UInt8}
    (respaced : Stream.Respaced bytes others) : readAlone others = readAlone bytes := by
  rw [readAlone_eq, readAlone_eq, ← Stream.unseen_settle.readings others,
    ← Stream.unseen_settle.readings bytes, Stream.settle_of_respaced respaced]

/-- The line `y>` with a carriage return behind it, where its target is due. It gets a second one
before its line feed, and the line `a |` in front of it loses its tab and one of two carriage
returns to spaces. -/
theorem readAlone_of_respaced_before_target :
    let bytes := [0x61, Byte.tab, Byte.bar, Byte.carriageReturn, Byte.carriageReturn,
      Byte.lineFeed, 0x79, Byte.greater, Byte.carriageReturn, Byte.lineFeed]
    let others := [0x61, Byte.space, Byte.bar, Byte.space, Byte.carriageReturn, Byte.lineFeed,
      0x79, Byte.greater, Byte.carriageReturn, Byte.carriageReturn, Byte.lineFeed]
    Stream.Respaced bytes others ∧ readAlone others = readAlone bytes ∧
      readAlone bytes = [.fault .noRightOperand, .fault .noTarget] := by
  intro bytes others
  have respaced : Stream.Respaced bytes others :=
    .kept _ (.replaced (Or.inl rfl) (.kept _ (.replaced (Or.inr rfl) (.kept _ (.kept _
      (.kept _ (.kept _ (.kept _ (.closed .nil)))))))))
  have word : Token.front [0x61, Byte.tab, Byte.bar, Byte.carriageReturn, Byte.carriageReturn,
      Byte.lineFeed] = .token (.word [0x61]) [Byte.tab, Byte.bar, Byte.carriageReturn,
        Byte.carriageReturn, Byte.lineFeed] := by
    decide
  have pipe : Token.front [Byte.tab, Byte.bar, Byte.carriageReturn, Byte.carriageReturn,
      Byte.lineFeed] = .token (.connective .pipe) [Byte.carriageReturn, Byte.carriageReturn,
        Byte.lineFeed] := by
    decide
  have ended : Token.front [Byte.carriageReturn, Byte.carriageReturn, Byte.lineFeed]
      = .terminator [] := by
    decide
  have other : Token.front [0x79, Byte.greater, Byte.carriageReturn, Byte.lineFeed]
      = .token (.word [0x79]) [Byte.greater, Byte.carriageReturn, Byte.lineFeed] := by
    decide
  have missing : Token.front [Byte.greater, Byte.carriageReturn, Byte.lineFeed]
      = .missingTarget := by
    decide
  refine ⟨respaced, readAlone_of_respaced respaced, ?_⟩
  have linesEq : Stream.lines bytes = [[0x61, Byte.tab, Byte.bar, Byte.carriageReturn,
      Byte.carriageReturn, Byte.lineFeed], [0x79, Byte.greater, Byte.carriageReturn,
      Byte.lineFeed]] := by
    decide
  rw [readAlone_eq, Stream.readings, linesEq, List.map_cons, List.map_singleton, Reading.ofLine,
    Reading.ofLine, CommandLine.parse_eq_judge, CommandLine.parse_eq_judge,
    Token.scan_of_token word, Token.scan_of_token pipe, Token.scan_of_terminator ended,
    Token.scan_of_token other, Token.scan_of_missingTarget missing]
  rfl

end LineReader

end PipelineShell

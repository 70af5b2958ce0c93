import PipelineShell.Proofs.Line.Acceptance
import PipelineShell.Proofs.Line.Spelling

/-!
Changes of a stream that nothing read from it shows. Blanks may become other blanks, and may go
away where a line ends; words may become other words of the same text; every operator and every
line feed stays. Whatever stands in front of the bytes then still stands in front of them, so that
the tokens correspond one by one and each line reads as before.
-/

namespace PipelineShell.Token

/-! ### Blanks and signs in front -/

def IsSign (byte : UInt8) : Prop :=
  Byte.isOperator byte = true ∨ byte = Byte.lineFeed

theorem isWordByte_of_plain {byte : UInt8} (solid : Byte.isFiller byte ≠ true)
    (unsigned : ¬ IsSign byte) : Byte.isWordByte byte = true := by
  rw [IsSign, not_or] at unsigned
  simp [Byte.isWordByte, solid, unsigned]

theorem isSign_cases {byte : UInt8} (isSign : IsSign byte) :
    byte = Byte.bar ∨ byte = Byte.ampersand ∨ byte = Byte.greater ∨ byte = Byte.lineFeed := by
  simp only [IsSign, Byte.isOperator, Bool.or_eq_true, beq_iff_eq] at isSign
  rwa [or_assoc, or_assoc] at isSign

theorem isFiller_of_isSign {byte : UInt8} (isSign : IsSign byte) : Byte.isFiller byte = false := by
  rcases isSign_cases isSign with rfl | rfl | rfl | rfl <;> rfl

theorem isWordByte_of_isSign {byte : UInt8} (isSign : IsSign byte) :
    Byte.isWordByte byte = false := by
  rcases isSign_cases isSign with rfl | rfl | rfl | rfl <;> rfl

theorem isWordByte_of_isFiller {byte : UInt8} (filler : Byte.isFiller byte = true) :
    Byte.isWordByte byte = false := by
  simp [Byte.isWordByte, filler]

private theorem front_filler {byte : UInt8} (filler : Byte.isFiller byte = true)
    (rest : List UInt8) :
    front (byte :: rest) = front rest := by
  by_cases ahead : rest.head? = some Byte.lineFeed
  · have isGap : IsGap [byte] := List.forall_mem_singleton.mpr filler
    rw [eq_cons_drop_of_head? ahead]
    exact (front_gap_lineFeed isGap _).trans (front_gap_lineFeed isGap_nil _).symm
  · rw [front, dropBlanks, isBlank_of_isFiller filler ahead]
    rfl

private theorem passes_gap {α : Type} {reads : List UInt8 → α}
    (passes : ∀ byte rest, Byte.isFiller byte = true → reads (byte :: rest) = reads rest)
    {gap : List UInt8} (isGap : IsGap gap) (rest : List UInt8) :
    reads (gap ++ rest) = reads rest := by
  induction gap with
  | nil => rfl
  | cons byte others ih =>
      obtain ⟨filler, later⟩ := List.forall_mem_cons.mp isGap
      exact (passes byte _ filler).trans (ih later)

theorem front_gap_append {gap : List UInt8} (isGap : IsGap gap) (rest : List UInt8) :
    front (gap ++ rest) = front rest :=
  passes_gap (fun _ rest filler => front_filler filler rest) isGap rest

private theorem redirectFront_of_stops {bytes : List UInt8} (append : Bool)
    (stops : Stops (dropBlanks bytes)) : redirectFront append bytes = .missingTarget := by
  have nothing : (dropBlanks bytes).takeWhile Byte.isWordByte = [] :=
    takeWhile_append_of_stops (List.forall_mem_nil _) stops
  rw [redirectFront, nothing]

private theorem redirectFront_filler {byte : UInt8} (filler : Byte.isFiller byte = true)
    (append : Bool)
    (rest : List UInt8) : redirectFront append (byte :: rest) = redirectFront append rest := by
  by_cases ahead : rest.head? = some Byte.lineFeed
  · rw [eq_cons_drop_of_head? ahead]
    rcases isFiller_cases filler with rfl | rfl | rfl <;> rfl
  · rw [redirectFront, dropBlanks, isBlank_of_isFiller filler ahead]
    rfl

theorem redirectFront_gap_append {gap : List UInt8} (isGap : IsGap gap) (append : Bool)
    (rest : List UInt8) : redirectFront append (gap ++ rest) = redirectFront append rest :=
  passes_gap (fun _ rest filler => redirectFront_filler filler append rest) isGap rest

private theorem redirectFront_sign {byte : UInt8} (isSign : IsSign byte) (append : Bool)
    (rest : List UInt8) : redirectFront append (byte :: rest) = .missingTarget := by
  apply redirectFront_of_stops
  rw [dropBlanks, isBlank_of_not_isFiller (isFiller_of_isSign isSign)]
  intro first here
  cases here
  exact isWordByte_of_isSign isSign

private theorem front_greater {rest : List UInt8} (ahead : rest.head? ≠ some Byte.greater) :
    front (Byte.greater :: rest) = redirectFront false rest := by
  cases rest with
  | nil => rfl
  | cons byte others =>
      change (if some byte == some Byte.greater then _ else _ : Front) = _
      rw [List.head?_cons] at ahead
      rw [beq_eq_false_iff_ne.mpr ahead]
      rfl

/-! ### Changes -/

def recast (change : List UInt8 → List UInt8) : Token → Token
  | .word bytes => .word (change bytes)
  | .connective join => .connective join
  | .redirect append path => .redirect append (change path)
  | .background => .background

def Front.recast (change : List UInt8 → List UInt8) : Front → Front
  | .token found rest => .token (found.recast change) (change rest)
  | .terminator rest => .terminator (change rest)
  | .exhausted => .exhausted
  | .missingTarget => .missingTarget

/-- A change that touches blanks and words only. A blank that goes away leaves the end of a line in
front, and a word that is changed keeps its text. -/
structure Unseen (change : List UInt8 → List UInt8) : Prop where
  nil : change [] = []
  filler : ∀ byte rest, Byte.isFiller byte = true →
    ∃ gap, IsGap gap ∧ change (byte :: rest) = gap ++ change rest ∧
      (gap = [] → (change rest).head? = some Byte.lineFeed)
  sign : ∀ byte rest, IsSign byte → change (byte :: rest) = byte :: change rest
  word : ∀ word rest, IsWord word → Stops rest → change (word ++ rest) = change word ++ change rest
  isWord : ∀ word, IsWord word → IsWord (change word)
  text : ∀ word, IsWord word → Utf8.text (change word) = Utf8.text word
  line : ∀ inner rest, Byte.lineFeed ∉ inner →
    change (inner ++ Byte.lineFeed :: rest)
      = change (inner ++ [Byte.lineFeed]) ++ change rest

private theorem exists_word_of_solid {byte : UInt8} (solid : Byte.isWordByte byte = true)
    (tail : List UInt8) :
    ∃ word rest, IsWord word ∧ Stops rest ∧ byte :: tail = word ++ rest ∧
      rest.length ≤ tail.length := by
  refine ⟨byte :: tail.takeWhile Byte.isWordByte, tail.dropWhile Byte.isWordByte, ?_,
    stops_dropWhile tail, ?_, length_dropWhile_le _ _⟩
  · exact ⟨List.cons_ne_nil _ _,
      List.forall_mem_cons.mpr ⟨solid, all_takeWhile_isWordByte tail⟩⟩
  · exact congrArg (byte :: ·) List.takeWhile_append_dropWhile.symm

private theorem exists_head_of_isWord {word : List UInt8} (isWord : IsWord word)
    (rest : List UInt8) :
    ∃ byte, (word ++ rest).head? = some byte ∧ Byte.isWordByte byte = true := by
  cases word with
  | nil => exact absurd rfl isWord.1
  | cons byte others => exact ⟨byte, rfl, isWord.2 byte List.mem_cons_self⟩

/-- What holds of nothing and is handed on by a blank, a sign and a word in front holds of all
bytes. -/
@[elab_as_elim]
theorem induction_by_parts {motive : List UInt8 → Prop} (nil : motive [])
    (filler : ∀ byte rest, Byte.isFiller byte = true → motive rest → motive (byte :: rest))
    (sign : ∀ byte rest, IsSign byte → motive rest → motive (byte :: rest))
    (word : ∀ word rest, IsWord word → Stops rest → motive rest → motive (word ++ rest))
    (bytes : List UInt8) : motive bytes := by
  induction length : bytes.length using Nat.strongRecOn generalizing bytes with
  | ind size ih =>
      cases bytes with
      | nil => exact nil
      | cons byte tail =>
          have shorter : tail.length < size := by
            rw [← length]
            exact Nat.lt_succ_self _
          by_cases blank : Byte.isFiller byte = true
          · exact filler byte tail blank (ih _ shorter tail rfl)
          by_cases isSign : IsSign byte
          · exact sign byte tail isSign (ih _ shorter tail rfl)
          · obtain ⟨first, rest, isWord, stops, whole, bound⟩ :=
              exists_word_of_solid (isWordByte_of_plain blank isSign) tail
            rw [whole]
            exact word first rest isWord stops (ih _ (Nat.lt_of_le_of_lt bound shorter) rest rfl)

namespace Unseen

variable {change : List UInt8 → List UInt8} (unseen : Unseen change)

include unseen

/-- A byte that is in front after the change has the look of one that was there before: a test that
no blank and no line feed passes, and either all word bytes or none, cannot tell them apart. -/
theorem head?_fails {test : UInt8 → Bool} (blank : ∀ byte, Byte.isFiller byte = true →
    test byte = false) (lineFeed : test Byte.lineFeed = false)
    (even : ∀ byte other, Byte.isWordByte byte = true → Byte.isWordByte other = true →
      test byte = test other) {bytes : List UInt8}
    (fails : ∀ byte ∈ bytes.head?, test byte = false) :
    ∀ byte ∈ (change bytes).head?, test byte = false := by
  intro first here
  cases bytes using induction_by_parts with
  | nil =>
      rw [unseen.nil] at here
      cases here
  | filler byte rest filler =>
      obtain ⟨gap, isGap, changed, ending⟩ := unseen.filler byte rest filler
      rw [changed] at here
      cases gap with
      | nil =>
          rw [List.nil_append, ending rfl] at here
          cases here
          exact lineFeed
      | cons head others =>
          have also := isGap head List.mem_cons_self
          cases here
          exact blank _ also
  | sign byte rest isSign =>
      rw [unseen.sign byte rest isSign] at here
      exact fails first here
  | word word rest isWord stops =>
      obtain ⟨head, front, solid⟩ := exists_head_of_isWord isWord rest
      obtain ⟨later, changedFront, alsoSolid⟩ :=
        exists_head_of_isWord (unseen.isWord word isWord) (change rest)
      rw [unseen.word word rest isWord stops, changedFront] at here
      cases here
      rw [even _ head alsoSolid solid]
      exact fails head front

theorem stops {bytes : List UInt8} (stops : Stops bytes) : Stops (change bytes) :=
  unseen.head?_fails (fun _ => isWordByte_of_isFiller) rfl
    (fun _ _ solid also => solid.trans also.symm) stops

private theorem head?_ne {sign : UInt8} {bytes : List UInt8}
    (isOperator : Byte.isOperator sign = true)
    (ahead : bytes.head? ≠ some sign) : (change bytes).head? ≠ some sign := by
  have differs : ∀ byte, Byte.isFiller byte = true ∨ Byte.isWordByte byte = true →
      (byte == sign) = false := by
    intro byte kind
    rw [beq_eq_false_iff_ne]
    rintro rfl
    rw [isFiller_of_isSign (Or.inl isOperator), isWordByte_of_isSign (Or.inl isOperator)] at kind
    simp at kind
  have lineFeed : (Byte.lineFeed == sign) = false := by
    rw [beq_eq_false_iff_ne]
    rintro rfl
    cases isOperator
  have even : ∀ byte other, Byte.isWordByte byte = true → Byte.isWordByte other = true →
      (byte == sign) = (other == sign) := by
    intro byte other solid also
    rw [differs byte (Or.inr solid), differs other (Or.inr also)]
  have fails : ∀ byte ∈ bytes.head?, (byte == sign) = false := by
    intro byte here
    rw [beq_eq_false_iff_ne]
    rintro rfl
    exact ahead here
  intro here
  have failed := unseen.head?_fails (fun byte filler => differs byte (Or.inl filler)) lineFeed even
    fails sign here
  rw [beq_self_eq_true] at failed
  cases failed

/-! ### What stands in front of changed bytes -/

theorem redirectFront (append : Bool) (bytes : List UInt8) :
    redirectFront append (change bytes) = (redirectFront append bytes).recast change := by
  induction bytes using induction_by_parts with
  | nil =>
      rw [unseen.nil]
      rfl
  | filler byte rest filler ih =>
      obtain ⟨gap, isGap, changed, _⟩ := unseen.filler byte rest filler
      rw [changed, redirectFront_gap_append isGap, redirectFront_filler filler, ih]
  | sign byte rest isSign =>
      rw [unseen.sign byte rest isSign, redirectFront_sign isSign, redirectFront_sign isSign]
      rfl
  | word word rest isWord stops =>
      have before := redirectFront_path append isGap_nil isWord stops
      have after := redirectFront_path append isGap_nil (unseen.isWord word isWord)
        (unseen.stops stops)
      rw [List.nil_append] at before after
      rw [unseen.word word rest isWord stops, before, after]
      rfl

private theorem front_sign {byte : UInt8} (isSign : IsSign byte) (rest : List UInt8) :
    front (byte :: change rest) = (front (byte :: rest)).recast change := by
  have kept : ∀ {sign : UInt8}, Byte.isOperator sign = true → rest.head? = some sign →
      change rest = sign :: change (rest.drop 1) := by
    intro sign isOperator ahead
    rw [eq_cons_drop_of_head? ahead]
    exact unseen.sign sign _ (Or.inl isOperator)
  rcases isSign_cases isSign with rfl | rfl | rfl | rfl
  · by_cases ahead : rest.head? = some Byte.bar
    · rw [kept rfl ahead, congrArg (Byte.bar :: ·) (eq_cons_drop_of_head? ahead)]
      rfl
    · have apart := unseen.head?_ne rfl ahead
      rw [front_pipe (endsBefore_of_single (fun _ => rfl) ahead),
        front_pipe (endsBefore_of_single (fun _ => rfl) apart)]
      rfl
  · by_cases ahead : rest.head? = some Byte.ampersand
    · rw [kept rfl ahead, congrArg (Byte.ampersand :: ·) (eq_cons_drop_of_head? ahead)]
      rfl
    · have apart := unseen.head?_ne rfl ahead
      rw [front_background (endsBefore_of_single (fun _ => rfl) ahead),
        front_background (endsBefore_of_single (fun _ => rfl) apart)]
      rfl
  · by_cases ahead : rest.head? = some Byte.greater
    · rw [kept rfl ahead, eq_cons_drop_of_head? ahead]
      exact unseen.redirectFront true _
    · rw [front_greater ahead, front_greater (unseen.head?_ne rfl ahead)]
      exact unseen.redirectFront false rest
  · rfl

theorem front (bytes : List UInt8) : front (change bytes) = (front bytes).recast change := by
  induction bytes using induction_by_parts with
  | nil =>
      rw [unseen.nil]
      rfl
  | filler byte rest filler ih =>
      obtain ⟨gap, isGap, changed, _⟩ := unseen.filler byte rest filler
      rw [changed, front_gap_append isGap, front_filler filler, ih]
  | sign byte rest isSign =>
      rw [unseen.sign byte rest isSign]
      exact unseen.front_sign isSign rest
  | word word rest isWord stops =>
      rw [unseen.word word rest isWord stops, front_word isWord stops,
        front_word (unseen.isWord word isWord) (unseen.stops stops)]
      rfl

/-- The tokens correspond one by one, and the fault is the same. -/
theorem scan (bytes : List UInt8) :
    scan (change bytes) = ⟨(scan bytes).tokens.map (recast change), (scan bytes).fault⟩ := by
  induction bytes using induction_by_tokens with
  | handed bytes ih =>
      have corresponds := unseen.front bytes
      cases found : Token.front bytes with
      | token token rest =>
          rw [found] at corresponds
          rw [scan_of_token found, scan_of_token corresponds, ih token rest found]
          rfl
      | terminator rest =>
          rw [found] at corresponds
          rw [scan_of_terminator found, scan_of_terminator corresponds]
          rfl
      | exhausted =>
          rw [found] at corresponds
          rw [scan_of_exhausted found, scan_of_exhausted corresponds]
          rfl
      | missingTarget =>
          rw [found] at corresponds
          rw [scan_of_missingTarget found, scan_of_missingTarget corresponds]
          rfl

/-! ### What is read from changed bytes -/

theorem push (draft : LineDraft) {token : Token} (filled : token.IsFilled) :
    draft.push (token.recast change) = draft.push token := by
  cases token with
  | word bytes =>
      change (Drafting.word (Utf8.text (change bytes))).taken draft
        = (Drafting.word (Utf8.text bytes)).taken draft
      rw [unseen.text bytes filled]
  | connective join => rfl
  | redirect append path =>
      change (Drafting.redirect (target append (change path))).taken draft
        = (Drafting.redirect (target append path)).taken draft
      rw [target, target, unseen.text path filled]
  | background => rfl

theorem foldlM_push {tokens : List Token} (filled : ∀ token ∈ tokens, token.IsFilled)
    (draft : LineDraft) :
    (tokens.map (recast change)).foldlM LineDraft.push draft
      = tokens.foldlM LineDraft.push draft := by
  induction tokens generalizing draft with
  | nil => rfl
  | cons token others ih =>
      obtain ⟨first, later⟩ := List.forall_mem_cons.mp filled
      rw [List.map_cons, List.foldlM_cons, List.foldlM_cons, unseen.push draft first]
      exact congrArg (draft.push token >>= ·) (funext fun next => ih later next)

theorem ofLine (bytes : List UInt8) : Reading.ofLine (change bytes) = Reading.ofLine bytes := by
  have same : CommandLine.parse (change bytes) = CommandLine.parse bytes := by
    rw [CommandLine.parse_eq_judge, CommandLine.parse_eq_judge, unseen.scan, Scan.judge,
      Scan.judge, unseen.foldlM_push filled_of_scan]
  rw [Reading.ofLine, Reading.ofLine, same]

private theorem exists_inner {inner ending : List UInt8} (absent : Byte.lineFeed ∉ inner)
    (closes : ending = [] ∨ ending = [Byte.lineFeed]) :
    ∃ changed, Byte.lineFeed ∉ changed ∧ change (inner ++ ending) = changed ++ ending := by
  have ends : Stops ending := by
    rcases closes with rfl | rfl <;> simp [Stops, Byte.isWordByte]
  have kept : change ending = ending := by
    rcases closes with rfl | rfl
    · exact unseen.nil
    · rw [unseen.sign _ _ (Or.inr rfl), unseen.nil]
  induction inner using induction_by_parts with
  | nil => exact ⟨[], List.not_mem_nil, kept⟩
  | filler byte rest filler ih =>
      obtain ⟨changed, clean, changedEq⟩ := ih (List.not_mem_of_not_mem_cons absent)
      obtain ⟨gap, isGap, gapEq, _⟩ := unseen.filler byte (rest ++ ending) filler
      refine ⟨gap ++ changed, ?_, ?_⟩
      · rw [List.mem_append, not_or]
        exact ⟨lineFeed_not_mem_of_isGap isGap, clean⟩
      · rw [List.cons_append, gapEq, changedEq, List.append_assoc]
  | sign byte rest isSign ih =>
      obtain ⟨changed, clean, changedEq⟩ := ih (List.not_mem_of_not_mem_cons absent)
      refine ⟨byte :: changed, ?_, ?_⟩
      · rw [List.mem_cons, not_or]
        exact ⟨List.ne_of_not_mem_cons absent, clean⟩
      · rw [List.cons_append, unseen.sign byte _ isSign, changedEq, List.cons_append]
  | word word rest isWord stops ih =>
      rw [List.mem_append, not_or] at absent
      obtain ⟨changed, clean, changedEq⟩ := ih absent.2
      have stopped : Stops (rest ++ ending) := by
        cases rest with
        | nil => exact ends
        | cons byte others => exact stops
      refine ⟨change word ++ changed, ?_, ?_⟩
      · rw [List.mem_append, not_or]
        exact ⟨lineFeed_not_mem_of_isWord (unseen.isWord word isWord), clean⟩
      · rw [List.append_assoc, unseen.word word _ isWord stopped, changedEq, List.append_assoc]

/-- The lines of a changed stream are the changed lines. -/
theorem lines (bytes : List UInt8) :
    Stream.lines (change bytes) = (Stream.lines bytes).map change := by
  induction bytes using Stream.induction_by_lines with
  | unterminated inner absent =>
      obtain ⟨changed, clean, changedEq⟩ := unseen.exists_inner absent (Or.inl rfl)
      rw [List.append_nil, List.append_nil] at changedEq
      rw [changedEq, Stream.lines_of_absent clean, Stream.lines_of_absent absent]
      rfl
  | terminated inner rest absent ih =>
      obtain ⟨changed, clean, changedEq⟩ := unseen.exists_inner absent (Or.inr rfl)
      rw [unseen.line inner rest absent, changedEq, List.append_assoc, List.singleton_append,
        Stream.lines_of_line clean, Stream.lines_of_line absent, List.map_cons, changedEq, ih]

theorem readings (bytes : List UInt8) :
    Stream.readings (change bytes) = Stream.readings bytes := by
  rw [Stream.readings, Stream.readings, unseen.lines, List.map_map]
  exact List.map_congr_left fun line _ => unseen.ofLine line

end Unseen

end PipelineShell.Token

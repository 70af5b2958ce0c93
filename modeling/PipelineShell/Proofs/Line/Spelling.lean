import PipelineShell.Proofs.Line.Scanning

/-!
Tokens written out. A line spells a list of tokens if it writes one after the other with any blanks
around them, and with at least one wherever the two would run together. What is spelled is scanned
back to the same tokens, whatever the blanks; a token behind a space each is one way to spell them.
-/

namespace PipelineShell.Token

/-! ### A word in front -/

theorem takeWhile_append_of_stops {word rest : List UInt8}
    (whole : ∀ byte ∈ word, Byte.isWordByte byte = true) (stops : Stops rest) :
    (word ++ rest).takeWhile Byte.isWordByte = word := by
  rw [List.takeWhile_append_of_pos whole]
  cases rest with
  | nil => exact List.append_nil word
  | cons byte others =>
      rw [List.takeWhile_cons_of_neg (Bool.eq_false_iff.mp (stops byte rfl)), List.append_nil]

private theorem dropWhile_append_of_stops {word rest : List UInt8}
    (whole : ∀ byte ∈ word, Byte.isWordByte byte = true) (stops : Stops rest) :
    (word ++ rest).dropWhile Byte.isWordByte = rest := by
  rw [List.dropWhile_append_of_pos whole]
  cases rest with
  | nil => rfl
  | cons byte others =>
      exact List.dropWhile_cons_of_neg (Bool.eq_false_iff.mp (stops byte rfl))

theorem isWordByte_cases {byte : UInt8} (solid : Byte.isWordByte byte = true) :
    Byte.isFiller byte = false ∧ (byte == Byte.lineFeed) = false ∧
      (byte == Byte.carriageReturn) = false ∧ (byte == Byte.bar) = false ∧
      (byte == Byte.ampersand) = false ∧ (byte == Byte.greater) = false := by
  simp only [Byte.isWordByte, Byte.isOperator, Bool.not_eq_true', Bool.or_eq_false_iff] at solid
  obtain ⟨⟨filler, ⟨bar, ampersand⟩, greater⟩, lineFeed⟩ := solid
  refine ⟨filler, lineFeed, ?_, bar, ampersand, greater⟩
  simp only [Byte.isFiller, Bool.or_eq_false_iff] at filler
  exact filler.2

/-! ### Blanks in front -/

theorem lineFeed_not_mem_of_isGap {gap : List UInt8} (isGap : IsGap gap) :
    Byte.lineFeed ∉ gap :=
  fun member => absurd (isGap _ member) (by decide)

private theorem head?_gap_append_ne {gap rest : List UInt8} (isGap : IsGap gap)
    (ahead : rest.head? ≠ some Byte.lineFeed) : (gap ++ rest).head? ≠ some Byte.lineFeed := by
  cases gap with
  | nil => exact ahead
  | cons byte others =>
      intro here
      exact lineFeed_not_mem_of_isGap isGap (List.mem_of_head? here)

theorem dropBlanks_gap_append {gap rest : List UInt8} (isGap : IsGap gap)
    (ahead : rest.head? ≠ some Byte.lineFeed) : dropBlanks (gap ++ rest) = dropBlanks rest := by
  induction gap with
  | nil => rfl
  | cons byte others ih =>
      obtain ⟨filler, later⟩ := List.forall_mem_cons.mp isGap
      rw [List.cons_append, dropBlanks,
        isBlank_of_isFiller filler (head?_gap_append_ne later ahead)]
      exact ih later

theorem front_gap_lineFeed {gap : List UInt8} (isGap : IsGap gap) (rest : List UInt8) :
    front (gap ++ Byte.lineFeed :: rest) = .terminator rest := by
  induction gap with
  | nil => rfl
  | cons byte others ih =>
      obtain ⟨filler, later⟩ := List.forall_mem_cons.mp isGap
      cases others with
      | nil =>
          rcases isFiller_cases filler with rfl | rfl | rfl <;> rfl
      | cons next more =>
          have ahead : (next :: more ++ Byte.lineFeed :: rest).head? ≠ some Byte.lineFeed := by
            intro here
            cases here
            exact lineFeed_not_mem_of_isGap later List.mem_cons_self
          rw [front, List.cons_append, dropBlanks, isBlank_of_isFiller filler ahead]
          exact ih later

/-! ### A token in front -/

private theorem continues_of_isFiller (token : Token) {byte : UInt8}
    (filler : Byte.isFiller byte = true) :
    token.continues byte = false := by
  have notWord : Byte.isWordByte byte = false := by simp [Byte.isWordByte, filler]
  cases token with
  | word bytes => exact notWord
  | connective join => cases join <;> rcases isFiller_cases filler with rfl | rfl | rfl <;> rfl
  | redirect append path => exact notWord
  | background => rcases isFiller_cases filler with rfl | rfl | rfl <;> rfl

private theorem continues_lineFeed (token : Token) : token.continues Byte.lineFeed = false := by
  cases token with
  | connective join => cases join <;> rfl
  | _ => rfl

private theorem dropBlanks_of_isWord {word : List UInt8} (isWord : IsWord word)
    (rest : List UInt8) :
    dropBlanks (word ++ rest) = word ++ rest := by
  cases word with
  | nil => exact absurd rfl isWord.1
  | cons byte others =>
      have solid := (isWordByte_cases (isWord.2 byte List.mem_cons_self)).1
      rw [List.cons_append, dropBlanks, isBlank_of_not_isFiller solid]
      rfl

theorem front_word {word rest : List UInt8} (isWord : IsWord word) (stops : Stops rest) :
    front (word ++ rest) = .token (.word word) rest := by
  rw [front, dropBlanks_of_isWord isWord]
  cases word with
  | nil => exact absurd rfl isWord.1
  | cons byte others =>
      obtain ⟨_, lineFeed, carriageReturn, bar, ampersand, greater⟩ :=
        isWordByte_cases (isWord.2 byte List.mem_cons_self)
      have whole : ∀ other ∈ others, Byte.isWordByte other = true :=
        fun other member => isWord.2 other (List.mem_cons_of_mem _ member)
      rw [List.cons_append, frontOfUnblank, lineFeed, carriageReturn, bar, ampersand, greater,
        takeWhile_append_of_stops whole stops, dropWhile_append_of_stops whole stops]
      rfl

theorem front_pipe {rest : List UInt8} (ends : EndsBefore (.connective .pipe) rest) :
    front (Byte.bar :: rest) = .token (.connective .pipe) rest := by
  cases rest with
  | nil => rfl
  | cons byte others =>
      change (if some byte == some Byte.bar then _ else _ : Front) = _
      rw [Option.some_beq_some, show (byte == Byte.bar) = false from ends byte rfl]
      rfl

theorem front_background {rest : List UInt8} (ends : EndsBefore .background rest) :
    front (Byte.ampersand :: rest) = .token .background rest := by
  cases rest with
  | nil => rfl
  | cons byte others =>
      change (if some byte == some Byte.ampersand then _ else _ : Front) = _
      rw [Option.some_beq_some, show (byte == Byte.ampersand) = false from ends byte rfl]
      rfl

private theorem head?_gap_append_path {gap path : List UInt8} (isGap : IsGap gap)
    (isWord : IsWord path)
    (rest : List UInt8) :
    ∃ byte others, gap ++ (path ++ rest) = byte :: others ∧ byte ≠ Byte.lineFeed ∧
      (byte == Byte.greater) = false := by
  cases gap with
  | nil =>
      cases path with
      | nil => exact absurd rfl isWord.1
      | cons byte others =>
          obtain ⟨_, lineFeed, _, _, _, greater⟩ :=
            isWordByte_cases (isWord.2 byte List.mem_cons_self)
          exact ⟨byte, others ++ rest, rfl, ne_of_beq_false lineFeed, greater⟩
  | cons byte others =>
      have filler := isGap byte List.mem_cons_self
      refine ⟨byte, others ++ (path ++ rest), rfl, ?_, ?_⟩
      · rintro rfl
        exact absurd filler (by decide)
      · rcases isFiller_cases filler with rfl | rfl | rfl <;> rfl

theorem redirectFront_path {gap path rest : List UInt8} (append : Bool) (isGap : IsGap gap)
    (isWord : IsWord path) (stops : Stops rest) :
    redirectFront append (gap ++ (path ++ rest)) = .token (.redirect append path) rest := by
  obtain ⟨byte, others, whole, notLineFeed, _⟩ := head?_gap_append_path isGap_nil isWord rest
  have ahead : (path ++ rest).head? ≠ some Byte.lineFeed := by
    rw [← List.nil_append (path ++ rest), whole]
    exact fun here => notLineFeed (Option.some.inj here)
  rw [redirectFront, dropBlanks_gap_append isGap ahead, dropBlanks_of_isWord isWord,
    takeWhile_append_of_stops isWord.2 stops, dropWhile_append_of_stops isWord.2 stops]
  cases path with
  | nil => exact absurd rfl isWord.1
  | cons first more => rfl

private theorem front_redirect {gap path rest : List UInt8} (append : Bool) (isGap : IsGap gap)
    (isWord : IsWord path) (stops : Stops rest) :
    front (sign append ++ (gap ++ (path ++ rest))) = .token (.redirect append path) rest := by
  have found := redirectFront_path append isGap isWord stops
  cases append with
  | true => exact found
  | false =>
      obtain ⟨byte, others, whole, _, notSign⟩ := head?_gap_append_path isGap isWord rest
      rw [whole] at found ⊢
      change (if some byte == some Byte.greater then _ else _ : Front) = _
      rw [Option.some_beq_some, notSign]
      exact found

private theorem front_of_isWritten {token : Token} {bytes rest : List UInt8}
    (filled : token.IsFilled)
    (written : IsWritten token bytes) (ends : token.EndsBefore rest) :
    front (bytes ++ rest) = .token token rest := by
  cases written with
  | word => exact front_word filled ends
  | pipe => exact front_pipe ends
  | and => rfl
  | or => rfl
  | redirect append path isGap =>
      rw [List.append_assoc, List.append_assoc]
      exact front_redirect append isGap filled ends
  | background => exact front_background ends

/-! ### Tokens one behind another -/

/-- Whether the second of two tokens would run into the first one if no blank stood between. -/
def needsGap : Token → Token → Bool
  | .word _, .word _ => true
  | .redirect _ _, .word _ => true
  | .connective .pipe, .connective .pipe => true
  | .connective .pipe, .connective .or => true
  | .background, .background => true
  | .background, .connective .and => true
  | _, _ => false

/-- The line writes the tokens with any blanks before and between them and before its line feed;
there is a blank wherever two tokens would run together, the first of them with the one before. -/
inductive Spells : Option Token → List Token → List UInt8 → Prop
  | last {before : Option Token} {gap : List UInt8} (isGap : IsGap gap) :
      Spells before [] (gap ++ [Byte.lineFeed])
  | next {before : Option Token} {token : Token} {tokens : List Token}
      {gap bytes rest : List UInt8} (isGap : IsGap gap)
      (apart : ∀ earlier ∈ before, earlier.needsGap token = true → gap ≠ [])
      (written : IsWritten token bytes) (later : Spells (some token) tokens rest) :
      Spells before (token :: tokens) (gap ++ (bytes ++ rest))

/-- The first byte of a token tells whether the one before would run into it. -/
theorem exists_head_of_isWritten {token : Token} {bytes : List UInt8} (filled : token.IsFilled)
    (written : IsWritten token bytes) :
    ∃ byte others, bytes = byte :: others ∧ byte ≠ Byte.lineFeed ∧
      ∀ earlier : Token, earlier.continues byte = earlier.needsGap token := by
  cases written with
  | word =>
      cases bytes with
      | nil => exact absurd rfl filled.1
      | cons byte others =>
          have solid := filled.2 byte List.mem_cons_self
          obtain ⟨_, lineFeed, _, bar, ampersand, _⟩ := isWordByte_cases solid
          refine ⟨byte, others, rfl, ne_of_beq_false lineFeed, ?_⟩
          intro earlier
          cases earlier with
          | word word => exact solid
          | connective join => cases join <;> first | rfl | exact bar
          | redirect append path => exact solid
          | background => exact ampersand
  | redirect append path isGap =>
      cases append <;> refine ⟨Byte.greater, _, rfl, by decide, ?_⟩ <;>
        rintro (_ | (_ | _ | _) | _ | _) <;> rfl
  | _ =>
      refine ⟨_, _, rfl, by decide, ?_⟩
      rintro (_ | (_ | _ | _) | _ | _) <;> rfl

theorem Spells.endsBefore {before : Token} {tokens : List Token} {line : List UInt8}
    (spells : Spells (some before) tokens line) (filled : ∀ token ∈ tokens, token.IsFilled) :
    before.EndsBefore line := by
  intro first here
  cases spells with
  | @last _ gap isGap =>
      cases gap with
      | nil =>
          cases here
          exact before.continues_lineFeed
      | cons byte others =>
          cases here
          exact before.continues_of_isFiller (isGap first List.mem_cons_self)
  | @next _ token _ gap _ _ isGap apart written later =>
      cases gap with
      | nil =>
          obtain ⟨byte, others, bytesEq, _, same⟩ :=
            exists_head_of_isWritten (filled token List.mem_cons_self) written
          rw [bytesEq] at here
          cases here
          rw [same, Bool.eq_false_iff]
          exact fun needed => apart before rfl needed rfl
      | cons byte others =>
          cases here
          exact before.continues_of_isFiller (isGap first List.mem_cons_self)

inductive Yields : List UInt8 → List Token → List UInt8 → Prop
  | nothing (bytes : List UInt8) : Yields bytes [] bytes
  | token {bytes middle rest : List UInt8} {token : Token} {tokens : List Token}
      (found : front bytes = .token token middle) (later : Yields middle tokens rest) :
      Yields bytes (token :: tokens) rest

private theorem scan_of_yields {bytes rest : List UInt8} {tokens : List Token}
    (yields : Yields bytes tokens rest) (ended : front rest = .terminator []) :
    scan bytes = ⟨tokens, none⟩ := by
  induction yields with
  | nothing bytes => exact scan_of_terminator ended
  | token found later ih => rw [scan_of_token found, ih ended]

/-- Each token that is spelled is taken from the front, and then the end of the line. -/
theorem Spells.yields {before : Option Token} {tokens : List Token} {line : List UInt8}
    (spells : Spells before tokens line) (filled : ∀ token ∈ tokens, token.IsFilled) :
    ∃ rest, Yields line tokens rest ∧ front rest = .terminator [] := by
  induction spells with
  | last isGap => exact ⟨_, .nothing _, front_gap_lineFeed isGap []⟩
  | @next _ token tokens gap bytes rest isGap apart written later ih =>
      obtain ⟨first, others⟩ := List.forall_mem_cons.mp filled
      obtain ⟨byte, more, bytesEq, notLineFeed, _⟩ := exists_head_of_isWritten first written
      have ahead : (bytes ++ rest).head? ≠ some Byte.lineFeed := by
        rw [bytesEq]
        exact fun here => notLineFeed (Option.some.inj here)
      have found : front (gap ++ (bytes ++ rest)) = .token token rest := by
        rw [front, dropBlanks_gap_append isGap ahead]
        exact front_of_isWritten first written (later.endsBefore others)
      obtain ⟨ending, yields, ended⟩ := ih others
      exact ⟨ending, .token found yields, ended⟩

theorem scan_of_spells {before : Option Token} {tokens : List Token} {line : List UInt8}
    (spells : Spells before tokens line) (filled : ∀ token ∈ tokens, token.IsFilled) :
    scan line = ⟨tokens, none⟩ := by
  obtain ⟨rest, yields, ended⟩ := spells.yields filled
  exact scan_of_yields yields ended

/-! ### Tokens behind spaces -/

def spell : Token → List UInt8
  | .word bytes => bytes
  | .connective .pipe => [Byte.bar]
  | .connective .and => [Byte.ampersand, Byte.ampersand]
  | .connective .or => [Byte.bar, Byte.bar]
  | .redirect false path => Byte.greater :: Byte.space :: path
  | .redirect true path => Byte.greater :: Byte.greater :: Byte.space :: path
  | .background => [Byte.ampersand]

/-- Tokens as they are written, each behind a space. -/
def spellAll (tokens : List Token) : List UInt8 :=
  tokens.flatMap fun token => Byte.space :: token.spell

theorem spellAll_append (tokens more : List Token) :
    spellAll (tokens ++ more) = spellAll tokens ++ spellAll more :=
  List.flatMap_append

theorem lineFeed_not_mem_of_isWord {bytes : List UInt8} (isWord : IsWord bytes) :
    Byte.lineFeed ∉ bytes := by
  intro member
  have solid := isWord.2 _ member
  cases solid

theorem lineFeed_not_mem_of_isWritten {token : Token} {bytes : List UInt8}
    (filled : token.IsFilled) (written : IsWritten token bytes) : Byte.lineFeed ∉ bytes := by
  cases written with
  | word => exact lineFeed_not_mem_of_isWord filled
  | redirect append path isGap =>
      have inPath := lineFeed_not_mem_of_isWord filled
      have inGap := lineFeed_not_mem_of_isGap isGap
      have inSign : Byte.lineFeed ∉ sign append := by cases append <;> decide
      simp [inPath, inGap, inSign]
  | _ => decide

theorem isGap_space : IsGap [Byte.space] := by
  decide

private theorem isWritten_spell (token : Token) : IsWritten token token.spell := by
  cases token with
  | word bytes => exact .word bytes
  | connective join =>
      cases join with
      | pipe => exact .pipe
      | and => exact .and
      | or => exact .or
  | redirect append path => cases append <;> exact .redirect _ path isGap_space
  | background => exact .background

theorem lineFeed_not_mem_spellAll {tokens : List Token}
    (filled : ∀ token ∈ tokens, token.IsFilled) : Byte.lineFeed ∉ spellAll tokens := by
  intro member
  obtain ⟨token, inTokens, inSpelling⟩ := List.mem_flatMap.mp member
  rcases List.mem_cons.mp inSpelling with here | inToken
  · cases here
  · exact lineFeed_not_mem_of_isWritten (filled token inTokens) token.isWritten_spell inToken

theorem scan_space (rest : List UInt8) : scan (Byte.space :: rest) = scan rest := by
  have same : front (Byte.space :: rest) = front rest := rfl
  rw [scan, scan, scanBehind, scanBehind, same]

private theorem spells_spellAll (before : Option Token) (tokens : List Token) :
    Spells before tokens (spellAll tokens ++ [Byte.lineFeed]) := by
  induction tokens generalizing before with
  | nil => exact .last isGap_nil
  | cons token others ih =>
      have whole : spellAll (token :: others) ++ [Byte.lineFeed]
          = [Byte.space] ++ (token.spell ++ (spellAll others ++ [Byte.lineFeed])) := by
        simp [spellAll]
      rw [whole]
      exact .next isGap_space (fun _ _ _ => List.cons_ne_nil _ _) token.isWritten_spell
        (ih (some token))

theorem scan_spellAll {tokens : List Token} (filled : ∀ token ∈ tokens, token.IsFilled) :
    scan (spellAll tokens ++ [Byte.lineFeed]) = ⟨tokens, none⟩ :=
  scan_of_spells (spells_spellAll none tokens) filled

end PipelineShell.Token

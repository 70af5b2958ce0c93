import PipelineShell.Proofs.Line.Calls
import PipelineShell.Proofs.Line.Grammar
import PipelineShell.Proofs.Line.Scanning
import PipelineShell.Proofs.Text.Decoding

/-!
Drafts against the grammar. A draft that tokens lead to is described by those tokens: commands
that a connective closes, the words of an open command, and what modifies the line. From the
description it follows which tokens a draft takes and which fault it reports for the others.
-/

namespace PipelineShell

namespace Grammar

inductive IsClosed : List Token → List Item → Prop where
  | nil : IsClosed [] []
  | snoc {tokens more : List Token} {items : List Item} {step : Command}
      (before : IsClosed tokens items) (command : IsCommand more step) (join : Connective) :
      IsClosed (tokens ++ more ++ [.connective join])
        (items ++ [.command step, .connective join])

inductive IsModifier : List Token → Option Output → Bool → Prop where
  | absent : IsModifier [] none false
  | redirection (append : Bool) (path : List UInt8) :
      IsModifier [.redirect append path] (some (Token.target append path)) false
  | mark : IsModifier [.background] none true
  | both (append : Bool) (path : List UInt8) :
      IsModifier [.redirect append path, .background] (some (Token.target append path)) true

end Grammar

namespace LineDraft

open Grammar

/-- The draft is what the tokens lead to: either a command is due, or one is open. -/
inductive Reads : List Token → LineDraft → Prop where
  | between {tokens : List Token} {closed : List Item} (front : IsClosed tokens closed.reverse) :
      Reads tokens ⟨closed, [], none, false⟩
  | inside {tokens modifiers : List Token} {closed : List Item} {words : List (List UInt8)}
      {output : Option Output} {background : Bool} (front : IsClosed tokens closed.reverse)
      (filled : words ≠ []) (modified : IsModifier modifiers output background) :
      Reads (tokens ++ words.map Token.word ++ modifiers)
        ⟨closed, (words.map Utf8.text).reverse, output, background⟩

theorem isCommand_of_words {words : List (List UInt8)} (filled : words ≠ []) :
    IsCommand (words.map Token.word) (.ofWords (words.map Utf8.text)) := by
  cases words with
  | nil => exact absurd rfl filled
  | cons first others => exact .ofWords first others

private theorem exists_words_of_isCommand {tokens : List Token} {step : Command}
    (command : IsCommand tokens step) :
    ∃ words, words ≠ [] ∧ tokens = words.map Token.word ∧
      step = .ofWords (words.map Utf8.text) := by
  cases command with
  | ofWords first others => exact ⟨first :: others, List.cons_ne_nil _ _, rfl, rfl⟩

/-! ### What the tokens say about their draft -/

private theorem any_words_of_not_word {question : Token → Bool}
    (denied : ∀ bytes, question (.word bytes) = false) (words : List (List UInt8)) :
    (words.map Token.word).any question = false := by
  induction words with
  | nil => rfl
  | cons first others ih => rw [List.map_cons, List.any_cons, denied, ih, Bool.or_false]

private theorem any_isWord_words {words : List (List UInt8)} (filled : words ≠ []) :
    (words.map Token.word).any Token.isWord = true := by
  cases words with
  | nil => exact absurd rfl filled
  | cons first others => rfl

theorem endsInConnective_append {tokens more : List Token} (filled : more ≠ []) :
    endsInConnective (tokens ++ more) = endsInConnective more := by
  rw [endsInConnective, endsInConnective, List.getLast?_append,
    List.getLast?_eq_some_getLast filled]
  rfl

private theorem endsInConnective_words (words : List (List UInt8)) :
    endsInConnective (words.map Token.word) = false := by
  rw [endsInConnective, List.getLast?_map]
  cases words.getLast? <;> rfl

private theorem isClosed_cases {tokens : List Token} {items : List Item}
    (front : IsClosed tokens items) :
    tokens.any Token.isBackground = false ∧ tokens.any Token.isRedirect = false ∧
      tokens.any Token.isWord = !items.isEmpty ∧ endsInConnective tokens = !items.isEmpty := by
  induction front with
  | nil => exact ⟨rfl, rfl, rfl, rfl⟩
  | snoc before command join ih =>
      obtain ⟨words, filled, tokensEq, -⟩ := exists_words_of_isCommand command
      obtain ⟨noMark, noRedirection, -, -⟩ := ih
      subst tokensEq
      refine ⟨?_, ?_, ?_, ?_⟩
      · rw [List.any_append, List.any_append, noMark, any_words_of_not_word fun _ => rfl]
        rfl
      · rw [List.any_append, List.any_append, noRedirection, any_words_of_not_word fun _ => rfl]
        rfl
      · rw [List.any_append, List.any_append, any_isWord_words filled]
        simp
      · rw [endsInConnective_append (List.cons_ne_nil _ _)]
        simp [endsInConnective, Token.isConnective]

/-- The questions that faults depend on, answered by the draft. -/
structure Agrees (before : List Token) (draft : LineDraft) : Prop where
  marked : before.any Token.isBackground = draft.background
  redirected : before.any Token.isRedirect = draft.output.isSome
  worded : before.any Token.isWord = !(draft.words.isEmpty && draft.closed.isEmpty)
  joined : endsInConnective before = (draft.words.isEmpty && !draft.closed.isEmpty)
  operand : draft.isSealed = true → draft.words.isEmpty = false

theorem Reads.agrees {before : List Token} {draft : LineDraft} (reads : Reads before draft) :
    Agrees before draft := by
  cases reads with
  | between front =>
      obtain ⟨noMark, noRedirection, worded, joined⟩ := isClosed_cases front
      rw [List.isEmpty_reverse] at worded joined
      exact ⟨noMark, noRedirection, worded, joined, fun impossible => nomatch impossible⟩
  | @inside tokens modifiers closed words output background front filled modified =>
      obtain ⟨noMark, noRedirection, -, -⟩ := isClosed_cases front
      have open_ : (words.map Utf8.text).reverse.isEmpty = false := by
        simp [filled]
      refine ⟨?_, ?_, ?_, ?_, fun _sealed => open_⟩
      · rw [List.any_append, List.any_append, noMark, any_words_of_not_word fun _ => rfl]
        cases modified <;> rfl
      · rw [List.any_append, List.any_append, noRedirection, any_words_of_not_word fun _ => rfl]
        cases modified <;> rfl
      · rw [List.any_append, List.any_append, any_isWord_words filled, open_]
        simp
      · rw [open_, List.append_assoc, endsInConnective_append (by simp [filled])]
        cases modified with
        | absent => rw [List.append_nil, endsInConnective_words, Bool.false_and]
        | redirection append path => simp [endsInConnective, Token.isConnective]
        | mark => simp [endsInConnective, Token.isConnective]
        | both append path => simp [endsInConnective, Token.isConnective]

/-! ### What a draft makes of a token -/

theorem Agrees.leftOperandFault_eq {before : List Token} {draft : LineDraft}
    (agrees : Agrees before draft) :
    draft.leftOperandFault
      = if !before.any Token.isWord then some .noLeftOperand
        else if endsInConnective before then some .noOperandBetween
        else none := by
  rw [agrees.worded, agrees.joined, leftOperandFault]
  cases draft.words <;> cases draft.closed <;> rfl

theorem Agrees.isClosedTo_eq {before : List Token} {draft : LineDraft}
    (agrees : Agrees before draft) {token : Token} (other : token.isBackground = false) :
    isClosedTo before token = draft.isSealed := by
  rw [isClosedTo, agrees.marked, agrees.redirected, other, Bool.not_false, Bool.and_true,
    isSealed, Bool.or_comm]

theorem Agrees.isClosedTo_background {before : List Token} {draft : LineDraft}
    (agrees : Agrees before draft) : isClosedTo before .background = draft.background := by
  rw [isClosedTo, agrees.marked]
  exact (congrArg _ (Bool.and_false _)).trans (Bool.or_false _)

theorem guarded_error_iff {closedTo : Bool} {missing : Option LineFault} {next : LineDraft}
    {fault : LineFault} :
    (if closedTo then .error .tokenAfterModifier
      else match missing with
        | some cause => .error cause
        | none => .ok next : Except LineFault LineDraft) = .error fault
      ↔ (if closedTo then some .tokenAfterModifier else missing) = some fault := by
  cases closedTo <;> cases missing <;> simp

/-- A draft refuses a token with the fault that the tokens before it make of it. -/
theorem Reads.push_error_iff {before : List Token} {draft : LineDraft}
    (reads : Reads before draft) {token : Token} (filled : token.IsFilled) (fault : LineFault) :
    draft.push token = .error fault ↔ faultOf before token = some fault := by
  have agrees := reads.agrees
  cases token with
  | word bytes =>
      have written : Utf8.text bytes ≠ "" := Utf8.text_ne_empty filled.1
      rw [faultOf, agrees.isClosedTo_eq rfl, push, Drafting.push, Drafting.taken_word,
        if_neg written]
      cases draft.isSealed <;> simp [Token.isWord]
  | connective join =>
      rw [faultOf, agrees.isClosedTo_eq rfl, ← agrees.leftOperandFault_eq, push, Drafting.push,
        Drafting.taken_connective]
      exact guarded_error_iff
  | redirect append path =>
      rw [faultOf, agrees.isClosedTo_eq rfl, ← agrees.leftOperandFault_eq, push, Drafting.push,
        Drafting.taken_redirect]
      exact guarded_error_iff
  | background =>
      rw [faultOf, agrees.isClosedTo_background, ← agrees.leftOperandFault_eq, push, Drafting.push,
        Drafting.taken_markBackground]
      exact guarded_error_iff

theorem Reads.ofWords {tokens : List Token} {closed : List Item} {words : List (List UInt8)}
    (front : IsClosed tokens closed.reverse) (filled : words ≠ []) :
    Reads (tokens ++ words.map Token.word)
      ⟨closed, (words.map Utf8.text).reverse, none, false⟩ := by
  have reads := Reads.inside front filled .absent
  rw [List.append_nil] at reads
  exact reads

private theorem push_word {bytes : List UInt8} (filled : bytes ≠ []) (closed : List Item)
    (words : List String) :
    push ⟨closed, words, none, false⟩ (.word bytes)
      = .ok ⟨closed, Utf8.text bytes :: words, none, false⟩ := by
  rw [push, Drafting.push, Drafting.taken_word, if_neg (Utf8.text_ne_empty filled)]
  rfl

private theorem leftOperandFault_of_words {draft : LineDraft} (filled : draft.words ≠ []) :
    draft.leftOperandFault = none := by
  rw [leftOperandFault]
  cases given : draft.words with
  | nil => exact absurd given filled
  | cons last others => rfl

private theorem push_connective {words : List String} (filled : words ≠ []) (closed : List Item)
    (join : Connective) :
    push ⟨closed, words, none, false⟩ (.connective join)
      = .ok ⟨.connective join :: .command (.ofWords words.reverse) :: closed, [], none, false⟩ := by
  rw [push, Drafting.push, Drafting.taken_connective, leftOperandFault_of_words filled]
  rfl

private theorem push_redirect {words : List String} (filled : words ≠ []) (closed : List Item)
    (append : Bool) (path : List UInt8) :
    push ⟨closed, words, none, false⟩ (.redirect append path)
      = .ok ⟨closed, words, some (Token.target append path), false⟩ := by
  rw [push, Drafting.push, Drafting.taken_redirect, leftOperandFault_of_words filled]
  rfl

private theorem push_background {words : List String} (filled : words ≠ []) (closed : List Item)
    (output : Option Output) :
    push ⟨closed, words, output, false⟩ .background = .ok ⟨closed, words, output, true⟩ := by
  rw [push, Drafting.push, Drafting.taken_markBackground, leftOperandFault_of_words filled]
  rfl

private theorem push_of_sealed {draft next : LineDraft} {token : Token}
    (closedTo : draft.isSealed = true)
    (other : token.isBackground = false) (pushed : draft.push token = .ok next) : False := by
  cases token with
  | word bytes =>
      rw [push, Drafting.push, Drafting.taken_word, if_pos closedTo] at pushed
      cases pushed
  | connective join =>
      rw [push, Drafting.push, Drafting.taken_connective, if_pos closedTo] at pushed
      cases pushed
  | redirect append path =>
      rw [push, Drafting.push, Drafting.taken_redirect, if_pos closedTo] at pushed
      cases pushed
  | background => cases other

theorem Reads.push_ok {before : List Token} {draft next : LineDraft}
    (reads : Reads before draft) {token : Token} (filled : token.IsFilled)
    (pushed : draft.push token = .ok next) : Reads (before ++ [token]) next := by
  cases reads with
  | @between _ closed front =>
      cases token with
      | word bytes =>
          rw [push_word filled.1] at pushed
          cases pushed
          exact .ofWords front (List.cons_ne_nil bytes [])
      | connective join => cases closed <;> cases pushed
      | redirect append path => cases closed <;> cases pushed
      | background => cases closed <;> cases pushed
  | @inside tokens modifiers closed words output background front some modified =>
      have given : (words.map Utf8.text).reverse ≠ [] := by
        simp [some]
      cases modified with
      | absent =>
          rw [List.append_nil]
          cases token with
          | word bytes =>
              rw [push_word filled.1] at pushed
              cases pushed
              have reads := Reads.ofWords front (List.append_ne_nil_of_left_ne_nil some [bytes])
              rw [List.map_append, List.map_append, List.reverse_append, ← List.append_assoc]
                at reads
              exact reads
          | connective join =>
              rw [push_connective given] at pushed
              cases pushed
              apply Reads.between
              rw [List.reverse_reverse, List.reverse_cons, List.reverse_cons,
                List.append_assoc closed.reverse]
              exact .snoc front (isCommand_of_words some) join
          | redirect append path =>
              rw [push_redirect given] at pushed
              cases pushed
              exact .inside front some (.redirection append path)
          | background =>
              rw [push_background given] at pushed
              cases pushed
              exact .inside front some .mark
      | redirection append path =>
          cases token with
          | background =>
              rw [push_background given] at pushed
              cases pushed
              rw [List.append_assoc]
              exact .inside front some (.both append path)
          | _ => exact (push_of_sealed rfl rfl pushed).elim
      | mark =>
          cases token with
          | background => cases pushed
          | _ => exact (push_of_sealed rfl rfl pushed).elim
      | both append path =>
          cases token with
          | background => cases pushed
          | _ => exact (push_of_sealed rfl rfl pushed).elim

/-! ### What a draft makes of many tokens -/

private theorem reads_empty : Reads [] .empty :=
  .between .nil

/-- Pushing tokens one after another: either none of them makes a fault, and they describe the
draft they lead to, or the leftmost fault is the one reported. -/
theorem Reads.pushAll {before : List Token} {draft : LineDraft} (reads : Reads before draft)
    (intact : Faultless before) (tokens : List Token) (filled : ∀ token ∈ tokens, token.IsFilled) :
    (∃ next, tokens.foldlM push draft = .ok next ∧ Reads (before ++ tokens) next ∧
      Faultless (before ++ tokens)) ∨
    ∃ front token after fault, tokens = front ++ token :: after ∧ Faultless (before ++ front) ∧
      faultOf (before ++ front) token = some fault ∧ tokens.foldlM push draft = .error fault := by
  induction tokens generalizing before draft with
  | nil =>
      left
      rw [List.append_nil]
      exact ⟨draft, rfl, reads, intact⟩
  | cons token later ih =>
      have filledHere := filled token List.mem_cons_self
      cases pushed : draft.push token with
      | error fault =>
          right
          have faulty := (reads.push_error_iff filledHere fault).mp pushed
          refine ⟨[], token, later, fault, rfl, ?_, ?_, ?_⟩
          · rw [List.append_nil]
            exact intact
          · rw [List.append_nil]
            exact faulty
          · rw [List.foldlM_cons, pushed]
            rfl
      | ok next =>
          have fine : faultOf before token = none := by
            cases made : faultOf before token with
            | none => rfl
            | some fault =>
                rw [(reads.push_error_iff filledHere fault).mpr made] at pushed
                cases pushed
          have stepEq : (token :: later).foldlM push draft = later.foldlM push next := by
            rw [List.foldlM_cons, pushed]
            rfl
          have wholeEq : ∀ more, before ++ token :: more = before ++ [token] ++ more := by
            intro more
            rw [List.append_assoc]
            rfl
          rw [stepEq, wholeEq]
          rcases ih (reads.push_ok filledHere pushed) (intact.snoc fine)
              (fun other member => filled other (List.mem_cons_of_mem _ member)) with
            taken | ⟨front, other, after, fault, split, fineFront, faulty, refused⟩
          · exact Or.inl taken
          · right
            refine ⟨token :: front, other, after, fault, by rw [split]; rfl, ?_, ?_, refused⟩
            · rw [wholeEq]
              exact fineFront
            · rw [wholeEq]
              exact faulty

theorem foldlM_push_cases (tokens : List Token) (filled : ∀ token ∈ tokens, token.IsFilled) :
    (∃ draft, tokens.foldlM push .empty = .ok draft ∧ Reads tokens draft ∧ Faultless tokens) ∨
    ∃ front token after fault, tokens = front ++ token :: after ∧ Faultless front ∧
      faultOf front token = some fault ∧ tokens.foldlM push .empty = .error fault := by
  have cases := reads_empty.pushAll faultless_nil tokens filled
  simp only [List.nil_append] at cases
  exact cases

private theorem foldlM_push_words (words : List (List UInt8)) (closed : List Item)
    (taken : List String)
    (filled : ∀ bytes ∈ words, bytes ≠ []) :
    (words.map Token.word).foldlM push ⟨closed, taken, none, false⟩
      = .ok ⟨closed, (words.map Utf8.text).reverse ++ taken, none, false⟩ := by
  induction words generalizing taken with
  | nil => rfl
  | cons bytes others ih =>
      rw [List.map_cons, List.foldlM_cons, push_word (filled bytes List.mem_cons_self)]
      have later := ih (Utf8.text bytes :: taken)
        fun other member => filled other (List.mem_cons_of_mem _ member)
      rw [List.map_cons, List.reverse_cons, List.append_assoc]
      exact later

private theorem filled_words {words : List (List UInt8)}
    (filled : ∀ token ∈ words.map Token.word, token.IsFilled) : ∀ bytes ∈ words, bytes ≠ [] :=
  fun bytes member => (filled (.word bytes) (List.mem_map_of_mem member)).1

private theorem foldlM_push_of_isClosed {tokens : List Token} {items : List Item}
    (front : IsClosed tokens items) (filled : ∀ token ∈ tokens, token.IsFilled) :
    tokens.foldlM push .empty = .ok ⟨items.reverse, [], none, false⟩ := by
  induction front with
  | nil => rfl
  | snoc before command join ih =>
      obtain ⟨words, some, tokensEq, stepEq⟩ := exists_words_of_isCommand command
      subst tokensEq stepEq
      have first := ih fun token member =>
        filled token (List.mem_append_left _ (List.mem_append_left _ member))
      have given : (words.map Utf8.text).reverse ≠ [] := by
        simp [some]
      rw [List.foldlM_append, List.foldlM_append, first]
      change ((words.map Token.word).foldlM push _ >>= _) = _
      rw [foldlM_push_words words _ [] (filled_words fun token member =>
        filled token (List.mem_append_left _ (List.mem_append_right _ member))), List.append_nil]
      change ([Token.connective join].foldlM push _) = _
      rw [List.foldlM_cons, push_connective given, List.reverse_reverse, List.reverse_append]
      rfl

/-- Each description is the one of a draft: the tokens lead to it. -/
theorem Reads.foldlM_push {tokens : List Token} {draft : LineDraft} (reads : Reads tokens draft)
    (filled : ∀ token ∈ tokens, token.IsFilled) :
    tokens.foldlM push .empty = .ok draft := by
  cases reads with
  | between front =>
      rw [foldlM_push_of_isClosed front filled, List.reverse_reverse]
  | @inside tokens modifiers closed words output background front some modified =>
      have given : (words.map Utf8.text).reverse ≠ [] := by
        simp [some]
      have toWords : (tokens ++ words.map Token.word).foldlM push .empty
          = .ok ⟨closed, (words.map Utf8.text).reverse, none, false⟩ := by
        rw [List.foldlM_append, foldlM_push_of_isClosed front fun token member =>
          filled token (List.mem_append_left _ (List.mem_append_left _ member)),
          List.reverse_reverse]
        change (words.map Token.word).foldlM push _ = _
        rw [foldlM_push_words words _ [] (filled_words fun token member =>
          filled token (List.mem_append_left _ (List.mem_append_right _ member))),
          List.append_nil]
      rw [List.foldlM_append, toWords]
      change modifiers.foldlM push _ = _
      cases modified with
      | absent => rfl
      | redirection append path =>
          rw [List.foldlM_cons, push_redirect given]
          rfl
      | mark =>
          rw [List.foldlM_cons, push_background given]
          rfl
      | both append path =>
          rw [List.foldlM_cons, push_redirect given]
          change List.foldlM push _ _ = _
          rw [List.foldlM_cons, push_background given]
          rfl

/-! ### What a draft makes of the end -/

theorem exists_closed_of_isSequence {tokens : List Token} {items : List Item}
    (sequence : IsSequence tokens items) :
    ∃ front closed words, IsClosed front closed ∧ words ≠ [] ∧
      tokens = front ++ words.map Token.word ∧
      items = closed ++ [.command (.ofWords (words.map Utf8.text))] := by
  induction sequence with
  | single command =>
      obtain ⟨words, some, tokensEq, stepEq⟩ := exists_words_of_isCommand command
      exact ⟨[], [], words, .nil, some, tokensEq, by rw [stepEq]; rfl⟩
  | @joined before more items step sequence join command ih =>
      obtain ⟨front, closed, words, isClosed, some, tokensEq, itemsEq⟩ := ih
      obtain ⟨others, alsoSome, moreEq, stepEq⟩ := exists_words_of_isCommand command
      refine ⟨front ++ words.map Token.word ++ [.connective join],
        closed ++ [.command (.ofWords (words.map Utf8.text)), .connective join], others,
        .snoc isClosed (isCommand_of_words some) join, alsoSome, ?_, ?_⟩
      · rw [tokensEq, moreEq, List.append_assoc, List.append_assoc, List.append_assoc]
        rfl
      · rw [itemsEq, stepEq, List.append_assoc, List.append_assoc]
        rfl

theorem isSequence_of_isClosed {front more : List Token} {closed : List Item} {step : Command}
    (isClosed : IsClosed front closed) (command : IsCommand more step) :
    IsSequence (front ++ more) (closed ++ [.command step]) := by
  induction isClosed generalizing more step with
  | nil => exact .single command
  | snoc before earlier join ih =>
      have joined := IsSequence.joined (ih earlier) join command
      rw [List.append_assoc _ [Token.connective join], List.append_assoc _ [Item.command _, _]]
      rw [List.append_assoc _ [Item.command _]] at joined
      exact joined

end LineDraft

end PipelineShell

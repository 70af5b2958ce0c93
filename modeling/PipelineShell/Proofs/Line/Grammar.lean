import PipelineShell.CommandLine.Token

/-!
The grammar of a line, said without a draft: which token sequences are lines, and which fault a
token makes where it stands. A line is commands with a connective between any two, then perhaps a
redirection, then perhaps the background mark; a fault is judged by the tokens to its left alone.
-/

namespace PipelineShell

/-! ### Kinds of tokens -/

def Token.isWord : Token → Bool
  | .word _ => true
  | _ => false

def Token.isConnective : Token → Bool
  | .connective _ => true
  | _ => false

def Token.isRedirect : Token → Bool
  | .redirect _ _ => true
  | _ => false

def Token.isBackground : Token → Bool
  | .background => true
  | _ => false

namespace Grammar

/-! ### Lines -/

/-- Words make a command: the first names the program, and all of them are its arguments. -/
inductive IsCommand : List Token → Command → Prop where
  | ofWords (first : List UInt8) (others : List (List UInt8)) :
      IsCommand ((first :: others).map Token.word)
        ⟨Utf8.text first, (first :: others).map Utf8.text⟩

inductive IsSequence : List Token → List Item → Prop where
  | single {tokens : List Token} {step : Command} (command : IsCommand tokens step) :
      IsSequence tokens [.command step]
  | joined {tokens more : List Token} {items : List Item} {step : Command}
      (before : IsSequence tokens items) (join : Connective) (command : IsCommand more step) :
      IsSequence (tokens ++ .connective join :: more)
        (items ++ [.connective join, .command step])

inductive IsRedirection : List Token → Output → Prop where
  | absent : IsRedirection [] .inherited
  | emptied (path : List UInt8) :
      IsRedirection [.redirect false path] (.emptied (Utf8.text path))
  | appended (path : List UInt8) :
      IsRedirection [.redirect true path] (.appended (Utf8.text path))

inductive IsMark : List Token → Bool → Prop where
  | absent : IsMark [] false
  | present : IsMark [.background] true

inductive IsLine : List Token → CommandLine → Prop where
  | ofParts {sequence redirection mark : List Token} {items : List Item} {output : Output}
      {background : Bool} (commands : IsSequence sequence items)
      (target : IsRedirection redirection output) (ending : IsMark mark background) :
      IsLine (sequence ++ redirection ++ mark) ⟨items, output, background⟩

/-! ### Faults -/

/-- Whether the token cannot stand behind the others whatever it is: nothing can behind the
background mark, and only that mark behind a redirection. -/
def isClosedTo (before : List Token) (token : Token) : Bool :=
  before.any Token.isBackground || (before.any Token.isRedirect && !token.isBackground)

def endsInConnective (before : List Token) : Bool :=
  before.getLast?.any Token.isConnective

/-- The fault, if any, that a token makes behind others. -/
def faultOf (before : List Token) (token : Token) : Option LineFault :=
  if isClosedTo before token then some .tokenAfterModifier
  else if token.isWord then none
  else if !before.any Token.isWord then some .noLeftOperand
  else if endsInConnective before then some .noOperandBetween
  else none

/-- The fault, if any, at the end of the tokens: the one that ended them, or a connective that
nothing follows. -/
def faultAtEnd (tokens : List Token) : Option LineFault → Option LineFault
  | some fault => some fault
  | none => if endsInConnective tokens then some .noRightOperand else none

def Faultless (tokens : List Token) : Prop :=
  ∀ before token after, tokens = before ++ token :: after → faultOf before token = none

theorem faultless_nil : Faultless [] := by
  intro before token after split
  exact absurd split.symm (List.append_ne_nil_of_right_ne_nil _ (List.cons_ne_nil _ _))

theorem Faultless.snoc {tokens : List Token} (intact : Faultless tokens) {token : Token}
    (fine : faultOf tokens token = none) : Faultless (tokens ++ [token]) := by
  intro before other after split
  rcases List.append_eq_append_iff.mp split with ⟨more, beforeEq, restEq⟩ | ⟨more, tokensEq, restEq⟩
  · cases more with
    | nil =>
        rw [List.append_nil] at beforeEq
        rw [beforeEq, ← (List.cons.inj restEq).1]
        exact fine
    | cons first others =>
        have tailEq := (List.cons.inj restEq).2
        exact absurd tailEq.symm (List.append_ne_nil_of_right_ne_nil _ (List.cons_ne_nil _ _))
  · cases more with
    | nil =>
        rw [List.append_nil] at tokensEq
        rw [← tokensEq, (List.cons.inj restEq).1]
        exact fine
    | cons first others =>
        rw [(List.cons.inj restEq).1]
        exact intact before first others tokensEq

/-- Of two tokens that make a fault with none before them, neither stands behind the other. -/
theorem Faultless.fault_unique {before front after rest : List Token} {token other : Token}
    {fault cause : LineFault} (intact : Faultless before) (alsoIntact : Faultless front)
    (faulty : faultOf before token = some fault) (alsoFaulty : faultOf front other = some cause)
    (same : before ++ token :: after = front ++ other :: rest) : fault = cause := by
  rcases List.append_eq_append_iff.mp same with ⟨more, frontEq, tailEq⟩ | ⟨more, beforeEq, tailEq⟩
  · cases more with
    | nil =>
        rw [List.append_nil] at frontEq
        rw [frontEq, ← (List.cons.inj tailEq).1, faulty] at alsoFaulty
        exact Option.some.inj alsoFaulty
    | cons first others =>
        rw [← (List.cons.inj tailEq).1] at frontEq
        rw [alsoIntact before token others frontEq] at faulty
        cases faulty
  · cases more with
    | nil =>
        rw [List.append_nil] at beforeEq
        rw [← beforeEq, (List.cons.inj tailEq).1, faulty] at alsoFaulty
        exact Option.some.inj alsoFaulty
    | cons first others =>
        rw [← (List.cons.inj tailEq).1] at beforeEq
        rw [intact front other others beforeEq] at alsoFaulty
        cases alsoFaulty

/-- The fault of the tokens of a line that stands furthest left. -/
inductive IsLeftmostFault : Token.Scan → LineFault → Prop where
  | ofToken {before after : List Token} {token : Token} {ending : Option LineFault}
      {fault : LineFault} (intact : Faultless before)
      (faulty : faultOf before token = some fault) :
      IsLeftmostFault ⟨before ++ token :: after, ending⟩ fault
  | ofEnding {tokens : List Token} {ending : Option LineFault} {fault : LineFault}
      (intact : Faultless tokens) (faulty : faultAtEnd tokens ending = some fault) :
      IsLeftmostFault ⟨tokens, ending⟩ fault

end Grammar

end PipelineShell

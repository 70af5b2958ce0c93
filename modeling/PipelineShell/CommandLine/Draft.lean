import PipelineShell.CommandLine.Basic

/-!
Lines built from left to right. A call on a draft refuses what would make the line malformed at
the moment it is offered. A call writes to the draft itself: what it has written before it is
refused stays written.
-/

namespace PipelineShell

/-- Why a line is refused. -/
inductive LineFault where
  /-- An operator, a redirection or the background mark stands before any word. -/
  | noLeftOperand
  /-- An operator, a redirection or the background mark stands right behind an operator. -/
  | noOperandBetween
  /-- Nothing stands behind the last operator. -/
  | noRightOperand
  /-- A token stands where only the end of the line may follow, or the background mark. -/
  | tokenAfterModifier
  /-- No path follows a redirection sign. -/
  | noTarget
  /-- A word has no characters. -/
  | emptyWord
deriving DecidableEq, Repr

def LineFault.message : LineFault → String
  | .noLeftOperand => "operator with no left operand"
  | .noOperandBetween => "operator after operator"
  | .noRightOperand => "line ends with an operator"
  | .tokenAfterModifier => "unexpected token after redirection or '&'"
  | .noTarget => "redirection without a target"
  | .emptyWord => "empty word"

/-- A line of which the left part is known. The commands that a connective follows are closed; the
words behind the last connective may get company. Both lists have what came last in front. -/
structure LineDraft where
  /-- The closed positions: each command with the connective behind it. -/
  closed : List Item
  /-- The words of the command that is open. -/
  words : List String
  output : Option Output
  background : Bool
deriving DecidableEq, Repr

namespace LineDraft

def empty : LineDraft :=
  ⟨[], [], none, false⟩

def openCommand (draft : LineDraft) : Item :=
  .command (.ofWords draft.words.reverse)

def items (draft : LineDraft) : List Item :=
  if draft.words.isEmpty then draft.closed.reverse
  else (draft.openCommand :: draft.closed).reverse

/-- Whether a redirection or the background mark has been given, after which no word and no
connective may follow. -/
def isSealed (draft : LineDraft) : Bool :=
  draft.output.isSome || draft.background

/-- The fault, if any, of putting something behind the positions that needs a command there. -/
def leftOperandFault (draft : LineDraft) : Option LineFault :=
  match draft.words, draft.closed with
  | _ :: _, _ => none
  | [], [] => some .noLeftOperand
  | [], _ :: _ => some .noOperandBetween

/-- Closes the line. A draft without words holds no line. -/
def finish (draft : LineDraft) : Except LineFault (Option CommandLine) :=
  match draft.words, draft.closed with
  | _ :: _, _ =>
      .ok (some ⟨draft.items, draft.output.getD .inherited, draft.background⟩)
  | [], [] => .ok none
  | [], _ :: _ => .error .noRightOperand

end LineDraft

/-- A call on a draft, which gives a value or is refused. -/
abbrev Drafting (α : Type) := ExceptT LineFault (StateM LineDraft) α

namespace Drafting

/-- What comes of a call, and the draft behind it. -/
def on {α : Type} (call : Drafting α) (draft : LineDraft) : Except LineFault α × LineDraft :=
  (call.run.run draft).run

/-- Refuses a call that may not follow a redirection or the background mark. -/
def requireOpen : Drafting Unit := do
  if (← get).isSealed then throw .tokenAfterModifier

/-- Refuses a call that needs a command in front of it. -/
def requireLeftOperand : Drafting Unit := do
  match (← get).leftOperandFault with
  | some fault => throw fault
  | none => return ()

/-- Adds a word: to the command that is open, or as the first of a new one. -/
def word (text : String) : Drafting Unit := do
  requireOpen
  if text = "" then throw .emptyWord
  modify fun draft => { draft with words := text :: draft.words }

def connective (join : Connective) : Drafting Unit := do
  requireOpen
  requireLeftOperand
  modify fun draft =>
    { draft with closed := .connective join :: draft.openCommand :: draft.closed, words := [] }

def redirect (output : Output) : Drafting Unit := do
  requireOpen
  requireLeftOperand
  modify fun draft => { draft with output := some output }

/-- Sends the line to the background. A redirection may come before this mark, not after it. -/
def markBackground : Drafting Unit := do
  if (← get).background then throw .tokenAfterModifier
  requireLeftOperand
  modify fun draft => { draft with background := true }

end Drafting

end PipelineShell

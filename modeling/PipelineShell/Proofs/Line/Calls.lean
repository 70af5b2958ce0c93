import PipelineShell.CommandLine.Token

/-!
What a call makes of a draft. Every call checks first and writes last, so that a call that is
refused has written nothing; a run of calls that stops at the first refusal is a fold over the
drafts behind those that are taken.
-/

namespace PipelineShell

namespace Drafting

variable {α β : Type}

private theorem on_bind (first : Drafting α) (next : α → Drafting β) (draft : LineDraft) :
    (first >>= next).on draft =
      match first.on draft with
      | (.ok value, reached) => (next value).on reached
      | (.error fault, reached) => (.error fault, reached) := by
  unfold on
  rw [ExceptT.run_bind, StateT.run_bind, Id.run_bind]
  generalize (first.run.run draft).run = outcome
  cases outcome with
  | mk result reached => cases result <;> rfl

private theorem on_requireOpen (draft : LineDraft) :
    requireOpen.on draft =
      if draft.isSealed then (.error .tokenAfterModifier, draft) else (.ok (), draft) := by
  change (if draft.isSealed then throw .tokenAfterModifier else pure () : Drafting Unit).on draft
    = _
  split <;> rfl

private theorem on_requireLeftOperand (draft : LineDraft) :
    requireLeftOperand.on draft =
      match draft.leftOperandFault with
      | some fault => (.error fault, draft)
      | none => (.ok (), draft) := by
  change (match draft.leftOperandFault with
    | some fault => throw fault
    | none => pure () : Drafting Unit).on draft = _
  cases draft.leftOperandFault <;> rfl

theorem on_word (text : String) (draft : LineDraft) :
    (word text).on draft =
      if draft.isSealed then (.error .tokenAfterModifier, draft)
      else if text = "" then (.error .emptyWord, draft)
      else (.ok (), { draft with words := text :: draft.words }) := by
  rw [word, on_bind, on_requireOpen]
  by_cases isSealed : draft.isSealed = true
  · rw [if_pos isSealed, if_pos isSealed]
  · rw [if_neg isSealed, if_neg isSealed]
    by_cases blank : text = ""
    · rw [if_pos blank, if_pos blank]
      rfl
    · rw [if_neg blank, if_neg blank]
      rfl

/-- Two calls make both checks before they write. -/
theorem on_placed (write : LineDraft → LineDraft) (draft : LineDraft) :
    (do requireOpen; requireLeftOperand; modify write : Drafting Unit).on draft =
      if draft.isSealed then (.error .tokenAfterModifier, draft)
      else match draft.leftOperandFault with
        | some fault => (.error fault, draft)
        | none => (.ok (), write draft) := by
  rw [on_bind, on_requireOpen]
  by_cases isSealed : draft.isSealed = true
  · rw [if_pos isSealed, if_pos isSealed]
  · rw [if_neg isSealed, if_neg isSealed]
    change (requireLeftOperand >>= _).on draft = _
    rw [on_bind, on_requireLeftOperand]
    cases draft.leftOperandFault <;> rfl

theorem on_connective (join : Connective) (draft : LineDraft) :
    (connective join).on draft =
      if draft.isSealed then (.error .tokenAfterModifier, draft)
      else match draft.leftOperandFault with
        | some fault => (.error fault, draft)
        | none =>
            let closed := .connective join :: draft.openCommand :: draft.closed
            (.ok (), { draft with closed, words := [] }) :=
  on_placed _ draft

theorem on_redirect (output : Output) (draft : LineDraft) :
    (redirect output).on draft =
      if draft.isSealed then (.error .tokenAfterModifier, draft)
      else match draft.leftOperandFault with
        | some fault => (.error fault, draft)
        | none => (.ok (), { draft with output := some output }) :=
  on_placed _ draft

theorem on_markBackground (draft : LineDraft) :
    markBackground.on draft =
      if draft.background then (.error .tokenAfterModifier, draft)
      else match draft.leftOperandFault with
        | some fault => (.error fault, draft)
        | none => (.ok (), { draft with background := true }) := by
  change (if draft.background then throw .tokenAfterModifier >>= fun _ => _ else _
    : Drafting Unit).on draft = _
  by_cases marked : draft.background = true
  · rw [if_pos marked, if_pos marked]
    rfl
  · rw [if_neg marked, if_neg marked]
    change (requireLeftOperand >>= _).on draft = _
    rw [on_bind, on_requireLeftOperand]
    cases draft.leftOperandFault <;> rfl

/-! ### Calls that are taken -/

/-- The draft behind a call, unless the call is refused. -/
def taken (call : Drafting Unit) (draft : LineDraft) : Except LineFault LineDraft :=
  match call.on draft with
  | (.ok (), next) => .ok next
  | (.error fault, _) => .error fault

theorem on_of_taken {call : Drafting Unit} {draft next : LineDraft}
    (isTaken : call.taken draft = .ok next) : call.on draft = (.ok (), next) := by
  rw [taken] at isTaken
  cases made : call.on draft with
  | mk result reached =>
      rw [made] at isTaken
      cases result with
      | ok done => rw [Except.ok.inj isTaken]
      | error fault => cases isTaken

theorem on_of_taken_error {call : Drafting Unit} {draft : LineDraft} {fault : LineFault}
    (refused : call.taken draft = .error fault) : (call.on draft).1 = .error fault := by
  rw [taken] at refused
  cases made : call.on draft with
  | mk result reached =>
      rw [made] at refused
      cases result with
      | ok done => cases refused
      | error cause => rw [Except.error.inj refused]

theorem taken_word (text : String) (draft : LineDraft) :
    (word text).taken draft =
      if draft.isSealed then .error .tokenAfterModifier
      else if text = "" then .error .emptyWord
      else .ok { draft with words := text :: draft.words } := by
  rw [taken, on_word]
  cases draft.isSealed with
  | true => rfl
  | false => by_cases blank : text = "" <;> simp only [blank, if_true, if_false] <;> rfl

theorem taken_connective (join : Connective) (draft : LineDraft) :
    (connective join).taken draft =
      if draft.isSealed then .error .tokenAfterModifier
      else match draft.leftOperandFault with
        | some fault => .error fault
        | none =>
            let closed := .connective join :: draft.openCommand :: draft.closed
            .ok { draft with closed, words := [] } := by
  rw [taken, on_connective]
  cases draft.isSealed <;> cases draft.leftOperandFault <;> rfl

theorem taken_redirect (output : Output) (draft : LineDraft) :
    (redirect output).taken draft =
      if draft.isSealed then .error .tokenAfterModifier
      else match draft.leftOperandFault with
        | some fault => .error fault
        | none => .ok { draft with output := some output } := by
  rw [taken, on_redirect]
  cases draft.isSealed <;> cases draft.leftOperandFault <;> rfl

theorem taken_markBackground (draft : LineDraft) :
    markBackground.taken draft =
      if draft.background then .error .tokenAfterModifier
      else match draft.leftOperandFault with
        | some fault => .error fault
        | none => .ok { draft with background := true } := by
  rw [taken, on_markBackground]
  cases draft.background <;> cases draft.leftOperandFault <;> rfl

private theorem on_forM_cons {ι : Type} (step : ι → Drafting Unit) (first : ι) (later : List ι)
    (draft : LineDraft) :
    Drafting.on ((first :: later).forM step) draft =
      match (step first).on draft with
      | (.ok (), next) => Drafting.on (later.forM step) next
      | (.error fault, reached) => (.error fault, reached) := by
  change (step first >>= fun _ => later.forM step).on draft = _
  rw [on_bind]
  cases (step first).on draft with
  | mk result next => cases result <;> rfl

theorem taken_forM {ι : Type} (step : ι → Drafting Unit) (items : List ι) (draft : LineDraft) :
    taken (items.forM step) draft
      = items.foldlM (fun current item => (step item).taken current) draft := by
  induction items generalizing draft with
  | nil => rfl
  | cons first later ih =>
      rw [taken, on_forM_cons, List.foldlM_cons, taken]
      cases (step first).on draft with
      | mk result next =>
          cases result with
          | ok done => exact ih next
          | error fault => rfl

end Drafting

/-- The draft behind a token, unless the token is refused. -/
def LineDraft.push (draft : LineDraft) (token : Token) : Except LineFault LineDraft :=
  (Drafting.push token).taken draft

theorem CommandLine.parse_eq_foldlM (bytes : List UInt8) :
    CommandLine.parse bytes
      = ((Token.scan bytes).tokens.foldlM LineDraft.push .empty).bind
          fun draft => draft.close (Token.scan bytes).fault := by
  change _ = ((Token.scan bytes).tokens.foldlM (fun current token =>
    (Drafting.push token).taken current) .empty).bind _
  rw [← Drafting.taken_forM, Drafting.taken, CommandLine.parse]
  cases Drafting.on ((Token.scan bytes).tokens.forM Drafting.push) .empty with
  | mk result draft => cases result <;> rfl

end PipelineShell

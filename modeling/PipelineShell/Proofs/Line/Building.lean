import PipelineShell.Proofs.Line.Calls

/-!
Lines that calls on a draft build, refused calls included. Whatever texts are offered, the
positions of a finished line are commands of words with a connective between any two.
-/

namespace PipelineShell

/-- Words that make a command: there are some, and each has characters. -/
structure AreWords (words : List String) : Prop where
  filled : words ≠ []
  spelled : ∀ word ∈ words, word ≠ ""

inductive IsAlternating : List Item → Prop where
  | single {words : List String} (areWords : AreWords words) :
      IsAlternating [.command (.ofWords words)]
  | joined {items : List Item} {words : List String} (before : IsAlternating items)
      (join : Connective) (areWords : AreWords words) :
      IsAlternating (items ++ [.connective join, .command (.ofWords words)])

inductive DraftCall where
  | word (text : String)
  | connective (join : Connective)
  | redirect (output : Output)
  | background
deriving DecidableEq, Repr

def DraftCall.make : DraftCall → Drafting Unit
  | .word text => Drafting.word text
  | .connective join => Drafting.connective join
  | .redirect output => Drafting.redirect output
  | .background => Drafting.markBackground

/-- A call that is refused has written nothing. -/
theorem DraftCall.on_of_refused {call : DraftCall} {draft : LineDraft} {fault : LineFault}
    (refused : (call.make.on draft).1 = .error fault) : (call.make.on draft).2 = draft := by
  cases call with
  | word text =>
      rw [make, Drafting.on_word] at refused ⊢
      split
      · rfl
      split
      · rfl
      · rename_i isOpen spelled
        rw [if_neg isOpen, if_neg spelled] at refused
        cases refused
  | connective join =>
      rw [make, Drafting.on_connective] at refused ⊢
      split
      · rfl
      split
      · rfl
      · rename_i isOpen _ given
        rw [if_neg isOpen, given] at refused
        cases refused
  | redirect output =>
      rw [make, Drafting.on_redirect] at refused ⊢
      split
      · rfl
      split
      · rfl
      · rename_i isOpen _ given
        rw [if_neg isOpen, given] at refused
        cases refused
  | background =>
      rw [make, Drafting.on_markBackground] at refused ⊢
      split
      · rfl
      split
      · rfl
      · rename_i isOpen _ given
        rw [if_neg isOpen, given] at refused
        cases refused

namespace LineDraft

/-- What a call makes of a draft, or why it is refused. -/
def answer (draft : LineDraft) (call : DraftCall) : Except LineFault LineDraft :=
  call.make.taken draft

/-- The draft behind a call, be it taken or refused. -/
def offer (draft : LineDraft) (call : DraftCall) : LineDraft :=
  (call.make.on draft).2

theorem offer_of_answer {draft next : LineDraft} {call : DraftCall}
    (answered : draft.answer call = .ok next) : draft.offer call = next := by
  rw [offer, Drafting.on_of_taken answered]

def offerAll (draft : LineDraft) (calls : List DraftCall) : LineDraft :=
  calls.foldl offer draft

/-! ### What calls preserve -/

/-- Closed positions, of which the last is in front: commands with a connective behind each. -/
inductive AreClosed : List Item → Prop where
  | nil : AreClosed []
  | cons {words : List String} {closed : List Item} (areWords : AreWords words)
      (join : Connective) (before : AreClosed closed) :
      AreClosed (.connective join :: .command (.ofWords words) :: closed)

structure WellFormed (draft : LineDraft) : Prop where
  closed : AreClosed draft.closed
  spelled : ∀ word ∈ draft.words, word ≠ ""

theorem wellFormed_empty : empty.WellFormed where
  closed := .nil
  spelled := fun _word member => nomatch member

private theorem leftOperandFault_eq_none_iff {draft : LineDraft} :
    draft.leftOperandFault = none ↔ draft.words ≠ [] := by
  rw [leftOperandFault]
  cases draft.words with
  | cons last others => simp
  | nil => cases draft.closed <;> simp

inductive Takes (draft : LineDraft) : DraftCall → LineDraft → Prop where
  | word {text : String} (isOpen : draft.isSealed = false) (spelled : text ≠ "") :
      Takes draft (.word text) { draft with words := text :: draft.words }
  | connective (join : Connective) (isOpen : draft.isSealed = false) (given : draft.words ≠ []) :
      Takes draft (.connective join)
        { draft with closed := .connective join :: draft.openCommand :: draft.closed, words := [] }
  | redirect (output : Output) (isOpen : draft.isSealed = false) (given : draft.words ≠ []) :
      Takes draft (.redirect output) { draft with output := some output }
  | background (unmarked : draft.background = false) (given : draft.words ≠ []) :
      Takes draft .background { draft with background := true }

theorem takes_of_answer {draft next : LineDraft} {call : DraftCall}
    (answered : draft.answer call = .ok next) : draft.Takes call next := by
  cases call with
  | word text =>
      rw [answer, DraftCall.make, Drafting.taken_word] at answered
      split at answered
      · cases answered
      rename_i isOpen
      split at answered
      · cases answered
      · rename_i spelled
        cases answered
        exact .word (Bool.eq_false_iff.mpr isOpen) spelled
  | connective join =>
      rw [answer, DraftCall.make, Drafting.taken_connective] at answered
      split at answered
      · cases answered
      rename_i isOpen
      split at answered
      · cases answered
      · rename_i given
        cases answered
        exact .connective join (Bool.eq_false_iff.mpr isOpen)
          (leftOperandFault_eq_none_iff.mp given)
  | redirect output =>
      rw [answer, DraftCall.make, Drafting.taken_redirect] at answered
      split at answered
      · cases answered
      rename_i isOpen
      split at answered
      · cases answered
      · rename_i given
        cases answered
        exact .redirect output (Bool.eq_false_iff.mpr isOpen)
          (leftOperandFault_eq_none_iff.mp given)
  | background =>
      rw [answer, DraftCall.make, Drafting.taken_markBackground] at answered
      split at answered
      · cases answered
      rename_i unmarked
      split at answered
      · cases answered
      · rename_i given
        cases answered
        exact .background (Bool.eq_false_iff.mpr unmarked) (leftOperandFault_eq_none_iff.mp given)

theorem Takes.answer {draft next : LineDraft} {call : DraftCall} (takes : draft.Takes call next) :
    draft.answer call = .ok next := by
  cases takes with
  | word isOpen spelled =>
      simp [LineDraft.answer, DraftCall.make, Drafting.taken_word, isOpen, spelled]
  | connective join isOpen given =>
      simp [LineDraft.answer, DraftCall.make, Drafting.taken_connective, isOpen,
        leftOperandFault_eq_none_iff.mpr given]
  | redirect output isOpen given =>
      simp [LineDraft.answer, DraftCall.make, Drafting.taken_redirect, isOpen,
        leftOperandFault_eq_none_iff.mpr given]
  | background unmarked given =>
      simp [LineDraft.answer, DraftCall.make, Drafting.taken_markBackground, unmarked,
        leftOperandFault_eq_none_iff.mpr given]

theorem WellFormed.answer {draft next : LineDraft} (wellFormed : draft.WellFormed)
    {call : DraftCall} (taken : draft.answer call = .ok next) : next.WellFormed := by
  cases takes_of_answer taken with
  | word isOpen spelled =>
      exact ⟨wellFormed.closed, List.forall_mem_cons.mpr ⟨spelled, wellFormed.spelled⟩⟩
  | connective join isOpen given =>
      have areWords : AreWords draft.words.reverse := by
        refine ⟨by simp [given], ?_⟩
        intro word member
        exact wellFormed.spelled word (List.mem_reverse.mp member)
      exact ⟨.cons areWords join wellFormed.closed, fun _word member => nomatch member⟩
  | redirect output isOpen given => exact ⟨wellFormed.closed, wellFormed.spelled⟩
  | background unmarked given => exact ⟨wellFormed.closed, wellFormed.spelled⟩

theorem WellFormed.offer {draft : LineDraft} (wellFormed : draft.WellFormed) (call : DraftCall) :
    (draft.offer call).WellFormed := by
  cases answered : draft.answer call with
  | ok next =>
      rw [offer_of_answer answered]
      exact wellFormed.answer answered
  | error fault =>
      rw [LineDraft.offer, DraftCall.on_of_refused (Drafting.on_of_taken_error answered)]
      exact wellFormed

theorem WellFormed.offerAll {draft : LineDraft} (wellFormed : draft.WellFormed)
    (calls : List DraftCall) : (draft.offerAll calls).WellFormed := by
  induction calls generalizing draft with
  | nil => exact wellFormed
  | cons call later ih => exact ih (wellFormed.offer call)

/-! ### Finished lines -/

theorem AreClosed.isAlternating {closed : List Item} (areClosed : AreClosed closed)
    {words : List String} (areWords : AreWords words) :
    IsAlternating (closed.reverse ++ [.command (.ofWords words)]) := by
  induction areClosed generalizing words with
  | nil => exact .single areWords
  | cons earlier join before ih =>
      have joined := IsAlternating.joined (ih earlier) join areWords
      rw [List.append_assoc] at joined
      rw [List.reverse_cons, List.reverse_cons, List.append_assoc, List.append_assoc]
      exact joined

theorem WellFormed.isAlternating {draft : LineDraft} (wellFormed : draft.WellFormed)
    {line : CommandLine} (finished : draft.finish = .ok (some line)) :
    IsAlternating line.items := by
  have spelled := wellFormed.spelled
  rw [finish] at finished
  split at finished
  · rename_i last others wordsEq
    cases finished
    have filled : draft.words.isEmpty = false := by
      rw [wordsEq]
      rfl
    have areWords : AreWords draft.words.reverse := by
      refine ⟨?_, fun word member => spelled word (List.mem_reverse.mp member)⟩
      rw [wordsEq, List.reverse_cons]
      exact List.append_ne_nil_of_right_ne_nil _ (List.cons_ne_nil _ _)
    have itemsEq : draft.items = draft.closed.reverse ++ [draft.openCommand] := by
      rw [items, filled]
      exact List.reverse_cons
    change IsAlternating draft.items
    rw [itemsEq]
    exact wellFormed.closed.isAlternating areWords
  · cases finished
  · cases finished

end LineDraft

end PipelineShell

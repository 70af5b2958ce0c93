import PipelineShell.Proofs.Line.Building

/-!
Calls on a draft and what comes of each. A refused call may be left out without any other call
being told apart; the calls that are taken are, in order, the draft itself, so that a finished line
says which calls have made it, and every line of that form is made by such calls.
-/

namespace PipelineShell

/-- A call with the fault for which it has been refused, if it has been. -/
abbrev CallOutcome :=
  DraftCall × Option LineFault

def CallOutcome.isTaken (outcome : CallOutcome) : Bool :=
  outcome.2.isNone

namespace DraftCall

def isWord : DraftCall → Bool
  | .word _ => true
  | _ => false

def isConnective : DraftCall → Bool
  | .connective _ => true
  | _ => false

def isPlaced (call : DraftCall) : Bool :=
  call.isWord || call.isConnective

def ofModifiers (output : Option Output) (background : Bool) : List DraftCall :=
  output.toList.map .redirect ++ if background then [.background] else []

private theorem isPlaced_of_ofModifiers {output : Option Output} {background : Bool}
    {call : DraftCall}
    (member : call ∈ ofModifiers output background) : call.isPlaced = false := by
  rcases List.mem_append.mp member with isRedirect | isMark
  · obtain ⟨target, _, rfl⟩ := List.mem_map.mp isRedirect
    rfl
  · cases background with
    | false => cases isMark
    | true =>
        rw [List.mem_singleton.mp isMark]
        rfl

end DraftCall

def Item.calls : Item → List DraftCall
  | .command step => step.arguments.map .word
  | .connective join => [.connective join]

theorem Item.isPlaced_of_calls {item : Item} {call : DraftCall} (member : call ∈ item.calls) :
    call.isPlaced = true := by
  cases item with
  | command step =>
      obtain ⟨word, _, rfl⟩ := List.mem_map.mp member
      rfl
  | connective join =>
      rw [List.mem_singleton.mp member]
      rfl

namespace LineDraft

/-! ### Refused calls -/

def fault? (draft : LineDraft) (call : DraftCall) : Option LineFault :=
  match (call.make.on draft).1 with
  | .ok _ => none
  | .error fault => some fault

/-- Calls made one after another, each with what has come of it. -/
def transcript (draft : LineDraft) : List DraftCall → List CallOutcome
  | [] => []
  | call :: rest => (call, draft.fault? call) :: (draft.offer call).transcript rest

def taken (draft : LineDraft) (calls : List DraftCall) : List DraftCall :=
  ((draft.transcript calls).filter CallOutcome.isTaken).map Prod.fst

private theorem offer_of_fault {draft : LineDraft} {call : DraftCall} {fault : LineFault}
    (refused : draft.fault? call = some fault) : draft.offer call = draft := by
  rw [fault?] at refused
  cases made : (call.make.on draft).1 with
  | ok done =>
      rw [made] at refused
      cases refused
  | error cause => exact DraftCall.on_of_refused made

private theorem fault?_of_answer {draft next : LineDraft} {call : DraftCall}
    (answered : draft.answer call = .ok next) : draft.fault? call = none := by
  rw [fault?, Drafting.on_of_taken answered]

private theorem fault?_of_answer_error {draft : LineDraft} {call : DraftCall} {fault : LineFault}
    (answered : draft.answer call = .error fault) : draft.fault? call = some fault := by
  rw [fault?, Drafting.on_of_taken_error answered]

/-- Of a transcript, entries of refused calls may be missing: the calls that are left come to the
same as before, each of them and all together. -/
theorem transcript_of_sublist {draft : LineDraft} {calls : List DraftCall}
    {kept : List CallOutcome} (sublist : kept.Sublist (draft.transcript calls))
    (whole : kept.filter CallOutcome.isTaken
      = (draft.transcript calls).filter CallOutcome.isTaken) :
    draft.transcript (kept.map Prod.fst) = kept ∧
      draft.offerAll (kept.map Prod.fst) = draft.offerAll calls := by
  induction calls generalizing draft kept with
  | nil =>
      rw [List.sublist_nil.mp sublist]
      exact ⟨rfl, rfl⟩
  | cons call rest ih =>
      rw [transcript] at sublist whole
      cases sublist with
      | cons _ dropped =>
          cases refused : draft.fault? call with
          | none =>
              -- The entry of a call that is taken cannot be missing.
              rw [List.filter_cons_of_pos (by rw [CallOutcome.isTaken, refused]; rfl)] at whole
              have few := (dropped.filter CallOutcome.isTaken).length_le
              have many := congrArg List.length whole
              rw [List.length_cons] at many
              omega
          | some fault =>
              rw [List.filter_cons_of_neg (by simp [CallOutcome.isTaken, refused])] at whole
              rw [offer_of_fault refused] at dropped whole
              obtain ⟨same, reached⟩ := ih dropped whole
              refine ⟨same, reached.trans ?_⟩
              change draft.offerAll rest = (draft.offer call).offerAll rest
              rw [offer_of_fault refused]
      | @cons_cons later _ _ inside =>
          have wholeRest : later.filter CallOutcome.isTaken
              = ((draft.offer call).transcript rest).filter CallOutcome.isTaken := by
            by_cases isTaken : CallOutcome.isTaken (call, draft.fault? call) = true
            · rw [List.filter_cons_of_pos isTaken, List.filter_cons_of_pos isTaken] at whole
              exact (List.cons.inj whole).2
            · rw [List.filter_cons_of_neg isTaken, List.filter_cons_of_neg isTaken] at whole
              exact whole
          obtain ⟨same, reached⟩ := ih inside wholeRest
          refine ⟨?_, reached⟩
          rw [List.map_cons, transcript, same]

/-! ### Taken calls -/

def calls (draft : LineDraft) : List DraftCall :=
  draft.closed.reverse.flatMap Item.calls
    ++ (draft.words.reverse.map .word ++ DraftCall.ofModifiers draft.output draft.background)

private theorem unmodified_of_open {draft : LineDraft} (isOpen : draft.isSealed = false) :
    draft.output = none ∧ draft.background = false := by
  rw [isSealed, Bool.or_eq_false_iff] at isOpen
  exact ⟨Option.isNone_iff_eq_none.mp (Option.isSome_eq_false_iff.mp isOpen.1), isOpen.2⟩

private theorem calls_of_answer {draft next : LineDraft} {call : DraftCall}
    (answered : draft.answer call = .ok next) : next.calls = draft.calls ++ [call] := by
  cases takes_of_answer answered with
  | word isOpen spelled =>
      obtain ⟨noOutput, unmarked⟩ := unmodified_of_open isOpen
      simp [calls, DraftCall.ofModifiers, noOutput, unmarked]
  | connective join isOpen given =>
      obtain ⟨noOutput, unmarked⟩ := unmodified_of_open isOpen
      simp [calls, DraftCall.ofModifiers, noOutput, unmarked, openCommand, Item.calls,
        Command.ofWords]
  | redirect output isOpen given =>
      obtain ⟨noOutput, unmarked⟩ := unmodified_of_open isOpen
      simp [calls, DraftCall.ofModifiers, noOutput, unmarked]
  | background unmarked given => simp [calls, DraftCall.ofModifiers, unmarked]

private theorem calls_offerAll (draft : LineDraft) (calls : List DraftCall) :
    (draft.offerAll calls).calls = draft.calls ++ draft.taken calls := by
  induction calls generalizing draft with
  | nil => exact (List.append_nil _).symm
  | cons call rest ih =>
      change ((draft.offer call).offerAll rest).calls = _
      rw [ih, taken, taken, transcript]
      cases answered : draft.answer call with
      | ok next =>
          rw [offer_of_answer answered, fault?_of_answer answered, calls_of_answer answered,
            List.append_assoc]
          rfl
      | error fault =>
          have refused := fault?_of_answer_error answered
          rw [offer_of_fault refused, refused]
          rfl

private theorem taken_eq_calls (calls : List DraftCall) :
    empty.taken calls = (empty.offerAll calls).calls := by
  rw [calls_offerAll]
  rfl

/-! ### Closing a draft -/

private theorem words_ne_nil_of_sealed {draft : LineDraft}
    (standing : draft.isSealed = true → draft.words ≠ []) (calls : List DraftCall) :
    (draft.offerAll calls).isSealed = true → (draft.offerAll calls).words ≠ [] := by
  induction calls generalizing draft with
  | nil => exact standing
  | cons call rest ih =>
      apply ih
      cases answered : draft.answer call with
      | error fault =>
          rw [offer_of_fault (fault?_of_answer_error answered)]
          exact standing
      | ok next =>
          rw [offer_of_answer answered]
          cases takes_of_answer answered with
          | word isOpen spelled => exact fun _ => List.cons_ne_nil _ _
          | connective join isOpen given =>
              intro isSealed
              change draft.isSealed = true at isSealed
              rw [isOpen] at isSealed
              cases isSealed
          | redirect output isOpen given => exact fun _ => given
          | background unmarked given => exact fun _ => given

private theorem filter_isPlaced_calls (draft : LineDraft) :
    draft.calls.filter DraftCall.isPlaced
      = draft.closed.reverse.flatMap Item.calls ++ draft.words.reverse.map .word := by
  have front : ∀ call ∈ draft.closed.reverse.flatMap Item.calls, call.isPlaced = true := by
    intro call member
    obtain ⟨item, _, inItem⟩ := List.mem_flatMap.mp member
    exact Item.isPlaced_of_calls inItem
  have middle : ∀ call ∈ draft.words.reverse.map DraftCall.word, call.isPlaced = true := by
    intro call member
    obtain ⟨word, _, rfl⟩ := List.mem_map.mp member
    rfl
  have behind : ∀ call ∈ DraftCall.ofModifiers draft.output draft.background,
      ¬ call.isPlaced = true := by
    intro call member
    rw [DraftCall.isPlaced_of_ofModifiers member]
    exact Bool.false_ne_true
  rw [calls, List.filter_append, List.filter_append, List.filter_eq_self.mpr front,
    List.filter_eq_self.mpr middle, List.filter_eq_nil_iff.mpr behind, List.append_nil]

/-- What closing comes to, as the calls say that have been taken. -/
inductive Closes : List DraftCall → Except LineFault (Option CommandLine) → Prop where
  | nothing : Closes [] (.ok none)
  | joined {calls : List DraftCall} (join : Connective)
      (wordy : ∃ call ∈ calls, call.isWord = true)
      (last : (calls.filter DraftCall.isPlaced).getLast? = some (.connective join)) :
      Closes calls (.error .noRightOperand)
  | whole {line : CommandLine} (alternating : IsAlternating line.items) (output : Option Output)
      (written : output.getD .inherited = line.output) (word : String)
      (last : ((line.items.flatMap Item.calls
        ++ DraftCall.ofModifiers output line.background).filter DraftCall.isPlaced).getLast?
        = some (.word word)) :
      Closes (line.items.flatMap Item.calls ++ DraftCall.ofModifiers output line.background)
        (.ok (some line))

theorem WellFormed.closes {draft : LineDraft} (wellFormed : draft.WellFormed)
    (standing : draft.isSealed = true → draft.words ≠ []) :
    Closes draft.calls draft.finish := by
  have placed := filter_isPlaced_calls draft
  cases wordsEq : draft.words with
  | cons last others =>
      rw [wordsEq] at placed
      have finished : draft.finish
          = .ok (some ⟨draft.items, draft.output.getD .inherited, draft.background⟩) := by
        rw [finish, wordsEq]
      have itemsEq : draft.items = draft.closed.reverse ++ [draft.openCommand] := by
        rw [items, wordsEq]
        exact List.reverse_cons
      have callsEq : draft.calls = draft.items.flatMap Item.calls
          ++ DraftCall.ofModifiers draft.output draft.background := by
        simp [calls, itemsEq, openCommand, Item.calls, Command.ofWords]
      rw [finished]
      have lastEq : (draft.calls.filter DraftCall.isPlaced).getLast? = some (.word last) := by
        rw [placed]
        simp
      rw [callsEq] at lastEq ⊢
      exact .whole (wellFormed.isAlternating finished) draft.output rfl last lastEq
  | nil =>
      rw [wordsEq] at placed
      have isOpen : draft.isSealed = false :=
        Bool.eq_false_iff.mpr fun isSealed => standing isSealed wordsEq
      have closedForm := wellFormed.closed
      cases closedEq : draft.closed with
      | nil =>
          have callsEq : draft.calls = [] := by
            obtain ⟨noOutput, unmarked⟩ := unmodified_of_open isOpen
            simp [calls, wordsEq, closedEq, noOutput, unmarked, DraftCall.ofModifiers]
          have finished : draft.finish = .ok none := by
            rw [finish, wordsEq, closedEq]
          rw [callsEq, finished]
          exact .nothing
      | cons item before =>
          rw [closedEq] at closedForm placed
          have finished : draft.finish = .error .noRightOperand := by
            rw [finish, wordsEq, closedEq]
          rw [finished]
          cases closedForm with
          | @cons words closed areWords join earlier =>
              refine .joined join ?_ ?_
              · obtain ⟨word, more, wordsGiven⟩ := List.exists_cons_of_ne_nil areWords.filled
                refine ⟨.word word, ?_, rfl⟩
                simp [calls, closedEq, Item.calls, Command.ofWords, wordsGiven]
              · rw [placed]
                simp [Item.calls]

/-! ### Lines and their calls -/

private theorem foldlM_words (closed : List Item) (before : List String) {words : List String}
    (spelled : ∀ word ∈ words, word ≠ "") :
    (words.map DraftCall.word).foldlM answer ⟨closed, before, none, false⟩
      = .ok ⟨closed, words.reverse ++ before, none, false⟩ := by
  induction words generalizing before with
  | nil => rfl
  | cons word rest ih =>
      have here : answer ⟨closed, before, none, false⟩ (.word word)
          = .ok ⟨closed, word :: before, none, false⟩ :=
        (Takes.word rfl (spelled word List.mem_cons_self)).answer
      have later := ih (word :: before) fun other member =>
        spelled other (List.mem_cons_of_mem _ member)
      rw [List.map_cons, List.foldlM_cons, here, List.reverse_cons, List.append_assoc]
      exact later

private theorem exists_foldlM_of_alternating {items : List Item}
    (alternating : IsAlternating items) :
    ∃ closed words, AreWords words ∧ items = closed.reverse ++ [.command (.ofWords words)] ∧
      (items.flatMap Item.calls).foldlM answer empty
        = .ok ⟨closed, words.reverse, none, false⟩ := by
  induction alternating with
  | @single words areWords =>
      refine ⟨[], words, areWords, rfl, ?_⟩
      have taken := foldlM_words [] [] areWords.spelled
      rw [List.append_nil] at taken
      rw [List.flatMap_singleton]
      exact taken
  | @joined items more before join areMore ih =>
      obtain ⟨closed, words, areWords, itemsEq, folded⟩ := ih
      have connected : answer ⟨closed, words.reverse, none, false⟩ (.connective join)
          = .ok ⟨.connective join :: .command (.ofWords words) :: closed, [], none, false⟩ := by
        have takes := @Takes.connective ⟨closed, words.reverse, none, false⟩ join rfl
          (by simp [areWords.filled])
        rw [openCommand, List.reverse_reverse] at takes
        exact takes.answer
      have taken := foldlM_words (.connective join :: .command (.ofWords words) :: closed) []
        areMore.spelled
      rw [List.append_nil] at taken
      refine ⟨.connective join :: .command (.ofWords words) :: closed, more, areMore, ?_, ?_⟩
      · rw [itemsEq]
        simp
      · rw [List.flatMap_append, List.foldlM_append, folded]
        change (answer _ (.connective join) >>= fun draft =>
          (([.command (.ofWords more)] : List Item).flatMap Item.calls).foldlM answer draft) = _
        rw [connected, List.flatMap_singleton]
        exact taken

/-- Every line of commands and connectives is what calls make that are all taken. -/
theorem exists_calls_of_alternating {line : CommandLine} (alternating : IsAlternating line.items) :
    ∃ (calls : List DraftCall) (draft : LineDraft),
      Drafting.on (calls.forM DraftCall.make) empty = (.ok (), draft) ∧
        draft.finish = .ok (some line) := by
  obtain ⟨closed, words, areWords, itemsEq, folded⟩ := exists_foldlM_of_alternating alternating
  obtain ⟨last, others, wordsEq⟩ : ∃ last others, words.reverse = last :: others :=
    List.exists_cons_of_ne_nil (by simp [areWords.filled])
  have back : (last :: others).reverse = words := by
    rw [← wordsEq, List.reverse_reverse]
  refine ⟨line.items.flatMap Item.calls ++ DraftCall.ofModifiers (some line.output)
    line.background, ⟨closed, words.reverse, some line.output, line.background⟩, ?_, ?_⟩
  · apply Drafting.on_of_taken
    rw [Drafting.taken_forM]
    change List.foldlM answer empty _ = _
    rw [List.foldlM_append, folded, wordsEq]
    cases line.background <;> rfl
  · have whole : items ⟨closed, last :: others, some line.output, line.background⟩
        = line.items := by
      rw [itemsEq, ← back]
      exact List.reverse_cons
    rw [wordsEq, finish, whole]
    rfl

/-- A call that a draft refuses leaves it as it was. So, of calls on a new draft, whatever they
offer, any that are refused may be missing: every other call comes to the same, and so does closing
the draft. It comes to nothing just if no word has been
taken, and then nothing else has; to a fault just if the last word or connective taken is a
connective; and otherwise to a line of commands and connectives, which is just what has been taken.
Every such line, with any output and any mark, is what calls make that are all taken. -/
theorem refused_calls_leave_no_trace :
    (∀ (draft : LineDraft) (call : DraftCall) (fault : LineFault),
      (call.make.on draft).1 = .error fault → (call.make.on draft).2 = draft) ∧
    (∀ calls (kept : List CallOutcome), kept.Sublist (empty.transcript calls) →
      kept.filter CallOutcome.isTaken = (empty.transcript calls).filter CallOutcome.isTaken →
      empty.transcript (kept.map Prod.fst) = kept ∧
        (empty.offerAll (kept.map Prod.fst)).finish = (empty.offerAll calls).finish) ∧
    (∀ calls,
      let taken := empty.taken calls
      let closing := (empty.offerAll calls).finish
      let joins (join : Connective) : Prop :=
        (taken.filter DraftCall.isPlaced).getLast? = some (.connective join)
      (closing = .ok none ↔ ∀ call ∈ taken, call.isWord = false) ∧
      (closing = .ok none → taken = []) ∧
      (∀ fault, closing = .error fault ↔ fault = .noRightOperand ∧ ∃ join, joins join) ∧
      ((∃ call ∈ taken, call.isWord = true) → (¬ ∃ join, joins join) →
        ∃ line output, closing = .ok (some line) ∧ IsAlternating line.items ∧
          output.getD .inherited = line.output ∧
          taken = line.items.flatMap Item.calls
            ++ DraftCall.ofModifiers output line.background)) ∧
    ∀ line : CommandLine, IsAlternating line.items →
      ∃ (calls : List DraftCall) (draft : LineDraft),
        Drafting.on (calls.forM DraftCall.make) empty = (.ok (), draft) ∧
          draft.finish = .ok (some line) := by
  refine ⟨fun draft call fault => DraftCall.on_of_refused, fun calls kept sublist whole => ?_,
    fun calls => ?_, fun line => exists_calls_of_alternating⟩
  · obtain ⟨same, reached⟩ := transcript_of_sublist sublist whole
    exact ⟨same, congrArg finish reached⟩
  · have closes := (wellFormed_empty.offerAll calls).closes
      (@words_ne_nil_of_sealed empty (fun impossible => nomatch impossible) calls)
    rw [← taken_eq_calls] at closes
    dsimp only
    generalize empty.taken calls = taken at closes ⊢
    generalize (empty.offerAll calls).finish = closing at closes ⊢
    cases closes with
    | nothing =>
        refine ⟨by simp, fun _ => rfl, by simp, ?_⟩
        rintro ⟨call, impossible, _⟩
        cases impossible
    | joined join wordy last =>
        obtain ⟨call, member, isWord⟩ := wordy
        refine ⟨⟨(nomatch ·), fun wordless => ?_⟩, (nomatch ·), fun fault => ?_, ?_⟩
        · rw [wordless call member] at isWord
          cases isWord
        · exact ⟨fun same => ⟨(Except.error.inj same).symm, join, last⟩,
            fun ⟨same, _⟩ => congrArg Except.error same.symm⟩
        · exact fun _ unjoined => (unjoined ⟨join, last⟩).elim
    | @whole line alternating output written word last =>
        have isTaken := List.mem_of_getLast? last
        have member := (List.mem_filter.mp isTaken).1
        refine ⟨⟨(nomatch ·), fun wordless => ?_⟩, (nomatch ·), fun fault => ?_, ?_⟩
        · cases wordless _ member
        · refine ⟨(nomatch ·), fun ⟨_, join, alsoLast⟩ => ?_⟩
          rw [last] at alsoLast
          cases alsoLast
        · exact fun _ _ => ⟨line, output, rfl, alternating, written, rfl⟩

/-- Calls for `a | b &`, of which three are refused; one of these is made again when the other two
are left out. -/
theorem refused_calls_leave_no_trace_of_three :
    let calls : List DraftCall := [.word "", .word "a", .connective .pipe, .connective .or,
      .word "b", .redirect .inherited, .word "c", .background]
    let kept : List CallOutcome := [(.word "a", none), (.connective .pipe, none),
      (.connective .or, some .noOperandBetween), (.word "b", none), (.redirect .inherited, none),
      (.background, none)]
    let line : CommandLine := ⟨[.command (.ofWords ["a"]), .connective .pipe,
      .command (.ofWords ["b"])], .inherited, true⟩
    let refused := (DraftCall.connective .or).make.on (empty.offerAll (calls.take 3))
    refused.1 = .error .noOperandBetween ∧ refused.2 = empty.offerAll (calls.take 3) ∧
      kept.Sublist (empty.transcript calls) ∧
      kept.filter CallOutcome.isTaken = (empty.transcript calls).filter CallOutcome.isTaken ∧
      empty.transcript (kept.map Prod.fst) = kept ∧
      (empty.offerAll (kept.map Prod.fst)).finish = (empty.offerAll calls).finish ∧
      (∃ call ∈ empty.taken calls, call.isWord = true) ∧
      (∃ output, (empty.offerAll calls).finish = .ok (some line) ∧
        output.getD .inherited = line.output ∧
        empty.taken calls = line.items.flatMap Item.calls
          ++ DraftCall.ofModifiers output line.background) ∧
      ∃ (others : List DraftCall) (draft : LineDraft),
        Drafting.on (others.forM DraftCall.make) empty = (.ok (), draft) ∧
          draft.finish = .ok (some line) := by
  intro calls kept line refused
  have isRefused : refused.1 = .error .noOperandBetween := rfl
  have sublist : kept.Sublist (empty.transcript calls) := by decide
  have whole : kept.filter CallOutcome.isTaken
      = (empty.transcript calls).filter CallOutcome.isTaken := by decide
  have wordy : ∃ call ∈ empty.taken calls, call.isWord = true := ⟨.word "a", by decide, rfl⟩
  have finished : (empty.offerAll calls).finish = .ok (some line) := rfl
  have alternating : IsAlternating line.items :=
    .joined (.single ⟨List.cons_ne_nil _ _, by decide⟩) .pipe ⟨List.cons_ne_nil _ _, by decide⟩
  obtain ⟨keeping, leaving, closing, converse⟩ := refused_calls_leave_no_trace
  obtain ⟨same, reached⟩ := leaving calls kept sublist whole
  obtain ⟨_, _, faults, lines⟩ := closing calls
  have unjoined : ¬ ∃ join, ((empty.taken calls).filter DraftCall.isPlaced).getLast?
      = some (.connective join) := by
    intro joined
    have impossible := (faults .noRightOperand).mpr ⟨rfl, joined⟩
    rw [finished] at impossible
    cases impossible
  obtain ⟨other, output, alsoFinished, _, written, takenEq⟩ := lines wordy unjoined
  have lineEq : other = line := by
    rw [finished] at alsoFinished
    cases alsoFinished
    rfl
  rw [lineEq] at written takenEq
  exact ⟨isRefused, keeping _ _ _ isRefused, sublist, whole, same, reached, wordy,
    ⟨output, finished, written, takenEq⟩, converse line alternating⟩

end LineDraft

end PipelineShell

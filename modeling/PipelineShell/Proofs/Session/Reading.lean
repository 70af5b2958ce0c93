import PipelineShell.Proofs.Session.Prompts

/-!
Reading the input of the shell. Reads come out of a buffer, which takes from the input when it is
empty: no byte is lost, none is moved, and the session is told of an end only when the input has
one. So a session over the input acts on what the system has replied, whatever the sizes of the
replies and of the reads.
-/

namespace PipelineShell

def Event.arrival? : Event System.interface → Option (List UInt8)
  | ⟨.read _ _, .ok content⟩ => some content
  | ⟨.read _ _, .error _⟩ => some []
  | _ => none

def arrived (events : List (Event System.interface)) : List UInt8 :=
  (events.filterMap Event.arrival?).flatten

theorem arrived_append (events more : List (Event System.interface)) :
    arrived (events ++ more) = arrived events ++ arrived more := by
  rw [arrived, List.filterMap_append, List.flatten_append]
  rfl

def ReadOutcome.content : ReadOutcome → List UInt8
  | .bytes content => content
  | .interrupted => []
  | .failed _ => []

namespace Session

open Routine ReadOutcome

variable {prompt : Option String} {shell last : Shell} {reader : LineReader} {chunkSize : Nat}
  {held rest left : List UInt8} {asked events : List (Event System.interface)}
  {outcome : ReadOutcome} {moments : List Moment} {ending : Ending}

/-! ### One read -/

/-- The ways a read of the input may go, by what is in the buffer before and behind it. -/
inductive Fetches (chunkSize : Nat) :
    List UInt8 → List (Event System.interface) → ReadOutcome → List UInt8 → Prop where
  /-- Nothing is asked for while there is something in the buffer. -/
  | buffered {held : List UInt8} (someHeld : held ≠ []) :
      Fetches chunkSize held [] (.bytes (held.take chunkSize)) (held.drop chunkSize)
  | past (content : List UInt8) (large : inputBuffer ≤ chunkSize) :
      Fetches chunkSize [] [⟨.read Fd.input chunkSize, .ok content⟩] (.bytes content) []
  | filled (content : List UInt8) (small : chunkSize < inputBuffer) :
      Fetches chunkSize [] [⟨.read Fd.input inputBuffer, .ok content⟩]
        (.bytes (content.take chunkSize)) (content.drop chunkSize)
  | refused (errno : Errno) :
      Fetches chunkSize [] [⟨.read Fd.input (max chunkSize inputBuffer), .error errno⟩]
        (.ofReply (.error errno)) []

private theorem fetches_of_leads (leads : (readInput chunkSize held).Leads asked (outcome, rest)) :
    Fetches chunkSize held asked outcome rest := by
  cases held with
  | cons byte content =>
      obtain ⟨nothing, answerEq⟩ := Leads.of_pure leads
      cases answerEq
      rw [nothing]
      exact .buffered (List.cons_ne_nil _ _)
  | nil =>
      rw [readInput, if_neg (by decide)] at leads
      by_cases large : inputBuffer ≤ chunkSize
      · rw [if_pos large] at leads
        obtain ⟨reply, back, split, returned⟩ := Leads.of_ask leads
        obtain ⟨nothing, answerEq⟩ := returned.of_pure
        cases answerEq
        rw [split, nothing]
        cases reply with
        | ok content => exact .past content large
        | error errno =>
            have refused := @Fetches.refused chunkSize errno
            rw [Nat.max_eq_left large] at refused
            exact refused
      · rw [if_neg large] at leads
        have small : chunkSize < inputBuffer := Nat.lt_of_not_le large
        obtain ⟨reply, back, split, returned⟩ := Leads.of_ask leads
        rw [split]
        cases reply with
        | ok content =>
            obtain ⟨nothing, answerEq⟩ := Leads.of_pure returned
            cases answerEq
            rw [nothing]
            exact .filled content small
        | error errno =>
            obtain ⟨nothing, answerEq⟩ := Leads.of_pure returned
            cases answerEq
            have refused := @Fetches.refused chunkSize errno
            rw [Nat.max_eq_right (Nat.le_of_lt small)] at refused
            rw [nothing]
            exact refused

/-- What was in the buffer and what has arrived is given out or in the buffer again. -/
theorem Fetches.kept (fetches : Fetches chunkSize held asked outcome rest) :
    held ++ arrived asked = outcome.content ++ rest := by
  cases fetches with
  | buffered someHeld => simp [arrived, content]
  | past content large => simp [arrived, Event.arrival?, ReadOutcome.content]
  | filled content small => simp [arrived, Event.arrival?, ReadOutcome.content]
  | refused errno =>
      have silent : (ReadOutcome.ofReply (.error errno)).content = [] := by
        cases errno <;> rfl
      rw [silent]
      rfl

theorem Fetches.only_reads (fetches : Fetches chunkSize held asked outcome rest) :
    asked.filter (·.arrival?.isNone) = [] := by
  cases fetches <;> rfl

theorem Fetches.rest_of_closing (fetches : Fetches chunkSize held asked outcome rest)
    (someBytes : 0 < chunkSize) (closes : closing? [outcome] ≠ none) : rest = [] := by
  have some_taken : ∀ {bytes : List UInt8}, closing? [.bytes (bytes.take chunkSize)] ≠ none →
      bytes = [] := by
    intro bytes ends
    cases bytes with
    | nil => rfl
    | cons byte others =>
        obtain ⟨size, sizeEq⟩ := Nat.exists_eq_succ_of_ne_zero (Nat.ne_of_gt someBytes)
        rw [sizeEq] at ends
        exact absurd rfl ends
  cases fetches with
  | buffered someHeld => exact absurd (some_taken closes) someHeld
  | past content large => rfl
  | filled content small =>
      rw [some_taken closes]
      exact List.drop_nil
  | refused errno => rfl

/-! ### All reads -/

theorem Supplied.kept (supplied : Supplied (readInput chunkSize) held moments events left)
    (plain : (calls moments).filterMap Event.arrival? = []) :
    held ++ arrived events = (reads moments).flatMap content ++ left ∧
      events.filter (·.arrival?.isNone) = calls moments := by
  induction supplied with
  | nothing held => exact ⟨List.append_nil held, rfl⟩
  | called event later ih =>
      rw [calls_ofCall_cons, List.filterMap_cons] at plain
      cases isCall : event.arrival? with
      | some content =>
          rw [isCall] at plain
          cases plain
      | none =>
          rw [isCall] at plain
          obtain ⟨keptLater, callsEq⟩ := ih plain
          refine ⟨?_, ?_⟩
          · rw [arrived, List.filterMap_cons, isCall]
            exact keptLater
          · rw [List.filter_cons_of_pos (by rw [isCall]; rfl), callsEq]
            rfl
  | read answered later ih =>
      have fetches := fetches_of_leads answered
      obtain ⟨keptLater, callsEq⟩ := ih plain
      refine ⟨?_, ?_⟩
      · rw [arrived_append, ← List.append_assoc, fetches.kept, List.append_assoc, keptLater,
          reads_ofRead_cons, List.flatMap_cons, List.append_assoc]
      · rw [List.filter_append, fetches.only_reads, callsEq]
        rfl

theorem Supplied.left_of_silent {ρ : Type}
    {source : ρ → Routine System.interface (ReadOutcome × ρ)} {first last : ρ}
    (supplied : Supplied source first moments events last) (silent : reads moments = []) :
    last = first := by
  induction supplied with
  | nothing rest => rfl
  | called event later ih => exact ih silent
  | read answered later ih => cases silent

theorem Supplied.left_of_closing
    (supplied : Supplied (readInput chunkSize) held moments events left)
    (someBytes : 0 < chunkSize) (isLast : (reads moments).getLast? = some outcome)
    (closes : closing? [outcome] ≠ none) : left = [] := by
  induction supplied with
  | nothing held => cases isLast
  | called event later ih => exact ih isLast
  | @read held next left given moments asked events answered later ih =>
      rw [reads_ofRead_cons] at isLast
      cases laterEq : reads moments with
      | nil =>
          rw [laterEq] at isLast
          cases isLast
          rw [later.left_of_silent laterEq]
          exact (fetches_of_leads answered).rest_of_closing someBytes closes
      | cons second others =>
          rw [laterEq, List.getLast?_cons_cons, ← laterEq] at isLast
          exact ih isLast

/-! ### The session -/

private theorem overlooksLines_arrival : Shell.OverlooksLines Event.arrival? where
  toOverlooksDescriptors := ⟨fun _ _ _ => rfl, fun _ => rfl, fun _ _ _ => rfl, fun _ _ => rfl⟩
  fork _ _ := rfl
  wait _ _ := rfl

private theorem arrival?_of_isOwn (event : Event System.interface) (own : event.request.IsOwn) :
    event.arrival? = none := by
  obtain ⟨request, reply⟩ := event
  cases own <;> rfl

theorem Course.arrivals_eq (course : Course prompt shell reader moments ending last) :
    (calls moments).filterMap Event.arrival? = [] :=
  course.never overlooksLines_arrival arrival?_of_isOwn (fun _ _ => rfl) (fun _ _ => rfl)

private theorem bytesOf_eq_flatMap {made : List ReadOutcome}
    (isOpen : closing? made.dropLast = none) :
    bytesOf made = made.flatMap content := by
  induction made with
  | nil => rfl
  | cons outcome rest ih =>
      cases rest with
      | nil =>
          cases outcome with
          | interrupted => rfl
          | failed message => rfl
          | bytes content => cases content <;> rfl
      | cons second others =>
          rw [List.dropLast_cons_cons] at isOpen
          cases outcome with
          | interrupted => exact ih isOpen
          | failed message => cases isOpen
          | bytes content =>
              cases content with
              | nil => cases isOpen
              | cons byte content => exact congrArg (byte :: content ++ ·) (ih isOpen)

private theorem exists_closing_read {made : List ReadOutcome}
    (isOpen : closing? made.dropLast = none)
    (closes : closing? made ≠ none) :
    ∃ outcome, made.getLast? = some outcome ∧ closing? [outcome] ≠ none := by
  cases isLast : made.getLast? with
  | none =>
      rw [List.getLast?_eq_none_iff.mp isLast] at closes
      exact absurd rfl closes
  | some outcome =>
      refine ⟨outcome, rfl, ?_⟩
      rw [← List.dropLast_append_getLast? outcome isLast, closing?_append, isOpen,
        Option.none_or] at closes
      exact closes

/-- A session over the input of the shell, whatever the sizes of the replies and of the reads. It is
one of the sessions there are; besides what they ask for, the input is read; and the bytes that have
arrived are those that it has been given, and those still in the buffer. If it is not cut off, then
it is accounted for by its reads; and unless a line has asked to leave, it has acted on all that has
arrived. -/
theorem runInput_acts_on_arrived {limit : Nat} {ended : SessionEnd} (someBytes : 0 < chunkSize)
    (leads : (runInput prompt chunkSize shell limit).Leads events ended)
    (staying : shell.exit = none) :
    ∃ moments left, (drive prompt shell limit).Leads moments ended ∧
      Paced prompt shell moments ended ∧
      events.filter (·.arrival?.isNone) = calls moments ∧
      arrived events = bytesOf (reads moments) ++ left ∧
      (ended.ending ≠ .cutOff → ∃ acts, Performs prompt shell acts (calls moments) ended.shell ∧
        Account shell (reads moments) acts ended ∧
        (ended.shell.exit = none → acts.map Act.reading
          = Stream.closedReadings (arrived events) (closing? (reads moments)))) := by
  obtain ⟨moments, left, driven, supplied⟩ := exists_supplied_of_leads leads
  obtain ⟨course, count, _⟩ := course_of_drive driven
  obtain ⟨kept, callsEq⟩ := supplied.kept course.arrivals_eq
  obtain ⟨isOpen, _⟩ := course.isOpen
  rw [List.nil_append, ← bytesOf_eq_flatMap isOpen] at kept
  refine ⟨moments, left, driven, course.paced count staying, callsEq, kept, fun finished => ?_⟩
  obtain ⟨acts, serves⟩ :=
    course.exists_serves LineReader.wellPlaced_empty List.not_mem_nil staying finished
  have account := serves.account staying (List.prefix_append _ _) count
  refine ⟨acts, serves.carries.performs, account, fun stays => ?_⟩
  obtain ⟨outcome, isLast, closes⟩ :=
    exists_closing_read isOpen (Option.isSome_iff_ne_none.mp (serves.ends stays))
  have nothingLeft := supplied.left_of_closing someBytes isLast closes
  rw [serves.carries.whole stays, kept, nothingLeft, List.append_nil]
  rfl

end Session

end PipelineShell

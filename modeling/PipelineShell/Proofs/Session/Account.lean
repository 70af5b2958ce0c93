import PipelineShell.Proofs.Session.Batch
import PipelineShell.Proofs.System.Kernel

/-!
The account of a session. It names what a session comes to by its input and by what its lines come
to, and by nothing else: two sessions over one input, in which the lines come to the same, have done
the same and end in the same way, however the input has been cut into reads.
-/

namespace PipelineShell.Session

open Routine ReadOutcome

/-- The reads of a session; behind those that are listed the input has ended. -/
def inputOf (outcomes : List ReadOutcome) : List ReadOutcome :=
  outcomes ++ [.bytes []]

/-- What a session over the reads has come to with its acts. -/
structure Account (shell : Shell) (outcomes : List ReadOutcome) (acts : List Act)
    (ended : SessionEnd) : Prop where
  /-- No more reads are made than there are. -/
  enough : ended.reads ≤ (inputOf outcomes).length
  /-- The acts are about the first readings of what has been read, in order. -/
  within : acts.map Act.reading <+: readingsOf [] ((inputOf outcomes).take ended.reads)
  /-- Unless a line has asked to leave, they are about all readings of the input. -/
  whole : ended.shell.exit = none → acts.map Act.reading = readingsOf [] (inputOf outcomes)
  /-- Only the last act may ask to leave. -/
  before : ∀ act ∈ acts.dropLast, act.leaving? = none
  exit : ended.shell.exit = acts.getLast?.bind Act.leaving?
  /-- The line that has asked to leave has come with the last read. -/
  early : ended.shell.exit ≠ none →
    (readingsOf [] ((inputOf outcomes).take (ended.reads - 1))).length < acts.length
  status : ended.shell.lastStatus
    = (acts.filterMap Act.status?).getLast?.getD shell.lastStatus
  ending : ended.ending = endingOf ended.shell (closing? (inputOf outcomes))

variable {shell : Shell} {outcomes others : List ReadOutcome} {acts otherActs : List Act}
  {ended otherEnded : SessionEnd}

theorem Serves.account {prompt : Option String} {made : List ReadOutcome}
    {events : List (Event System.interface)} (staying : shell.exit = none)
    (part : made <+: inputOf outcomes) (count : ended.reads = made.length)
    (serves : Serves prompt shell [] made acts events ended.ending ended.shell) :
    Account shell outcomes acts ended := by
  obtain ⟨more, split⟩ := part
  have madeEq : (inputOf outcomes).take ended.reads = made := by
    rw [← split, count]
    exact List.take_left
  have earlierEq : (inputOf outcomes).take (ended.reads - 1) = made.dropLast := by
    rw [List.dropLast_eq_take, ← count, ← madeEq, List.take_take,
      Nat.min_eq_left (Nat.sub_le _ _)]
  obtain ⟨exitEq, before⟩ := serves.carries.performs.exit_eq staying
  refine ⟨?_, ?_, ?_, before, exitEq, ?_, serves.carries.performs.lastStatus_eq, ?_⟩
  · rw [← split, count, List.length_append]
    exact Nat.le_add_right _ _
  · rw [madeEq]
    exact serves.carries.within
  · intro stays
    rw [serves.carries.whole stays, ← split, readingsOf_of_closed [] more (serves.ends stays)]
  · rw [earlierEq]
    exact serves.early
  · rw [serves.ending, ← split, closing?_append]
    cases exitEq : ended.shell.exit with
    | none =>
        obtain ⟨closing, closingEq⟩ := Option.isSome_iff_exists.mp (serves.ends exitEq)
        rw [closingEq, Option.some_or]
    | some code =>
        have left : ended.shell.exit ≠ none := by
          rw [exitEq]
          exact Option.some_ne_none code
        rw [endingOf_of_left _ left, endingOf_of_left _ left]

theorem Account.within_whole (account : Account shell outcomes acts ended) :
    acts.map Act.reading <+: readingsOf [] (inputOf outcomes) :=
  account.within.trans (readingsOf_of_part [] (List.take_prefix _ _))

def Agree (acts otherActs : List Act) : Prop :=
  ∀ (index : Nat) (act other : Act), acts[index]? = some act → otherActs[index]? = some other →
    act = other

theorem Account.length_le (account : Account shell outcomes acts ended)
    (other : Account shell others otherActs otherEnded)
    (sameInput : readingsOf [] (inputOf others) = readingsOf [] (inputOf outcomes))
    (agree : Agree acts otherActs) : otherActs.length ≤ acts.length := by
  refine Nat.le_of_not_lt fun shorter => ?_
  cases exitEq : ended.shell.exit with
  | none =>
      have bound := other.within_whole.length_le
      rw [sameInput, ← account.whole exitEq, List.length_map, List.length_map] at bound
      exact Nat.not_le.mpr shorter bound
  | some code =>
      have asked := account.exit
      rw [exitEq] at asked
      obtain ⟨act, isLast, leaving⟩ := Option.bind_eq_some_iff.mp asked.symm
      rw [List.getLast?_eq_getElem?] at isLast
      have nonempty : acts.length - 1 < acts.length := (List.getElem?_eq_some_iff.mp isLast).1
      have inside : acts.length - 1 < otherActs.dropLast.length := by
        rw [List.length_dropLast]
        omega
      have reached : otherActs[acts.length - 1]? = some (otherActs.dropLast[acts.length - 1]) := by
        rw [List.getElem_dropLast, List.getElem?_eq_getElem]
      have same := agree _ _ _ isLast reached
      -- The line that has ended one session would be an inner one of the other.
      have stays := other.before _ (List.getElem_mem inside)
      rw [← same, leaving] at stays
      cases stays

/-- Accounts of one input whose acts agree as far as both go are one. -/
theorem Account.unique (account : Account shell outcomes acts ended)
    (other : Account shell others otherActs otherEnded)
    (sameBytes : bytesOf (inputOf others) = bytesOf (inputOf outcomes))
    (sameClosing : closing? (inputOf others) = closing? (inputOf outcomes))
    (agree : Agree acts otherActs) :
    otherActs = acts ∧ otherEnded.ending = ended.ending := by
  have sameInput : readingsOf [] (inputOf others) = readingsOf [] (inputOf outcomes) := by
    rw [readingsOf, readingsOf, sameBytes, sameClosing]
  have backwards : Agree otherActs acts := fun index act otherAct here there =>
    (agree index otherAct act there here).symm
  have sameLength : otherActs.length = acts.length :=
    Nat.le_antisymm (account.length_le other sameInput agree)
      (other.length_le account sameInput.symm backwards)
  have sameActs : otherActs = acts := by
    refine List.ext_getElem sameLength fun index here there => ?_
    exact backwards index _ _ (List.getElem?_eq_getElem here) (List.getElem?_eq_getElem there)
  refine ⟨sameActs, ?_⟩
  have sameExit : otherEnded.shell.exit = ended.shell.exit := by
    rw [other.exit, account.exit, sameActs]
  have sameStatus : otherEnded.shell.lastStatus = ended.shell.lastStatus := by
    rw [other.status, account.status, sameActs]
  rw [other.ending, account.ending, sameClosing]
  unfold endingOf
  rw [sameExit, sameStatus]

/-! ### Listed reads -/

private theorem closing?_of_inputOf (outcomes more : List ReadOutcome) :
    closing? (inputOf outcomes ++ more) ≠ none := by
  rw [inputOf, closing?_append, closing?_append]
  intro nothing
  rw [Option.or_eq_none_iff, Option.or_eq_none_iff] at nothing
  cases nothing.1.2

private theorem prefix_inputOf {made left : List ReadOutcome} {ends : Nat}
    (answered : made ++ left = outcomes ++ List.replicate ends (.bytes []))
    (isOpen : closing? made.dropLast = none) : made <+: inputOf outcomes := by
  have inside : made <+: inputOf outcomes ++ List.replicate ends (.bytes []) := by
    refine ⟨left ++ [.bytes []], ?_⟩
    rw [← List.append_assoc, answered, inputOf, List.append_assoc, List.append_assoc,
      List.singleton_append, ← List.replicate_succ, List.replicate_succ']
  rcases List.prefix_or_prefix_of_prefix inside (List.prefix_append _ _) with part | ⟨more, split⟩
  · exact part
  · rcases List.eq_nil_or_concat more with nothing | ⟨front, outcome, moreEq⟩
    · exact ⟨[], by rw [← split, nothing, List.append_nil, List.append_nil]⟩
    · rw [List.concat_eq_append] at moreEq
      rw [← split, moreEq, ← List.append_assoc, List.dropLast_concat] at isOpen
      exact absurd isOpen (closing?_of_inputOf outcomes front)

/-- A session over a list of outcomes is never cut off. It makes the first reads of its input. -/
theorem exists_driven {prompt : Option String} {events : List (Event System.interface)}
    (leads : (Session.run prompt shell outcomes).Leads events ended) :
    ∃ moments, (drive prompt shell (outcomes.length + 1)).Leads moments ended ∧
      ended.ending ≠ .cutOff ∧ events = calls moments ∧
      reads moments = (inputOf outcomes).take ended.reads := by
  obtain ⟨moments, left, driven, supplied⟩ := exists_supplied_of_leads leads
  obtain ⟨eventsEq, ends, answered⟩ := supplied.of_listed
  obtain ⟨course, count, full⟩ := course_of_drive driven
  obtain ⟨isOpen, openOfCut⟩ := course.isOpen
  have part := prefix_inputOf answered isOpen
  refine ⟨moments, driven, fun cut => ?_, eventsEq, ?_⟩
  · -- all reads of the input would have been made, also the one that ends it
    have sameLength : (reads moments).length = (inputOf outcomes).length := by
      rw [full cut, inputOf, List.length_append]
      rfl
    have whole := part.eq_of_length sameLength
    have goesOn := openOfCut cut
    rw [whole, ← List.append_nil (inputOf outcomes)] at goesOn
    exact closing?_of_inputOf outcomes [] goesOn
  · rw [count]
    exact List.prefix_iff_eq_take.mp part

/-! ### Sessions -/

theorem exists_account {prompt : Option String} {events : List (Event System.interface)}
    (leads : (Session.run prompt shell outcomes).Leads events ended)
    (staying : shell.exit = none) :
    ∃ acts, Performs prompt shell acts events ended.shell ∧ Account shell outcomes acts ended := by
  obtain ⟨moments, driven, finished, eventsEq, readsEq⟩ := exists_driven leads
  obtain ⟨course, count, _⟩ := course_of_drive driven
  obtain ⟨acts, serves⟩ :=
    course.exists_serves LineReader.wellPlaced_empty List.not_mem_nil staying finished
  have part : reads moments <+: inputOf outcomes := by
    rw [readsEq]
    exact List.take_prefix _ _
  rw [eventsEq]
  exact ⟨acts, serves.carries.performs, serves.account staying part count⟩

/-- A session, whatever its reads are and however its lines come out. Its acts are on the readings
of its input one after another, it ends with the first line that asks to leave or with the input,
and its account leaves nothing else open: neither how the input is cut into reads nor where reads
are broken off makes a difference. -/
theorem session_acts_on_input {prompt : Option String} {events : List (Event System.interface)}
    (leads : (Session.run prompt shell outcomes).Leads events ended)
    (staying : shell.exit = none) :
    ∃ acts, Performs prompt shell acts events ended.shell ∧
      Account shell outcomes acts ended ∧
      ∀ others otherActs otherEnded, Account shell others otherActs otherEnded →
        bytesOf (inputOf others) = bytesOf (inputOf outcomes) →
        closing? (inputOf others) = closing? (inputOf outcomes) → Agree acts otherActs →
        otherActs = acts ∧ otherEnded.ending = ended.ending := by
  obtain ⟨acts, performs, account⟩ := exists_account leads staying
  refine ⟨acts, performs, account, ?_⟩
  intro others otherActs otherEnded other sameBytes sameClosing agree
  exact account.unique other sameBytes sameClosing agree

/-- The input `exit 4` and a second line without its terminator, in three reads. -/
theorem session_acts_on_input_of_exit :
    let outcomes : List ReadOutcome := [.bytes "exi".toUTF8.toList, .interrupted,
      .bytes "t 4\nx".toUTF8.toList]
    let ended : SessionEnd := ⟨.left 4, ⟨.empty, 4, some 4⟩, 3⟩
    ∃ events acts, (Session.run none .new outcomes).Leads events ended ∧ Shell.new.exit = none ∧
      Account .new outcomes acts ended ∧
      acts.map Act.reading = [.line ⟨[.command ⟨"exit", ["exit", "4"]⟩], .inherited, false⟩] := by
  intro outcomes ended
  obtain ⟨events, leads⟩ := exists_leads_run (Kernel.serve Pid.mk Kernel.refuse)
    (Session.run none .new outcomes) (.start (.empty : Descriptors (Endpoint Unit)))
  have endedEq : ((Session.run none .new outcomes).run (Kernel.serve Pid.mk Kernel.refuse)
      (.start (.empty : Descriptors (Endpoint Unit)))).1 = ended := by
    decide +kernel
  rw [endedEq] at leads
  obtain ⟨acts, performs, account, _⟩ := session_acts_on_input leads rfl
  refine ⟨events, acts, leads, rfl, account, ?_⟩
  have first : readingsOf [] ((inputOf outcomes).take ended.reads)
      = [.line ⟨[.command ⟨"exit", ["exit", "4"]⟩], .inherited, false⟩] := by
    decide +kernel
  have within := account.within
  rw [first] at within
  have some_acts : 0 < acts.length :=
    Nat.lt_of_le_of_lt (Nat.zero_le _) (account.early (Option.some_ne_none _))
  refine within.eq_of_length (Nat.le_antisymm within.length_le ?_)
  rw [List.length_map]
  exact some_acts

end PipelineShell.Session

import PipelineShell.Proofs.Session.Acts
import PipelineShell.Proofs.Session.Input
import PipelineShell.Proofs.Session.Rounds

/-!
A session as a batch. Whatever the reads, a session acts on the readings of its input one after
another, up to the first line that asks to leave, and makes no read behind the one that has brought
that line. How the input is cut into reads does not matter.
-/

namespace PipelineShell.Session

open Routine ReadOutcome

variable {prompt : Option String} {shell middle last : Shell} {acts further : List Act}
  {events more : List (Event System.interface)}

/-! ### Acting on readings -/

private theorem isComplaint_of_complain {text : String} {value : Unit}
    (leads : (System.complain text).Leads events value) :
    ∀ event ∈ events, event.IsComplaint := by
  intro event member
  rw [Leads.of_request leads] at member
  exact ⟨text, List.mem_singleton.mp member⟩

private theorem exists_acts_of_runLine {line : CommandLine}
    (leads : (runLine shell line).Leads events last) :
    ∃ act, act.reading = .line line ∧ Acts shell act events last := by
  obtain ⟨front, ⟨outcome, reached⟩, back, split, ran, rest⟩ := leads.of_bind
  have settled : last = settle reached outcome ∧ ∀ event ∈ back, event.IsComplaint := by
    cases outcome with
    | error fault =>
        obtain ⟨written, _, _, splitBack, complained, returned⟩ := Leads.of_bind rest
        obtain ⟨nothing, lastEq⟩ := returned.of_pure
        rw [splitBack, nothing, List.append_nil]
        exact ⟨lastEq, isComplaint_of_complain complained⟩
    | ok completion =>
        have silent : ∀ event ∈ ([] : List (Event System.interface)), event.IsComplaint :=
          List.forall_mem_nil _
        cases completion with
        | done status =>
            obtain ⟨nothing, lastEq⟩ := Leads.of_pure rest
            rw [nothing]
            exact ⟨lastEq, silent⟩
        | background id =>
            dsimp only at rest
            split at rest
            · obtain ⟨nothing, lastEq⟩ := Leads.of_pure rest
              rw [nothing]
              exact ⟨lastEq, silent⟩
            · obtain ⟨written, _, _, splitBack, complained, returned⟩ := Leads.of_bind rest
              obtain ⟨nothing, lastEq⟩ := returned.of_pure
              rw [splitBack, nothing, List.append_nil]
              exact ⟨lastEq, isComplaint_of_complain complained⟩
  rw [split, settled.1]
  exact ⟨.ran line outcome reached.exit, rfl, .ran ran settled.2⟩

/-- The readings have been acted on in order, all of them unless one has asked to leave. -/
structure Carries (prompt : Option String) (shell : Shell) (readings : List Reading)
    (acts : List Act) (events : List (Event System.interface)) (last : Shell) : Prop where
  performs : Performs prompt shell acts events last
  within : acts.map Act.reading <+: readings
  whole : last.exit = none → acts.map Act.reading = readings

private theorem carries_nothing (prompt : Option String) (shell : Shell) :
    Carries prompt shell [] [] [] shell :=
  ⟨.done shell, List.nil_prefix, fun _ => rfl⟩

theorem Carries.trans {readings others : List Reading}
    (first : Carries prompt shell readings acts events middle) (staying : middle.exit = none)
    (second : Carries prompt middle others further more last) :
    Carries prompt shell (readings ++ others) (acts ++ further) (events ++ more) last := by
  refine ⟨first.performs.trans second.performs, ?_, fun stays => ?_⟩
  · rw [List.map_append, first.whole staying]
    exact (List.prefix_append_right_inj _).mpr second.within
  · rw [List.map_append, first.whole staying, second.whole stays]

private theorem carries_act (prompt : Option String) {act : Act} (staying : shell.exit = none)
    (acting : Acts shell act events last) :
    Carries prompt shell [act.reading] [act] events last := by
  have performs : Performs prompt shell [act] (events ++ []) last :=
    .acted staying acting (.done last)
  rw [List.append_nil] at performs
  exact ⟨performs, List.prefix_rfl, fun _ => rfl⟩

theorem Carries.of_left {readings : List Reading} (others : List Reading)
    (carries : Carries prompt shell readings acts events last) (left : last.exit ≠ none) :
    Carries prompt shell (readings ++ others) acts events last :=
  ⟨carries.performs, carries.within.trans (List.prefix_append _ _), fun stays => (left stays).elim⟩

private theorem exists_carries_of_perform (prompt : Option String) {readings : List Reading}
    (leads : (perform shell readings).Leads events last) (staying : shell.exit = none)
    (complete : ∀ reading ∈ readings, reading ≠ .incomplete) :
    ∃ acts, Carries prompt shell readings acts events last := by
  induction readings generalizing shell events with
  | nil =>
      obtain ⟨nothing, lastEq⟩ := leads.of_pure
      rw [nothing, lastEq]
      exact ⟨[], carries_nothing prompt shell⟩
  | cons reading rest ih =>
      obtain ⟨here, behind⟩ := List.forall_mem_cons.mp complete
      cases reading with
      | line line =>
          obtain ⟨front, next, back, split, ran, later⟩ := Leads.of_bind leads
          obtain ⟨act, same, acting⟩ := exists_acts_of_runLine ran
          have first := carries_act prompt staying acting
          rw [same] at first
          rw [split]
          split at later
          · rename_i leaving
            obtain ⟨nothing, lastEq⟩ := Leads.of_pure later
            rw [nothing, List.append_nil, lastEq]
            refine ⟨[act], first.of_left rest fun stays => ?_⟩
            rw [stays] at leaving
            cases leaving
          · rename_i stays
            have staysNone : next.exit = none := Option.not_isSome_iff_eq_none.mp stays
            obtain ⟨others, carries⟩ := ih later staysNone behind
            exact ⟨act :: others, first.trans staysNone carries⟩
      | fault fault =>
          obtain ⟨front, _, back, split, complained, later⟩ := Leads.of_bind leads
          obtain ⟨others, carries⟩ := ih later staying behind
          have acting : Acts shell (.refused fault) front { shell with lastStatus := 2 } :=
            .refused (isComplaint_of_complain complained)
          have first := carries_act prompt staying acting
          rw [split]
          exact ⟨_, first.trans staying carries⟩
      | blank =>
          obtain ⟨others, carries⟩ := ih leads staying behind
          exact ⟨_, (carries_act prompt staying .passed).trans staying carries⟩
      | incomplete => exact (here rfl).elim

theorem Carries.prepared {readings : List Reading} (staying : middle.exit = none)
    (carries : Carries prompt shell readings acts events middle)
    (leads : (prepareRead prompt middle).Leads more last) :
    Carries prompt shell readings acts (events ++ more) last := by
  have nothing : Carries prompt middle [] [] more last :=
    ⟨.of_prepareRead leads, List.nil_prefix, fun _ => rfl⟩
  have both := carries.trans staying nothing
  rw [List.append_nil, List.append_nil] at both
  exact both

/-! ### Reads -/

private theorem ne_incomplete_of_mem_readings {bytes : List UInt8} :
    ∀ reading ∈ Stream.readings bytes, reading ≠ .incomplete := by
  intro reading member
  obtain ⟨line, _, readingEq⟩ := List.mem_map.mp member
  rw [← readingEq]
  exact Reading.ofLine_ne_incomplete line

def endingOf (shell : Shell) (closing : Option Closing) : Ending :=
  match shell.exit with
  | some code => .left code
  | none =>
      match closing with
      | some (.failed message) => .readFailed message
      | _ => .left shell.lastStatus

private theorem endingOf_atEnd (shell : Shell) :
    endingOf shell (some .atEnd) = .left shell.leavingCode := by
  unfold endingOf Shell.leavingCode
  cases shell.exit <;> rfl

theorem endingOf_of_left (closing : Option Closing) (left : shell.exit ≠ none) :
    endingOf shell closing = .left shell.leavingCode := by
  unfold endingOf Shell.leavingCode
  cases exitEq : shell.exit with
  | none => exact (left exitEq).elim
  | some code => rfl

private theorem endingOf_failed (message : String) (staying : shell.exit = none) :
    endingOf shell (some (.failed message)) = .readFailed message := by
  unfold endingOf
  rw [staying]

private theorem exists_carries_of_finishInput (prompt : Option String) {reader : LineReader}
    (placed : reader.WellPlaced)
    (unterminated : Byte.lineFeed ∉ reader.unread) (staying : shell.exit = none)
    (leads : (finishInput shell reader).Leads events last) :
    ∃ acts, Carries prompt shell (readingsOf reader.unread [.bytes []]) acts events last := by
  have inputEq : readingsOf reader.unread [.bytes []]
      = Stream.closedReadings reader.unread (some .atEnd) := by
    rw [readingsOf, bytesOf, List.append_nil]
    rfl
  rw [inputEq, Stream.closedReadings, Stream.closed, Stream.remainder_of_absent unterminated]
  rw [finishInput] at leads
  split at leads
  · rename_i leftover
    rw [if_pos ⟨rfl, leftover⟩]
    rw [(placed.feed _).takeLines_eq.1, LineReader.unread_feed] at leads
    exact exists_carries_of_perform prompt leads staying ne_incomplete_of_mem_readings
  · rename_i blank
    rw [if_neg fun both => blank both.2, Stream.readings, Stream.lines_of_absent unterminated]
    obtain ⟨nothing, lastEq⟩ := Leads.of_pure leads
    rw [nothing, lastEq]
    exact ⟨[], carries_nothing prompt shell⟩

private theorem readingsOf_of_silent {held : List UInt8} (unterminated : Byte.lineFeed ∉ held)
    {outcome : ReadOutcome} (silent : bytesOf [outcome] = [])
    (goesOn : closing? [outcome] ≠ some .atEnd) : readingsOf held [outcome] = [] := by
  rw [readingsOf, silent, List.append_nil, Stream.closedReadings_of_open _ goesOn, Stream.readings,
    Stream.lines_of_absent unterminated]
  rfl

private theorem exists_carries_of_feed (prompt : Option String) {reader : LineReader}
    (placed : reader.WellPlaced) (staying : shell.exit = none) {byte : UInt8}
    {content : List UInt8}
    (performed : (perform shell (reader.feed (byte :: content)).takeLines.1).Leads events last) :
    ∃ acts, Carries prompt shell (readingsOf reader.unread [.bytes (byte :: content)]) acts events
      last := by
  have goesOn : closing? [.bytes (byte :: content)] ≠ some .atEnd := by
    intro impossible
    cases impossible
  have inputEq : readingsOf reader.unread [.bytes (byte :: content)]
      = Stream.readings (reader.unread ++ byte :: content) := by
    rw [readingsOf, Stream.closedReadings_of_open _ goesOn, bytesOf, bytesOf, List.append_nil]
  rw [(placed.feed _).takeLines_eq.1, LineReader.unread_feed] at performed
  rw [inputEq]
  exact exists_carries_of_perform prompt performed staying ne_incomplete_of_mem_readings

private theorem unread_of_feed {reader : LineReader} (placed : reader.WellPlaced) (byte : UInt8)
    (content : List UInt8) :
    (reader.feed (byte :: content)).takeLines.2.WellPlaced ∧
      (reader.feed (byte :: content)).takeLines.2.unread
        = Stream.remainder (reader.unread ++ bytesOf [.bytes (byte :: content)]) := by
  obtain ⟨_, laterPlaced, laterUnread⟩ := (placed.feed (byte :: content)).takeLines_eq
  refine ⟨laterPlaced, laterUnread.trans ?_⟩
  rw [LineReader.unread_feed, bytesOf, bytesOf, List.append_nil]

theorem exists_carries_of_ended {reader : LineReader} (placed : reader.WellPlaced)
    (unterminated : Byte.lineFeed ∉ reader.unread) (staying : shell.exit = none)
    {outcome : ReadOutcome} {ending : Ending}
    (leads : (takeRead prompt shell reader outcome).Leads events (.ended ending last)) :
    ∃ acts, Carries prompt shell (readingsOf reader.unread [outcome]) acts events last ∧
      (last.exit = none → (closing? [outcome]).isSome) ∧
      ending = endingOf last (closing? [outcome]) := by
  cases readPath_of_leads leads with
  | failed message =>
      have goesOn : closing? [.failed message] ≠ some .atEnd := by
        intro impossible
        cases impossible
      rw [readingsOf_of_silent unterminated rfl goesOn]
      exact ⟨[], carries_nothing prompt shell, fun _ => rfl, (endingOf_failed message staying).symm⟩
  | closed finished =>
      obtain ⟨acts, carries⟩ :=
        exists_carries_of_finishInput prompt placed unterminated staying finished
      exact ⟨acts, carries, fun _ => rfl, (endingOf_atEnd last).symm⟩
  | left performed leaving =>
      obtain ⟨acts, carries⟩ := exists_carries_of_feed prompt placed staying performed
      exact ⟨acts, carries, fun stays => (leaving stays).elim, (endingOf_of_left _ leaving).symm⟩

/-! ### Retries -/

private theorem bytesOf_of_retries (retries : Nat) (others : List ReadOutcome) :
    bytesOf (List.replicate retries .interrupted ++ others) = bytesOf others := by
  induction retries with
  | zero => rfl
  | succ retries ih => exact ih

private theorem closing?_of_retries (retries : Nat) (others : List ReadOutcome) :
    closing? (List.replicate retries .interrupted ++ others) = closing? others := by
  induction retries with
  | zero => rfl
  | succ retries ih => exact ih

theorem readingsOf_of_retries (held : List UInt8) (retries : Nat) (others : List ReadOutcome) :
    readingsOf held (List.replicate retries .interrupted ++ others) = readingsOf held others := by
  rw [readingsOf, readingsOf, bytesOf_of_retries, closing?_of_retries]

theorem readingsOf_nothing {held : List UInt8} (unterminated : Byte.lineFeed ∉ held) :
    readingsOf held [] = [] := by
  have silent : readingsOf held [.interrupted] = [] :=
    readingsOf_of_silent unterminated rfl (by decide)
  exact silent

private theorem readingsOf_of_only_retries {held : List UInt8} (unterminated : Byte.lineFeed ∉ held)
    (retries : Nat) : readingsOf held (List.replicate retries .interrupted) = [] := by
  have same := readingsOf_of_retries held retries []
  rw [List.append_nil] at same
  rw [same, readingsOf_nothing unterminated]

/-! ### The read that ends the input -/

private theorem closing?_dropLast {made : List ReadOutcome} (isOpen : closing? made = none) :
    closing? made.dropLast = none := by
  rcases List.eq_nil_or_concat made with nothing | ⟨front, outcome, split⟩
  · rw [nothing]
    rfl
  · rw [List.concat_eq_append] at split
    rw [split, closing?_append, Option.or_eq_none_iff] at isOpen
    rw [split, List.dropLast_concat]
    exact isOpen.1

theorem closing?_dropLast_append {front made : List ReadOutcome} (isOpen : closing? front = none)
    (later : closing? made.dropLast = none) : closing? (front ++ made).dropLast = none := by
  cases made with
  | nil =>
      rw [List.append_nil]
      exact closing?_dropLast isOpen
  | cons outcome rest =>
      rw [List.dropLast_append_of_ne_nil (List.cons_ne_nil _ _), closing?_append, isOpen, later]
      rfl

private theorem closing?_of_only_retries (retries : Nat) :
    closing? (List.replicate retries .interrupted) = none := by
  have same := closing?_of_retries retries []
  rw [List.append_nil] at same
  exact same

/-- Only the last read may have ended the input, and none has where the session is cut off. -/
theorem Course.isOpen {reader : LineReader} {moments : List Moment} {ending : Ending}
    (course : Course prompt shell reader moments ending last) :
    closing? (reads moments).dropLast = none ∧
      (ending = .cutOff → closing? (reads moments) = none) := by
  induction course with
  | cut prepared retries =>
      have nothing := closing?_of_only_retries retries
      rw [reads_due]
      exact ⟨closing?_dropLast nothing, fun _ => nothing⟩
  | ended prepared retries taken =>
      rw [reads_round, List.dropLast_concat]
      exact ⟨closing?_of_only_retries retries, fun cut => absurd cut (ne_cutOff_of_ended taken)⟩
  | @goesOn _ _ _ _ _ _ _ byte content _ _ prepared retries performed staying later ih =>
      have front : closing? (List.replicate retries .interrupted ++ [.bytes (byte :: content)])
          = none :=
        closing?_of_retries retries _
      rw [reads_append, reads_round]
      refine ⟨closing?_dropLast_append front ih.1, fun cut => ?_⟩
      rw [closing?_append, front, ih.2 cut]
      rfl

/-! ### All reads -/

/-- What the reads that have been made have led to, with what was held before them. A session that
is to be left is so because of the last of them. -/
structure Serves (prompt : Option String) (shell : Shell) (held : List UInt8)
    (made : List ReadOutcome) (acts : List Act) (events : List (Event System.interface))
    (ending : Ending) (last : Shell) : Prop where
  some_made : made ≠ []
  carries : Carries prompt shell (readingsOf held made) acts events last
  ends : last.exit = none → (closing? made).isSome
  early : last.exit ≠ none → (readingsOf held made.dropLast).length < acts.length
  ending : ending = endingOf last (closing? made)

theorem Carries.behind_pause {readings : List Reading} {pause : List (Event System.interface)}
    (prepared : (prepareRead prompt shell).Leads pause middle)
    (carries : Carries prompt middle readings acts events last) :
    Carries prompt shell readings acts (pause ++ events) last :=
  ⟨.paused prepared carries.performs, carries.within, carries.whole⟩

private theorem serves_of_ended {reader : LineReader} (placed : reader.WellPlaced)
    (unterminated : Byte.lineFeed ∉ reader.unread) (staying : shell.exit = none)
    {pause acting : List (Event System.interface)} {outcome : ReadOutcome} {ending : Ending}
    (prepared : (prepareRead prompt shell).Leads pause middle) (retries : Nat)
    (taken : (takeRead prompt middle reader outcome).Leads acting (.ended ending last)) :
    ∃ acts, Serves prompt shell reader.unread (List.replicate retries .interrupted ++ [outcome])
      acts (pause ++ acting) ending last := by
  have stays : middle.exit = none := by
    rw [eq_of_prepareRead prepared]
    exact staying
  obtain ⟨acts, carries, ends, endingEq⟩ := exists_carries_of_ended placed unterminated stays taken
  refine ⟨acts, by simp, ?_, ?_, fun left => ?_, ?_⟩
  · rw [readingsOf_of_retries]
    exact carries.behind_pause prepared
  · rw [closing?_of_retries]
    exact ends
  · rw [List.dropLast_concat, readingsOf_of_only_retries unterminated]
    cases acts with
    | nil => exact (left (carries.performs.exit_of_nothing.trans stays)).elim
    | cons act rest => exact Nat.succ_pos _
  · rw [closing?_of_retries]
    exact endingEq

theorem Serves.behind_round {held : List UInt8} {pause acting : List (Event System.interface)}
    {next : Shell} {outcome : ReadOutcome} {made : List ReadOutcome} {ending : Ending}
    (prepared : (prepareRead prompt shell).Leads pause middle) (retries : Nat)
    (carries : Carries prompt middle (readingsOf held [outcome]) acts acting next)
    (staying : next.exit = none) (isOpen : closing? [outcome] = none)
    (serves : Serves prompt next (Stream.remainder (held ++ bytesOf [outcome])) made further more
      ending last) :
    Serves prompt shell held (List.replicate retries .interrupted ++ [outcome] ++ made)
      (acts ++ further) (pause ++ acting ++ more) ending last := by
  have sameClosing : ∀ others, closing? (List.replicate retries .interrupted ++ [outcome] ++ others)
      = closing? others := by
    intro others
    rw [closing?_append, closing?_of_retries, isOpen, Option.none_or]
  have split : ∀ others,
      readingsOf held (List.replicate retries .interrupted ++ [outcome] ++ others)
      = readingsOf held [outcome]
        ++ readingsOf (Stream.remainder (held ++ bytesOf [outcome])) others := by
    intro others
    rw [List.append_assoc, readingsOf_of_retries, readingsOf_append held [outcome] others isOpen]
  refine ⟨by simp, ?_, ?_, fun left => ?_, ?_⟩
  · rw [split]
    exact (carries.behind_pause prepared).trans staying serves.carries
  · rw [sameClosing]
    exact serves.ends
  · have each := congrArg List.length (carries.whole staying)
    rw [List.length_map] at each
    rw [List.dropLast_append_of_ne_nil serves.some_made, split, List.length_append,
      List.length_append, each]
    exact Nat.add_lt_add_left (serves.early left) _
  · rw [sameClosing]
    exact serves.ending

theorem exists_carries_of_goesOn {reader : LineReader} (placed : reader.WellPlaced)
    (staying : shell.exit = none) {pause acting : List (Event System.interface)} {byte : UInt8}
    {content : List UInt8} {next : Shell} (prepared : (prepareRead prompt shell).Leads pause middle)
    (performed : (perform middle (reader.feed (byte :: content)).takeLines.1).Leads acting next) :
    let following := (reader.feed (byte :: content)).takeLines.2
    ∃ acts, Carries prompt middle (readingsOf reader.unread [.bytes (byte :: content)]) acts acting
        next ∧ following.WellPlaced ∧ Byte.lineFeed ∉ following.unread ∧
      following.unread
        = Stream.remainder (reader.unread ++ bytesOf [.bytes (byte :: content)]) := by
  intro following
  have stays : middle.exit = none := by
    rw [eq_of_prepareRead prepared]
    exact staying
  obtain ⟨acts, carries⟩ := exists_carries_of_feed prompt placed stays performed
  obtain ⟨laterPlaced, laterUnread⟩ := unread_of_feed placed byte content
  refine ⟨acts, carries, laterPlaced, ?_, laterUnread⟩
  rw [laterUnread]
  exact Stream.not_mem_remainder _

/-- A session that is not cut off acts on what its reads bring. -/
theorem Course.exists_serves {reader : LineReader} {moments : List Moment} {ending : Ending}
    (course : Course prompt shell reader moments ending last) (placed : reader.WellPlaced)
    (unterminated : Byte.lineFeed ∉ reader.unread) (staying : shell.exit = none)
    (finished : ending ≠ .cutOff) :
    ∃ acts, Serves prompt shell reader.unread (reads moments) acts (calls moments) ending last := by
  induction course with
  | cut prepared retries => exact absurd rfl finished
  | ended prepared retries taken =>
      rw [reads_round, calls_round]
      exact serves_of_ended placed unterminated staying prepared retries taken
  | goesOn prepared retries performed stays later ih =>
      obtain ⟨acts, carries, laterPlaced, cut, laterUnread⟩ :=
        exists_carries_of_goesOn placed staying prepared performed
      obtain ⟨further, serves⟩ := ih laterPlaced cut stays finished
      rw [laterUnread] at serves
      rw [reads_append, reads_round, calls_append, calls_round]
      exact ⟨acts ++ further, serves.behind_round prepared retries carries stays rfl⟩

end PipelineShell.Session

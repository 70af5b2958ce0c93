import PipelineShell.Proofs.Session.Timeline

/-!
The rounds of a session. In a round, finished jobs are reported and the prompt is shown, a read is
made as often as it is interrupted and once more, and what it has brought is acted on. A session is
rounds one after another, the last of which ends it or is cut off before its read.
-/

namespace PipelineShell.Session

open Routine

variable {prompt : Option String} {shell ready : Shell} {outcome : ReadOutcome}
  {pause acting : List (Event System.interface)} {retries : Nat} {moments : List Moment}

/-! ### One read -/

inductive ReadPath (prompt : Option String) (shell : Shell) (reader : LineReader) :
    ReadOutcome → List (Event System.interface) → AfterRead → Prop where
  | retried : ReadPath prompt shell reader .interrupted [] (.goesOn shell reader)
  | failed (message : String) :
      ReadPath prompt shell reader (.failed message) [] (.ended (.readFailed message) shell)
  | closed {events : List (Event System.interface)} {last : Shell}
      (finished : (finishInput shell reader).Leads events last) :
      ReadPath prompt shell reader (.bytes []) events (.ended (.left last.leavingCode) last)
  | left {byte : UInt8} {content : List UInt8} {events : List (Event System.interface)}
      {last : Shell}
      (performed : (perform shell (reader.feed (byte :: content)).takeLines.1).Leads events last)
      (leaving : last.exit ≠ none) :
      ReadPath prompt shell reader (.bytes (byte :: content)) events
        (.ended (.left last.leavingCode) last)
  | goesOn {byte : UInt8} {content : List UInt8} {acting pause : List (Event System.interface)}
      {next ready : Shell}
      (performed : (perform shell (reader.feed (byte :: content)).takeLines.1).Leads acting next)
      (staying : next.exit = none) (prepared : (prepareRead prompt next).Leads pause ready) :
      ReadPath prompt shell reader (.bytes (byte :: content)) (acting ++ pause)
        (.goesOn ready (reader.feed (byte :: content)).takeLines.2)

theorem readPath_of_leads {reader : LineReader} {after : AfterRead}
    {events : List (Event System.interface)}
    (leads : (takeRead prompt shell reader outcome).Leads events after) :
    ReadPath prompt shell reader outcome events after := by
  cases outcome with
  | interrupted =>
      obtain ⟨nothing, afterEq⟩ := leads.of_pure
      rw [nothing, afterEq]
      exact .retried
  | failed message =>
      obtain ⟨nothing, afterEq⟩ := leads.of_pure
      rw [nothing, afterEq]
      exact .failed message
  | bytes content =>
      cases content with
      | nil =>
          obtain ⟨last, finished, afterEq⟩ := leads_bind_pure_iff.mp leads
          rw [afterEq]
          exact .closed finished
      | cons byte content =>
          obtain ⟨front, reached, back, split, performed, rest⟩ := Leads.of_bind leads
          rw [split]
          split at rest
          · rename_i leaving
            obtain ⟨nothing, afterEq⟩ := Leads.of_pure rest
            rw [nothing, List.append_nil, afterEq]
            exact .left performed (Option.isSome_iff_ne_none.mp leaving)
          · rename_i stays
            obtain ⟨ready, prepared, afterEq⟩ := leads_bind_pure_iff.mp rest
            rw [afterEq]
            exact .goesOn performed (Option.not_isSome_iff_eq_none.mp stays) prepared

/-! ### Rounds -/

/-- A read is prepared, and made as often as it is interrupted. -/
def due (pause : List (Event System.interface)) (retries : Nat) : List Moment :=
  pause.map .ofCall ++ List.replicate retries (.ofRead .interrupted)

def round (pause : List (Event System.interface)) (retries : Nat) (outcome : ReadOutcome)
    (acting : List (Event System.interface)) : List Moment :=
  due pause retries ++ .ofRead outcome :: acting.map .ofCall

theorem calls_due : calls (due pause retries) = pause := by
  simp [due]

theorem reads_due : reads (due pause retries) = List.replicate retries .interrupted := by
  simp [due]

theorem calls_round : calls (round pause retries outcome acting) = pause ++ acting := by
  simp [round, calls_due]

theorem reads_round :
    reads (round pause retries outcome acting)
      = List.replicate retries .interrupted ++ [outcome] := by
  simp [round, reads_due]

private theorem due_succ :
    due pause (retries + 1) = due pause retries ++ [.ofRead .interrupted] := by
  rw [due, due, List.replicate_succ', List.append_assoc]

/-- A session in rounds, from a moment at which a read has to be prepared. -/
inductive Course (prompt : Option String) :
    Shell → LineReader → List Moment → Ending → Shell → Prop where
  | cut {shell ready : Shell} {reader : LineReader} {pause : List (Event System.interface)}
      (prepared : (prepareRead prompt shell).Leads pause ready) (retries : Nat) :
      Course prompt shell reader (due pause retries) .cutOff ready
  | ended {shell ready last : Shell} {reader : LineReader}
      {pause acting : List (Event System.interface)} {outcome : ReadOutcome} {ending : Ending}
      (prepared : (prepareRead prompt shell).Leads pause ready) (retries : Nat)
      (taken : (takeRead prompt ready reader outcome).Leads acting (.ended ending last)) :
      Course prompt shell reader (round pause retries outcome acting) ending last
  | goesOn {shell ready next last : Shell} {reader : LineReader}
      {pause acting : List (Event System.interface)} {byte : UInt8} {content : List UInt8}
      {moments : List Moment} {ending : Ending}
      (prepared : (prepareRead prompt shell).Leads pause ready) (retries : Nat)
      (performed : (perform ready (reader.feed (byte :: content)).takeLines.1).Leads acting next)
      (staying : next.exit = none)
      (later : Course prompt next (reader.feed (byte :: content)).takeLines.2 moments ending last) :
      Course prompt shell reader (round pause retries (.bytes (byte :: content)) acting ++ moments)
        ending last

theorem ne_cutOff_of_ended {reader : LineReader} {ending : Ending} {last : Shell}
    (taken : (takeRead prompt shell reader outcome).Leads acting (.ended ending last)) :
    ending ≠ .cutOff := by
  intro cut
  rw [cut] at taken
  cases readPath_of_leads taken

theorem ne_interrupted_of_ended {reader : LineReader} {ending : Ending} {last : Shell}
    (taken : (takeRead prompt shell reader outcome).Leads acting (.ended ending last)) :
    outcome ≠ .interrupted := by
  intro retried
  rw [retried] at taken
  cases readPath_of_leads taken

/-- A session goes on in rounds once a read has been prepared. It counts its reads, and it is cut
off only when all that it may make have been made. -/
theorem course_of_serve {made limit : Nat} {start : Shell} {reader : LineReader}
    {ended : SessionEnd} (prepared : (prepareRead prompt start).Leads pause shell) (retries : Nat)
    (leads : (serve prompt made shell reader limit).Leads moments ended) :
    Course prompt start reader (due pause retries ++ moments) ended.ending ended.shell ∧
      ended.reads = made + (reads moments).length ∧
      (ended.ending = .cutOff → (reads moments).length = limit) := by
  induction limit generalizing made start shell reader moments pause retries with
  | zero =>
      obtain ⟨nothing, endedEq⟩ := Leads.of_pure leads
      rw [nothing, List.append_nil, endedEq]
      exact ⟨.cut prepared retries, rfl, fun _ => rfl⟩
  | succ limit ih =>
      obtain ⟨outcome, others, momentsEq, acted⟩ := exists_leads_of_read_bind leads
      obtain ⟨events, after, back, othersEq, taken, later⟩ := exists_leads_of_ofSystem_bind acted
      rw [momentsEq, othersEq]
      cases after with
      | ended ending last =>
          obtain ⟨nothing, endedEq⟩ := Leads.of_pure later
          rw [nothing, List.append_nil, endedEq]
          refine ⟨.ended prepared retries taken, ?_, fun cut => ?_⟩
          · rw [reads_ofRead_cons, reads_map_ofCall]
            rfl
          · exact absurd cut (ne_cutOff_of_ended taken)
      | goesOn next following =>
          have counted : (reads (.ofRead outcome :: (events.map .ofCall ++ back))).length
              = (reads back).length + 1 := by
            rw [reads_ofRead_cons, reads_append, reads_map_ofCall, List.nil_append,
              List.length_cons]
          rw [counted]
          cases readPath_of_leads taken with
          | retried =>
              obtain ⟨course, count, full⟩ := ih prepared (retries + 1) later
              rw [due_succ, List.append_assoc] at course
              refine ⟨course, ?_, fun cut => ?_⟩
              · rw [count, Nat.add_assoc, Nat.add_comm 1]
              · rw [full cut]
          | @goesOn byte content acting pauseBehind reached _ performed staying preparedBehind =>
              obtain ⟨course, count, full⟩ := ih preparedBehind 0 later
              have whole := Course.goesOn prepared retries performed staying course
              refine ⟨?_, ?_, fun cut => ?_⟩
              · simpa [round, due] using whole
              · rw [count, Nat.add_assoc, Nat.add_comm 1]
              · rw [full cut]

theorem course_of_drive {limit : Nat} {ended : SessionEnd}
    (leads : (drive prompt shell limit).Leads moments ended) :
    Course prompt shell .empty moments ended.ending ended.shell ∧
      ended.reads = (reads moments).length ∧
      (ended.ending = .cutOff → (reads moments).length = limit) := by
  obtain ⟨pause, ready, back, split, prepared, served⟩ := exists_leads_of_ofSystem_bind leads
  obtain ⟨course, count, full⟩ := course_of_serve prepared 0 served
  rw [Nat.zero_add] at count
  rw [split, reads_append, reads_map_ofCall, List.nil_append]
  refine ⟨?_, count, full⟩
  simpa [due] using course

/-! ### More reads -/

private theorem leads_serve_succ {made limit : Nat} {reader : LineReader} {ended : SessionEnd}
    (leads : (serve prompt made shell reader limit).Leads moments ended)
    (finished : ended.ending ≠ .cutOff) :
    (serve prompt made shell reader (limit + 1)).Leads moments ended := by
  induction limit generalizing made shell reader moments with
  | zero =>
      obtain ⟨_, endedEq⟩ := Leads.of_pure leads
      rw [endedEq] at finished
      exact absurd rfl finished
  | succ limit ih =>
      obtain ⟨outcome, others, momentsEq, acted⟩ := exists_leads_of_read_bind leads
      obtain ⟨events, after, back, othersEq, taken, later⟩ := exists_leads_of_ofSystem_bind acted
      rw [momentsEq, othersEq]
      apply Leads.ask
      change (ofSystem (takeRead prompt shell reader outcome) >>= _).Leads _ _
      refine Leads.bind (Leads.ofSystem taken) ?_
      cases after with
      | ended ending last => exact later
      | goesOn next following => exact ih later

/-- A session that comes to its end does so too if more reads may be made. -/
theorem leads_drive_of_le {limit more : Nat} {ended : SessionEnd}
    (leads : (drive prompt shell limit).Leads moments ended) (finished : ended.ending ≠ .cutOff)
    (atMost : limit ≤ more) : (drive prompt shell more).Leads moments ended := by
  obtain ⟨pause, ready, back, split, prepared, served⟩ := exists_leads_of_ofSystem_bind leads
  rw [split]
  refine Leads.bind (Leads.ofSystem prepared) ?_
  induction atMost with
  | refl => exact served
  | step _ ih => exact leads_serve_succ ih finished

end PipelineShell.Session

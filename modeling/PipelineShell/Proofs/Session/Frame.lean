import PipelineShell.Proofs.Jobs.Reaping
import PipelineShell.Proofs.Session.Account
import PipelineShell.Proofs.Shell.Frame

/-!
What a session leaves alone. A session moves once for each line that is a plain `cd` and succeeds,
and it is broken off by the first line that is a plain `exit`; both in a pipeline, behind a gate,
with a redirection or in the background are lines like all others.
-/

namespace PipelineShell

def Reading.plainProgram? : Reading → Option String
  | .line parsed => parsed.plainProgram?
  | _ => none

def Act.hasMoved : Act → Bool
  | .ran line (.ok (.done status)) _ => decide (line.plainProgram? = some "cd" ∧ status = 0)
  | _ => false

namespace Session

open Routine ReadOutcome

variable {prompt : Option String} {shell later last : Shell} {act : Act} {acts : List Act}
  {events : List (Event System.interface)} {outcomes : List ReadOutcome} {ended : SessionEnd}

/-! ### What a session asks for -/

section Requests

variable {σ : Type} {kind : Event System.interface → Option σ}

private theorem never_announceFinished
    (polling : ∀ pid reply, kind ⟨.poll pid, reply⟩ = none)
    (complaining : ∀ text reply, kind ⟨.complain text, reply⟩ = none) (shell : Shell) :
    Never kind (announceFinished shell) := by
  have reaping : Never kind shell.jobs.reap := by
    rintro events ⟨finished, jobs⟩ leads
    obtain ⟨sightings, eventsEq, _⟩ := JobTable.exists_reaped leads
    rw [eventsEq, List.filterMap_map]
    exact List.filterMap_eq_nil_iff.mpr fun sighting _ => polling sighting.pid sighting.reply
  have writing (finished : List FinishedJob) : Never kind (writeReports finished) := by
    induction finished with
    | nil => exact never_pure ()
    | cons job rest ih =>
        exact (never_request (complaining _)).bind fun _ => ih
  exact reaping.bind fun result => (writing result.1).bind fun _ => never_pure _

private theorem never_runLine (overlooks : Shell.OverlooksLines kind)
    (quiet : ∀ event : Event System.interface, event.request.IsOwn → kind event = none)
    (shell : Shell) (line : CommandLine) : Never kind (runLine shell line) := by
  have complaining (text : String) : Never kind (System.complain text) :=
    never_request fun _ => quiet _ (.complain _)
  refine (Shell.never_run overlooks quiet shell line).bind fun result => ?_
  split
  · exact never_pure _
  · split
    · exact never_pure _
    · exact (complaining _).bind fun _ => never_pure _
  · exact (complaining _).bind fun _ => never_pure _

theorem never_perform (overlooks : Shell.OverlooksLines kind)
    (quiet : ∀ event : Event System.interface, event.request.IsOwn → kind event = none)
    (shell : Shell) (readings : List Reading) : Never kind (perform shell readings) := by
  induction readings generalizing shell with
  | nil => exact never_pure shell
  | cons reading rest ih =>
      cases reading with
      | line line =>
          refine (never_runLine overlooks quiet shell line).bind fun next => ?_
          split
          · exact never_pure next
          · exact ih next
      | fault fault =>
          exact (never_request fun _ => quiet _ (.complain _)).bind fun _ => ih _
      | blank => exact ih shell
      | incomplete => exact ih shell

private theorem never_prepareRead
    (polling : ∀ pid reply, kind ⟨.poll pid, reply⟩ = none)
    (complaining : ∀ text reply, kind ⟨.complain text, reply⟩ = none)
    (showing : ∀ text reply, kind ⟨.showPrompt text, reply⟩ = none) (prompt : Option String)
    (shell : Shell) : Never kind (prepareRead prompt shell) := by
  refine (never_announceFinished polling complaining shell).bind fun ready => ?_
  cases prompt with
  | none => exact never_pure _
  | some text => exact (never_request (showing text)).bind fun _ => never_pure _

private theorem never_finishInput (overlooks : Shell.OverlooksLines kind)
    (quiet : ∀ event : Event System.interface, event.request.IsOwn → kind event = none)
    (shell : Shell) (reader : LineReader) : Never kind (finishInput shell reader) := by
  unfold finishInput
  split
  · exact never_perform overlooks quiet shell _
  · exact never_pure shell

theorem never_ended (overlooks : Shell.OverlooksLines kind)
    (quiet : ∀ event : Event System.interface, event.request.IsOwn → kind event = none)
    {reader : LineReader} {outcome : ReadOutcome} {ending : Ending}
    (taken : (takeRead prompt shell reader outcome).Leads events (.ended ending last)) :
    events.filterMap kind = [] := by
  cases readPath_of_leads taken with
  | failed message => rfl
  | closed finished => exact never_finishInput overlooks quiet shell reader _ _ finished
  | left performed leaving => exact never_perform overlooks quiet shell _ _ _ performed

/-- A session asks for nothing but what its lines and the preparation of its reads ask for. -/
theorem Course.never (overlooks : Shell.OverlooksLines kind)
    (quiet : ∀ event : Event System.interface, event.request.IsOwn → kind event = none)
    (polling : ∀ pid reply, kind ⟨.poll pid, reply⟩ = none)
    (showing : ∀ text reply, kind ⟨.showPrompt text, reply⟩ = none) {reader : LineReader}
    {moments : List Moment} {ending : Ending}
    (course : Course prompt shell reader moments ending last) :
    (calls moments).filterMap kind = [] := by
  have preparing : ∀ {shell ready : Shell} {pause : List (Event System.interface)},
      (prepareRead prompt shell).Leads pause ready → pause.filterMap kind = [] :=
    fun prepared => never_prepareRead polling (fun text _ => quiet _ (.complain text)) showing
      prompt _ _ _ prepared
  induction course with
  | cut prepared retries =>
      rw [calls_due]
      exact preparing prepared
  | ended prepared retries taken =>
      rw [calls_round, List.filterMap_append, preparing prepared, never_ended overlooks quiet taken]
      rfl
  | goesOn prepared retries performed staying later ih =>
      rw [calls_append, calls_round, List.filterMap_append, List.filterMap_append,
        preparing prepared, never_perform overlooks quiet _ _ _ _ performed, ih]
      rfl

end Requests

private theorem never_move_prepareRead (prompt : Option String) (shell : Shell) :
    Never Event.move? (prepareRead prompt shell) :=
  never_prepareRead (fun _ _ => rfl) (fun _ _ => rfl) (fun _ _ => rfl) prompt shell

/-! ### One act -/

theorem Acts.leaving_isSome_iff (acting : Acts shell act events later)
    (staying : shell.exit = none) :
    act.leaving?.isSome ↔ act.reading.plainProgram? = some "exit" := by
  cases acting with
  | @ran reached line outcome events complaints leads only =>
      have frame := Shell.frame_of_leads leads
      refine ⟨fun leaving => Decidable.byContradiction fun other => ?_, frame.leaves⟩
      change reached.exit.isSome = true at leaving
      rw [frame.stays other, staying] at leaving
      cases leaving
  | refused only => exact ⟨(nomatch ·), (nomatch ·)⟩
  | passed => exact ⟨(nomatch ·), (nomatch ·)⟩

private theorem moves_of_complaints (only : ∀ event ∈ events, event.IsComplaint) :
    moves events = [] := by
  refine List.filterMap_eq_nil_iff.mpr fun event member => ?_
  obtain ⟨text, eventEq⟩ := only event member
  rw [eventEq]
  rfl

theorem Acts.length_moves (acting : Acts shell act events later) :
    (moves events).length = if act.hasMoved then 1 else 0 := by
  cases acting with
  | @ran reached line outcome events complaints leads only =>
      have frame := Shell.frame_of_leads leads
      rw [moves_append, moves_of_complaints only, List.append_nil]
      by_cases isMove : line.plainProgram? = some "cd"
      · obtain ⟨⟨status, outcomeEq⟩, _⟩ := frame.own (Or.inl isMove)
        rw [frame.moved isMove status outcomeEq, outcomeEq]
        simp only [Act.hasMoved, isMove, true_and, decide_eq_true_eq]
      · rw [frame.still isMove]
        unfold Act.hasMoved
        split
        · rename_i same
          cases same
          simp [isMove]
        · rfl
  | refused only =>
      rw [moves_of_complaints only]
      rfl
  | passed => rfl

/-! ### Many acts -/

namespace Performs

private theorem forall_acts {property : Act → Prop}
    (performs : Performs prompt shell acts events last)
    (each : ∀ {shell act events later}, shell.exit = none → Acts shell act events later →
      property act) : ∀ act ∈ acts, property act := by
  induction performs with
  | done shell => exact List.forall_mem_nil _
  | paused leads later ih => exact ih
  | acted staying acting later ih => exact List.forall_mem_cons.mpr ⟨each staying acting, ih⟩

theorem length_moves (performs : Performs prompt shell acts events last) :
    (moves events).length = acts.countP Act.hasMoved := by
  induction performs with
  | done shell => rfl
  | paused leads later ih =>
      rw [moves_append, moves, never_move_prepareRead _ _ _ _ leads, List.nil_append, ih]
  | acted staying acting later ih =>
      rw [moves_append, List.length_append, acting.length_moves, ih, List.countP_cons,
        Nat.add_comm]

end Performs

/-! ### Sessions -/

/-- A reading has not been reached just if a plain `exit` stands before it. -/
theorem Account.length_le_iff (account : Account shell outcomes acts ended)
    (performs : Performs prompt shell acts events ended.shell) {index : Nat} {reading : Reading}
    (found : (readingsOf [] (inputOf outcomes))[index]? = some reading) :
    acts.length ≤ index ↔
      ∃ earlier act, earlier < index ∧ acts[earlier]? = some act ∧
        act.reading.plainProgram? = some "exit" := by
  have leaves : ∀ act ∈ acts, act.leaving?.isSome ↔ act.reading.plainProgram? = some "exit" :=
    performs.forall_acts fun staying acting => acting.leaving_isSome_iff staying
  constructor
  · intro unreached
    have notWhole : acts.map Act.reading ≠ readingsOf [] (inputOf outcomes) := by
      intro same
      rw [← same, List.getElem?_map, List.getElem?_eq_none unreached] at found
      cases found
    have left : ended.shell.exit ≠ none := fun stays => notWhole (account.whole stays)
    rw [account.exit] at left
    obtain ⟨code, asked⟩ := Option.ne_none_iff_exists'.mp left
    obtain ⟨act, isLast, leaving⟩ := Option.bind_eq_some_iff.mp asked
    have member : act ∈ acts := List.mem_of_getLast? isLast
    rw [List.getLast?_eq_getElem?] at isLast
    refine ⟨acts.length - 1, act, ?_, isLast, (leaves act member).mp ?_⟩
    · have some_acts := (List.getElem?_eq_some_iff.mp isLast).1
      omega
    · rw [leaving]
      rfl
  · rintro ⟨earlier, act, before, isAct, isExit⟩
    have leaving := (leaves act (List.mem_of_getElem? isAct)).mpr isExit
    refine Nat.le_of_not_lt fun reached => ?_
    -- an act that asks to leave is no inner one
    have inner : act ∈ acts.dropLast := by
      refine List.mem_of_getElem? (i := earlier) ?_
      rw [List.getElem?_dropLast, if_pos (by omega)]
      exact isAct
    rw [account.before act inner] at leaving
    cases leaving

private theorem hasMoved_eq_false (other : act.reading.plainProgram? ≠ some "cd") :
    act.hasMoved = false := by
  unfold Act.hasMoved
  split
  · rename_i line status leaving
    exact decide_eq_false fun both => other both.1
  · rfl

private theorem moves_of_no_move
    (leads : (Session.run prompt shell outcomes).Leads events ended) (staying : shell.exit = none)
    (noMove : ∀ reading ∈ readingsOf [] (inputOf outcomes), reading.plainProgram? ≠ some "cd") :
    moves events = [] := by
  obtain ⟨acts, performs, account⟩ := exists_account leads staying
  refine List.eq_nil_of_length_eq_zero (performs.length_moves.trans ?_)
  rw [List.countP_eq_zero]
  intro act member
  have within : act.reading ∈ readingsOf [] (inputOf outcomes) :=
    account.within_whole.subset (List.mem_map_of_mem member)
  rw [hasMoved_eq_false (noMove _ within)]
  exact Bool.false_ne_true

/-- Only a plain `cd` moves a shell, and only a plain `exit` asks it to leave. These two, whatever
their arguments, start no process, open no file and always come to a status, and a `cd` that fails
leaves the shell where it was. So it is over a whole input: the shell moves as often as a plain `cd`
has succeeded, and the readings that are not reached are those behind a plain `exit`. -/
theorem plain_builtins_alone_act_on_shell :
    (∀ shell line events outcome later, (shell.run line).Leads events (outcome, later) →
      Shell.Frame shell line events outcome later) ∧
    (∀ (σ δ : Type) (world : World System.interface σ) (place : σ → δ), KeepsPlace world place →
      (∀ (shell : Shell) line state,
        let ran := (shell.run line).run world state
        (line.plainProgram? ≠ some "cd" → place ran.2 = place state) ∧
        (line.plainProgram? = some "cd" ∨ line.plainProgram? = some "exit" →
          ∃ status, ran.1.1 = .ok (.done status) ∧ (status ≠ 0 → place ran.2 = place state))) ∧
      ∀ prompt (shell : Shell) outcomes state, shell.exit = none →
        (∀ reading ∈ readingsOf [] (inputOf outcomes), reading.plainProgram? ≠ some "cd") →
        place ((Session.run prompt shell outcomes).run world state).2 = place state) ∧
    ∀ prompt shell outcomes events ended,
      (Session.run prompt shell outcomes).Leads events ended → shell.exit = none →
      ∃ acts, Performs prompt shell acts events ended.shell ∧ Account shell outcomes acts ended ∧
        (moves events).length = acts.countP Act.hasMoved ∧
        ∀ (index : Nat) reading, (readingsOf [] (inputOf outcomes))[index]? = some reading →
          (acts.length ≤ index ↔ ∃ earlier act, earlier < index ∧ acts[earlier]? = some act ∧
            act.reading.plainProgram? = some "exit") := by
  refine ⟨fun _ _ _ _ _ => Shell.frame_of_leads, ?_, ?_⟩
  · intro σ δ world place keeps
    constructor
    · intro shell line state ran
      obtain ⟨events, leads, rests⟩ := keeps.exists_leads (shell.run line) state
      have frame := Shell.frame_of_leads leads
      constructor
      · intro other
        exact rests (frame.still other)
      · intro isOwn
        obtain ⟨⟨status, isDone⟩, _⟩ := frame.own isOwn
        exact ⟨status, isDone, fun failed => rests (frame.still_of_failed isDone failed)⟩
    · intro prompt shell outcomes state staying noMove
      obtain ⟨events, leads, rests⟩ := keeps.exists_leads (Session.run prompt shell outcomes) state
      exact rests (moves_of_no_move leads staying noMove)
  · intro prompt shell outcomes events ended leads staying
    obtain ⟨acts, performs, account⟩ := exists_account leads staying
    exact ⟨acts, performs, account, performs.length_moves,
      fun index reading found => account.length_le_iff performs found⟩

/-- A `cd` and an `exit` in one pipe, a plain `exit` behind them and a line behind that, where every
directory is found. -/
theorem plain_builtins_alone_act_on_shell_of_pipe :
    let world : World System.interface (List String) := fun request place =>
      match request with
      | .changeDirectory path => (.ok (), place ++ [path])
      | request => (Kernel.refuse request, place)
    let up : Command := ⟨"cd", ["cd", "up"]⟩
    let piped : CommandLine :=
      ⟨[.command up, .connective .pipe, .command ⟨"exit", ["exit"]⟩], .inherited, false⟩
    let outcomes : List ReadOutcome := [.bytes "cd up | exit\nexit 3\nls\n".toUTF8.toList]
    let ended : SessionEnd := ⟨.left 3, ⟨.empty, 3, some 3⟩, 1⟩
    KeepsPlace world id ∧
      (∃ events outcome later, (Shell.new.run piped).Leads events (outcome, later) ∧
        moves events = [] ∧ later.exit = none) ∧
      (∃ status, ((Shell.new.run ⟨[.command up], .inherited, false⟩).run world ["home"]).1.1
        = .ok (.done status)) ∧
      ((Session.run none .new outcomes).run world ["home"]).2 = ["home"] ∧
      ∃ events acts, (Session.run none .new outcomes).Leads events ended ∧
        Performs none .new acts events ended.shell ∧ acts.length ≤ 2 := by
  intro world up piped outcomes ended
  have keeps : KeepsPlace world id := by
    intro request place still
    cases request <;> first | rfl | cases still
  obtain ⟨onLines, onSessions⟩ := plain_builtins_alone_act_on_shell.2.1 _ _ world id keeps
  obtain ⟨status, done, _⟩ :=
    (onLines .new ⟨[.command up], .inherited, false⟩ ["home"]).2 (Or.inl rfl)
  have inputEq : readingsOf [] (inputOf outcomes)
      = [.line piped, .line ⟨[.command ⟨"exit", ["exit", "3"]⟩], .inherited, false⟩,
        .line ⟨[.command ⟨"ls", ["ls"]⟩], .inherited, false⟩] := by
    decide +kernel
  have stays := onSessions none .new outcomes ["home"] rfl (by
    rw [inputEq]
    decide)
  obtain ⟨asked, ran⟩ := exists_leads_run world (Shell.new.run piped) ["home"]
  have frame := plain_builtins_alone_act_on_shell.1 _ _ _ _ _ ran
  have onPipe := And.intro (frame.still (nomatch ·)) (frame.stays (nomatch ·))
  obtain ⟨events, leads⟩ := exists_leads_run world (Session.run none .new outcomes) ["home"]
  have endedEq : ((Session.run none .new outcomes).run world ["home"]).1 = ended := by
    decide +kernel
  rw [endedEq] at leads
  obtain ⟨acts, performs, account, _, reached⟩ :=
    plain_builtins_alone_act_on_shell.2.2 none .new outcomes events ended leads rfl
  have third : (readingsOf [] (inputOf outcomes))[2]?
      = some (.line ⟨[.command ⟨"ls", ["ls"]⟩], .inherited, false⟩) := by
    rw [inputEq]
    rfl
  refine ⟨keeps, ⟨asked, _, _, ran, onPipe⟩, ⟨status, done⟩, stays, events, acts, leads, performs,
    ?_⟩
  refine Nat.le_of_not_lt fun longer => Nat.not_le.mpr longer ((reached 2 _ third).mpr ?_)
  have second : acts[1].reading
      = .line ⟨[.command ⟨"exit", ["exit", "3"]⟩], .inherited, false⟩ := by
    have same := account.within_whole.getElem (i := 1) (by rw [List.length_map]; omega)
    rw [List.getElem_map] at same
    rw [same]
    simp only [inputEq]
    rfl
  refine ⟨1, acts[1], by decide, List.getElem?_eq_getElem _, ?_⟩
  rw [second]
  rfl

end Session

end PipelineShell

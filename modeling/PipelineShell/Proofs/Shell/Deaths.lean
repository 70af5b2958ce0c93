import PipelineShell.Proofs.Jobs.Deaths
import PipelineShell.Proofs.Shell.Waiting

/-!
What a line comes to by the deaths of its processes. In the foreground and in the background a
pipeline comes to the status of its last death, as long as the signals are known. The two part where
a signal is not: waiting fails for it, and the table of the jobs takes it for a success.
-/

namespace PipelineShell.Shell

open Routine

variable {events : List (Event System.interface)} {deaths : List Death} {commands : List Command}

/-! ### Started processes -/

private theorem gives_fewer_of_fault (input output : Option Fd) (commands : List Command) :
    Gives (fun started => started.fault ≠ none → started.pids.length < commands.length)
      (startSegments input output commands) := by
  have none_begun : ∀ (fault : RunFault) (command : Command) (rest : List Command),
      (⟨[], some fault⟩ : Started).fault ≠ none →
        ([] : List Pid).length < (command :: rest).length :=
    fun _ _ _ _ => Nat.succ_pos _
  induction commands generalizing input with
  | nil =>
      exact gives_behind fun _ => gives_behind fun _ => gives_pure fun faulty => absurd rfl faulty
  | cons command rest ih =>
      cases rest with
      | nil =>
          refine gives_behind fun reply => gives_behind fun _ => gives_behind fun _ => ?_
          cases reply with
          | error errno => exact gives_pure (none_begun (.fork errno) command [])
          | ok pid => exact gives_pure fun faulty => absurd rfl faulty
      | cons second others =>
          refine gives_behind fun made => ?_
          cases made with
          | error fault =>
              exact gives_behind fun _ => gives_behind fun _ =>
                gives_pure (none_begun fault command _)
          | ok ends =>
              refine gives_behind fun reply => ?_
              cases reply with
              | error errno =>
                  exact gives_behind fun _ => gives_behind fun _ => gives_behind fun _ =>
                    gives_behind fun _ => gives_pure (none_begun (.fork errno) command _)
              | ok pid =>
                  refine gives_behind fun _ => gives_behind fun _ => ?_
                  exact (ih (some ends.1)).bind fun later fewer => gives_pure fun faulty =>
                    Nat.succ_lt_succ (fewer faulty)

private theorem intact_of_startSegments {input output : Option Fd} {started : Started}
    (leads : (startSegments input output commands).Leads events started)
    (whole : started.pids.length = commands.length) : started.fault = none := by
  by_contra faulty
  have fewer := gives_fewer_of_fault input output commands _ _ leads faulty
  omega

private theorem length_launches_of_startSegments {input output : Option Fd} {started : Started}
    (leads : (startSegments input output commands).Leads events started) :
    (launches events).length = started.pids.length := by
  obtain ⟨begun, begins, found⟩ := exists_launches_of_startSegments leads
  rw [found, ← begins.pids, List.length_map, List.length_map]

private theorem overlooksDescriptors_wait : OverlooksDescriptors Event.wait? :=
  ⟨fun _ _ _ => rfl, fun _ => rfl, fun _ _ _ => rfl, fun _ _ => rfl⟩

/-! ### In the foreground -/

private theorem verdict_of_known (known : ∀ death ∈ deaths, death.IsKnown) (last : Int) :
    verdict last none (deaths.map Death.status)
      = .ok ((deaths.getLast?.map Death.code).getD last) := by
  induction deaths generalizing last with
  | nil => rfl
  | cons death rest ih =>
      obtain ⟨first, others⟩ := List.forall_mem_cons.mp known
      rw [List.map_cons, Death.status_of_isKnown first, verdict, ih others, List.getLast?_cons]
      cases rest.getLast? <;> rfl

private theorem verdict_of_unknown {death : Death} (member : death ∈ deaths)
    (unknown : ¬ death.IsKnown)
    (last : Int) : verdict last none (deaths.map Death.status) = .error .invalidArgument := by
  induction deaths generalizing last with
  | nil => cases member
  | cons first rest ih =>
      rw [List.map_cons]
      by_cases known : first.IsKnown
      · have later : death ∈ rest := by
          rcases List.mem_cons.mp member with rfl | behind
          · exact absurd known unknown
          · exact behind
        rw [Death.status_of_isKnown known, verdict]
        exact ih later first.code
      · rw [Death.status_of_not_isKnown known, verdict]
        exact verdict_of_failure last .invalidArgument _

/-- If as many waits as there are commands give deaths, all processes have been started, and the
pipeline comes to what these deaths make of it. -/
theorem outcome_of_deaths {output : Output} {outcome : Except RunFault Int}
    (leads : (AndOr.runPipeline commands output).run.Leads events outcome)
    (filled : deaths ≠ []) (each : deaths.length = commands.length)
    (died : (waits events).map Prod.snd = deaths.map .ok) :
    outcome = (verdict 0 none (deaths.map Death.status)).mapError .wait := by
  rcases leads.of_attempt_bind with
    ⟨fault, _, opened⟩ | ⟨front, target, back, split, opened, later⟩
  · have nothing : waits events = [] := never_openTarget overlooksDescriptors_wait output _ _ opened
    rw [nothing] at died
    exact absurd (List.map_eq_nil_iff.mp died.symm) filled
  · have noneInFront : waits front = [] :=
      never_openTarget overlooksDescriptors_wait output _ _ opened
    obtain ⟨starts, rest, started, collected, splitBack, starting, waiting, outcomeEq⟩ :=
      exists_started_of_leads later
    obtain ⟨replies, eachReply, waitsEq, collectedEq⟩ := exists_replies_of_waitRemaining waiting
    have repliesEq : replies = deaths.map .ok := by
      rw [split, splitBack, waits_append, waits_append, noneInFront,
        waits_of_startSegments starting, waitsEq, List.nil_append, List.nil_append,
        List.map_snd_zip (Nat.le_of_eq eachReply)] at died
      exact died
    have whole : started.pids.length = commands.length := by
      rw [← eachReply, repliesEq, List.length_map, each]
    have statuses : replies.map statusOf = deaths.map Death.status := by
      rw [repliesEq, List.map_map]
      rfl
    rw [outcomeEq, intact_of_startSegments starting whole, collectedEq, statuses]
    rfl

private theorem outcome_of_foreground {shell later : Shell} {line : CommandLine} {stage : Stage}
    {outcome : Except RunFault Completion} (planned : line.plan = .ok [stage])
    (external : builtin? { line with background := false } = none) (filled : deaths ≠ [])
    (each : deaths.length = stage.commands.length)
    (leads : (shell.run { line with background := false }).Leads events (outcome, later))
    (died : (waits events).map Prod.snd = deaths.map .ok) :
    outcome = ((verdict 0 none (deaths.map Death.status)).mapError .wait).map .done := by
  obtain ⟨ended, ran, outcomeEq⟩ := (leads_foreground_iff planned external).mp ⟨later, leads⟩
  have always : stage.gate = .always := by
    obtain ⟨_, gatesEq, _⟩ := (CommandLine.continues_of_plan planned).gates
    exact (List.cons.inj gatesEq).1
  have opens : Gate.always.opens 0 = true := rfl
  rw [runGated_single, always, if_pos opens] at ran
  rw [outcomeEq, outcome_of_deaths ran filled each died]

/-! ### In the background -/

private theorem exists_pids_of_startBackground {stage : Stage} {output : Output}
    {attempted : Except RunFault (List Pid)} (filled : stage.commands ≠ [])
    (leads : (startBackground [stage] output).run.Leads events attempted)
    (whole : (launches events).length = stage.commands.length) :
    attempted = .ok ((launches events).map Prod.snd) := by
  cases attempted with
  | ok pids =>
      have filledAll : [stage] ≠ [] := List.cons_ne_nil _ _
      exact congrArg Except.ok (detaches_of_startBackground filledAll leads).2
  | error fault =>
      rcases leads.of_attempt_bind with
        ⟨_, _, opened⟩ | ⟨front, target, back, split, opened, started⟩
      · have nothing : launches events = [] :=
          never_openTarget overlooksDescriptors_launch output _ _ opened
        rw [nothing] at whole
        exact absurd (List.length_eq_zero_iff.mp whole.symm) filled
      · have noneInFront : launches front = [] :=
          never_openTarget overlooksDescriptors_launch output _ _ opened
        cases startsStage_of_leads started with
        | @cut starts waited _ _ _ starting faulty waiting =>
            have noneWhileWaiting : launches waited = [] :=
              never_waitRemaining (fun _ _ => rfl) _ _ _ _ _ waiting
            rw [split, launches_append, launches_append, noneInFront, noneWhileWaiting,
              List.nil_append, List.append_nil, length_launches_of_startSegments starting] at whole
            rw [intact_of_startSegments starting whole] at faulty
            cases faulty

private theorem exists_held_of_background {shell later : Shell} {line : CommandLine} {stage : Stage}
    {outcome : Except RunFault Completion} (planned : line.plan = .ok [stage])
    (background : line.background = true)
    (leads : (shell.run line).Leads events (outcome, later))
    (whole : (launches events).length = stage.commands.length) :
    ∃ id, outcome = .ok (.background id) ∧
      later.jobs.get? id = some (.ofPids ((launches events).map Prod.snd) line.render) := by
  have filled : stage.commands ≠ [] :=
    (CommandLine.continues_of_plan planned).filled stage List.mem_cons_self
  obtain ⟨attempted, started, outcomeEq, laterEq⟩ :=
    exists_started_of_background planned background leads
  rw [exists_pids_of_startBackground filled started whole] at outcomeEq laterEq
  refine ⟨_, outcomeEq, ?_⟩
  rw [laterEq]
  exact shell.jobs.get?_insert_self _ _

/-! ### Both ways to run a line -/

/-- The status of a pipeline by the deaths of its processes, in the foreground and in the
background. If all signals among them are known, the line in the foreground comes to the status of
the last death; otherwise waiting fails. In the background the job holds the processes that have
been started, and whatever else is called on the table meanwhile, the first reap that has found all
of them dead reports it, with the same status if the signal of the last death is known. So a killed
process shows in the report, unless its signal is unknown: then the job is reported with status
zero. -/
theorem deaths_give_statuses {shell : Shell} {line : CommandLine} {stage : Stage} {final : Death}
    (planned : line.plan = .ok [stage])
    (external : builtin? { line with background := false } = none)
    (each : deaths.length = stage.commands.length) (last : deaths.getLast? = some final) :
    (∀ events outcome later,
      (shell.run { line with background := false }).Leads events (outcome, later) →
      (waits events).map Prod.snd = deaths.map .ok →
      ((∀ death ∈ deaths, death.IsKnown) → outcome = .ok (.done final.code)) ∧
        ((∃ death ∈ deaths, ¬ death.IsKnown) → outcome = .error (.wait .invalidArgument))) ∧
    ∀ events outcome later,
      (shell.run { line with background := true }).Leads events (outcome, later) →
      (launches events).length = stage.commands.length →
      let description := CommandLine.render { line with background := true }
      ∃ id, outcome = .ok (.background id) ∧
        later.jobs.get? id = some (.ofPids ((launches events).map Prod.snd) description) ∧
        ∀ calls table, later.jobs.MakesAll calls table → (∀ call ∈ calls, ¬ call.Returns id) →
          ∀ sightings finished left, table.Makes (.reaped sightings finished) left →
          Sighting.TellDeaths id deaths (JobTable.sightingsUntil calls sightings) →
          ((∃ report ∈ finished, report.id = id) ↔ ∀ place < stage.commands.length,
            ∃ sighting ∈ JobTable.sightingsUntil calls sightings,
              sighting.IsOf id place ∧ sighting.reply ≠ .ok none) ∧
          ∀ report ∈ finished, report.id = id →
            report = ⟨id, description, if final.IsKnown then final.code else 0⟩ ∧
            ∀ signal, final = .killed signal → final.IsKnown → report.status ≠ 0 := by
  have died : deaths ≠ [] := by
    rintro rfl
    cases last
  constructor
  · intro events outcome later leads waited
    rw [outcome_of_foreground planned external died each leads waited]
    constructor
    · intro known
      rw [verdict_of_known known, last]
      rfl
    · rintro ⟨death, member, unknown⟩
      rw [verdict_of_unknown member unknown]
      rfl
  · intro events outcome later leads whole description
    have alsoPlanned : CommandLine.plan { line with background := true } = .ok [stage] := planned
    obtain ⟨id, outcomeEq, held⟩ := exists_held_of_background alsoPlanned rfl leads whole
    refine ⟨id, outcomeEq, held, ?_⟩
    intro calls table made unreported sightings finished left reaping tell
    have counted : ((launches events).map Prod.snd).length = stage.commands.length := by
      rw [List.length_map, whole]
    obtain ⟨reported, recorded⟩ := JobTable.reports_of_deaths held (each.trans counted.symm) last
      made unreported reaping tell
    rw [counted] at reported
    refine ⟨reported, fun report member same => ?_⟩
    have reportEq := recorded report member same
    refine ⟨reportEq, fun signal killed known => ?_⟩
    rw [killed] at known reportEq
    rw [reportEq]
    exact Death.recorded_ne_zero_of_killed known

/-- `a | b`, where `b` is killed: both ways to run the line come to 143. -/
theorem deaths_give_statuses_of_killed_last :
    let a : Command := ⟨"a", ["a"]⟩
    let b : Command := ⟨"b", ["b"]⟩
    let line : CommandLine := ⟨[.command a, .connective .pipe, .command b], .inherited, true⟩
    let starts : List (Event System.interface) := [⟨.makePipe, .ok (3, 4)⟩,
      ⟨.fork (.segment ⟨a, none, some 4⟩), .ok ⟨7⟩⟩, ⟨.close 4, ()⟩,
      ⟨.fork (.segment ⟨b, some 3, none⟩), .ok ⟨8⟩⟩, ⟨.close 3, ()⟩]
    let waited : List (Event System.interface) :=
      [⟨.wait ⟨7⟩, .ok (.exited 1)⟩, ⟨.wait ⟨8⟩, .ok (.killed 15)⟩]
    let held : Shell := ⟨⟨[some ⟨[⟨⟨7⟩, none⟩, ⟨⟨8⟩, none⟩], "a | b &"⟩]⟩, 0, none⟩
    let sightings : List Sighting :=
      [⟨⟨1, 0, ⟨7⟩⟩, .ok (some (.exited 1))⟩, ⟨⟨1, 1, ⟨8⟩⟩, .ok (some (.killed 15))⟩]
    line.plan = .ok [⟨.always, [a, b]⟩] ∧ builtin? { line with background := false } = none ∧
      (Shell.new.run { line with background := false }).Leads (starts ++ waited)
        (.ok (.done 143), ⟨.empty, 143, none⟩) ∧
      (Shell.new.run line).Leads starts (.ok (.background 1), held) ∧
      held.jobs.Makes (.reaped sightings [⟨1, "a | b &", 143⟩]) .empty ∧
      (∀ outcome later, (Shell.new.run { line with background := false }).Leads (starts ++ waited)
        (outcome, later) → outcome = .ok (.done 143)) ∧
      ∀ finished left, held.jobs.Makes (.reaped sightings finished) left →
        ∀ report ∈ finished, report.id = 1 → report = ⟨1, "a | b &", 143⟩ := by
  intro a b line starts waited held sightings
  have planned : line.plan = .ok [⟨.always, [a, b]⟩] := by
    dsimp only [line, a, b]
    rfl
  have external : builtin? { line with background := false } = none := by
    rfl
  have ran : (Shell.new.run { line with background := false }).Leads (starts ++ waited)
      (.ok (.done 143), ⟨.empty, 143, none⟩) := by
    dsimp only [line, a, b, starts, waited, List.cons_append, List.nil_append]
    exact .ask _ (.ask _ (.ask _ (.ask _ (.ask _ (.ask _ (.ask _ (.finished _)))))))
  have started : (Shell.new.run line).Leads starts (.ok (.background 1), held) := by
    dsimp only [line, a, b, starts]
    exact .ask _ (.ask _ (.ask _ (.ask _ (.ask _ (.finished _)))))
  have reaped : held.jobs.Makes (.reaped sightings [⟨1, "a | b &", 143⟩]) .empty :=
    .reap (.ask _ (.ask _ (.finished _))) rfl
  have known : ∀ death ∈ [Death.exited 1, .killed 15], death.IsKnown := by decide
  have tell : Sighting.TellDeaths 1 [.exited 1, .killed 15] sightings := by
    intro sighting member _
    rcases List.mem_pair.mp member with rfl | rfl
    · exact .inr ⟨.exited 1, rfl, rfl⟩
    · exact .inr ⟨.killed 15, rfl, rfl⟩
  obtain ⟨foreground, background⟩ := @deaths_give_statuses [.exited 1, .killed 15] .new line
    ⟨.always, [a, b]⟩ (.killed 15) planned external rfl rfl
  obtain ⟨id, sameId, _, reports⟩ := background starts _ held started rfl
  cases sameId
  refine ⟨planned, external, ran, started, reaped, ?_, ?_⟩
  · intro outcome later leads
    exact (foreground _ _ _ leads rfl).1 known
  · intro finished left reaping report member same
    exact ((reports [] held.jobs (.nothing _) (List.forall_mem_nil _) _ _ _ reaping tell).2
      report member same).1

/-- A command that is killed by a signal that is not known, and ought to come to 162. -/
theorem unknown_signal_hides_death :
    let a : Command := ⟨"a", ["a"]⟩
    let line : CommandLine := ⟨[.command a], .inherited, true⟩
    let start : Event System.interface := ⟨.fork (.segment ⟨a, none, none⟩), .ok ⟨7⟩⟩
    let held : Shell := ⟨⟨[some ⟨[⟨⟨7⟩, none⟩], "a &"⟩]⟩, 0, none⟩
    (Death.killed 34).code = 162 ∧
      (Shell.new.run { line with background := false }).Leads
        [start, ⟨.wait ⟨7⟩, .ok (.killed 34)⟩] (.error (.wait .invalidArgument), Shell.new) ∧
      (Shell.new.run line).Leads [start] (.ok (.background 1), held) ∧
      held.jobs.Makes (.reaped [⟨⟨1, 0, ⟨7⟩⟩, .ok (some (.killed 34))⟩] [⟨1, "a &", 0⟩])
        .empty := by
  intro a line start held
  refine ⟨rfl, ?_, ?_, ?_⟩
  · dsimp only [line, a, start]
    exact .ask _ (.ask _ (.finished _))
  · dsimp only [line, a, start]
    exact .ask _ (.finished _)
  · exact .reap (.ask _ (.finished _)) rfl

end PipelineShell.Shell

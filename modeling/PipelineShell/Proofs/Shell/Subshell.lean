import PipelineShell.Proofs.Jobs.Lone
import PipelineShell.Proofs.Shell.Outcome
import PipelineShell.Shell.Child

/-!
Lines of several stages in the background. The shell starts one child for such a line, and the
child does what the shell itself would have done in the foreground. It has no way to give back what
the line comes to other than its exit code, so a status goes out as that code, and a fault as a
complaint.
-/

namespace PipelineShell.Shell

open Routine

variable {shell later : Shell} {line : CommandLine} {stages : List Stage} {output : Output}
  {events same : List (Event System.interface)} {code : Int}

/-- What a sub-shell does, and the code it exits with, where the line in the foreground has led to
the outcome by the same events. -/
inductive Echoes (same : List (Event System.interface)) :
    Except RunFault Completion → List (Event System.interface) → Int → Prop where
  | done (status : Int) : Echoes same (.ok (.done status)) same status
  | failed (fault : RunFault) (reply : Except Errno Unit) :
      Echoes same (.error fault)
        (same ++ [⟨.write Fd.error ("pish: " ++ fault.message ++ "\n"), reply⟩]) subshellFailure

/-! ### The sub-shell -/

theorem leads_complain_iff {text : String} {value : Unit} :
    (Child.complain text).Leads events value ↔
      ∃ reply, events = [⟨.write Fd.error (text ++ "\n"), reply⟩] := by
  constructor
  · intro leads
    obtain ⟨reply, back, eventsEq, returned⟩ := leads.of_ask
    rw [eventsEq, returned.of_pure.1]
    exact ⟨reply, rfl⟩
  · rintro ⟨reply, eventsEq⟩
    rw [eventsEq]
    exact .ask reply (.finished ())

theorem leads_subshell_iff :
    (subshell stages output).Leads events code ↔
      ∃ same ended, (runGated output 0 stages).run.Leads same ended ∧
        Echoes same (ended.map .done) events code := by
  constructor
  · intro leads
    obtain ⟨front, ended, back, split, ran, later⟩ := Leads.of_bind leads
    refine ⟨front, ended, ran, ?_⟩
    cases ended with
    | ok status =>
        obtain ⟨nothing, codeEq⟩ := later.of_pure
        rw [split, nothing, List.append_nil, codeEq]
        exact .done status
    | error fault =>
        obtain ⟨middle, _, last, splitBack, complained, returned⟩ := later.of_bind
        obtain ⟨nothing, codeEq⟩ := returned.of_pure
        obtain ⟨reply, middleEq⟩ := leads_complain_iff.mp complained
        rw [split, splitBack, nothing, List.append_nil, middleEq, codeEq]
        exact .failed fault reply
  · rintro ⟨same, ended, ran, echoes⟩
    refine leads_bind_iff.mpr ⟨same, ended, ?_⟩
    cases ended with
    | ok status =>
        cases echoes with
        | done _ => exact ⟨[], (List.append_nil _).symm, ran, .finished _⟩
    | error fault =>
        cases echoes with
        | failed _ reply =>
            have complained : (Child.complain ("pish: " ++ fault.message)).Leads _ () :=
              leads_complain_iff.mpr ⟨reply, rfl⟩
            exact ⟨_, rfl, ran, complained.bind (.finished _)⟩

/-! ### The line that is handed over -/

private theorem builtin?_of_several (planned : line.plan = .ok stages)
    (several : 2 ≤ stages.length) :
    builtin? line = none := by
  unfold builtin?
  split
  · rename_i command
    have single := AndOr.stages_of_command planned
    cases single
    exact absurd several (by simp)
  · rfl

theorem eq_of_startBackground {outcome : Except RunFault (List Pid)}
    (several : 2 ≤ stages.length)
    (leads : (startBackground stages output).run.Leads events outcome) :
    ∃ reply, events = [⟨.fork (.subshell stages output), reply⟩] ∧
      outcome = (reply.map fun pid => [pid]).mapError .fork := by
  unfold startBackground at leads
  split at leads
  · rename_i stage
    exact absurd several (by simp)
  · obtain ⟨reply, back, eventsEq, later⟩ := leads.of_attempt_ask
    have ended : back = [] ∧ outcome = (reply.map fun pid => [pid]).mapError .fork := by
      cases reply with
      | error errno => exact Leads.of_pure later
      | ok pid => exact Leads.of_pure later
    rw [eventsEq, ended.1]
    exact ⟨reply, rfl, ended.2⟩

private theorem cases_of_background {outcome : Except RunFault Completion}
    (planned : line.plan = .ok stages) (several : 2 ≤ stages.length)
    (background : line.background = true)
    (leads : (shell.run line).Leads events (outcome, later)) :
    (∃ errno, events = [⟨.fork (.subshell stages line.output), .error errno⟩] ∧
      outcome = .error (.fork errno) ∧ later = shell) ∨
    ∃ pid, events = [⟨.fork (.subshell stages line.output), .ok pid⟩] ∧
      outcome = .ok (.background (shell.jobs.insert [pid] line.render).1) ∧
      later.jobs = (shell.jobs.insert [pid] line.render).2 := by
  obtain ⟨attempted, started, outcomeEq, laterEq⟩ :=
    exists_started_of_background planned background leads
  obtain ⟨reply, eventsEq, attemptEq⟩ := eq_of_startBackground several started
  rw [outcomeEq, laterEq, attemptEq]
  cases reply with
  | error errno => exact Or.inl ⟨errno, eventsEq, rfl, rfl⟩
  | ok pid => exact Or.inr ⟨pid, eventsEq, rfl, rfl⟩

private theorem isStatus_of_subshell (leads : (subshell stages output).Leads events code) :
    IsStatus code := by
  obtain ⟨same, ended, ran, echoes⟩ := leads_subshell_iff.mp leads
  have within := gives_runGated output isStatus_zero stages same ended ran
  cases ended with
  | ok status =>
      cases echoes with
      | done _ => exact within
  | error fault =>
      cases echoes with
      | failed _ reply => constructor <;> decide

/-- A line of several stages in the background is one child, and one job of that child. The child
goes just the ways that the line may go in the foreground, with the same stages, gates and target,
and exits with the status; or it complains of the fault and exits with 126. No status is too great
for an exit code, so it is what the job is reported with by whatever run of a reap finds the child
ended. -/
theorem subshell_echoes_foreground (planned : line.plan = .ok stages)
    (several : 2 ≤ stages.length) (shell : Shell) :
    (∀ events outcome later,
      (shell.run { line with background := true }).Leads events (outcome, later) →
      (∃ errno, events = [⟨.fork (.subshell stages line.output), .error errno⟩] ∧
        outcome = .error (.fork errno) ∧ later = shell) ∨
      ∃ pid id description, events = [⟨.fork (.subshell stages line.output), .ok pid⟩] ∧
        outcome = .ok (.background id) ∧
        description = CommandLine.render { line with background := true } ∧
        shell.jobs.get? id = none ∧
        (∀ other, later.jobs.get? other
          = if other = id then some ⟨[⟨pid, none⟩], description⟩ else shell.jobs.get? other) ∧
        ∀ done code, (Child.subshell stages line.output).routine.Leads done code →
          later.jobs.WillReport id pid description (.ofExitCode code) code) ∧
    (∀ events code, (Child.subshell stages line.output).routine.Leads events code ↔
      ∃ same outcome later,
        (shell.run { line with background := false }).Leads same (outcome, later) ∧
        Echoes same outcome events code) ∧
    (∀ same outcome later,
      (shell.run { line with background := false }).Leads same (outcome, later) →
      (∃ status, outcome = .ok (.done status) ∧ 0 ≤ status ∧ status ≤ 255) ∨
        ∃ fault, outcome = .error fault) ∧
    ∀ (jobs : JobTable) events finished left, jobs.reap.Leads events (finished, left) →
      ∃ sightings : List Sighting, events = sightings.map Sighting.event ∧
        jobs.Makes (.reaped sightings finished) left := by
  have external : builtin? { line with background := false } = none :=
    builtin?_of_several planned several
  refine ⟨?_, ?_, ?_, fun _ _ _ _ leads => JobTable.exists_makes_of_reap leads⟩
  · intro events outcome later leads
    have alsoPlanned : CommandLine.plan { line with background := true } = .ok stages := planned
    rcases cases_of_background alsoPlanned several rfl leads with
      unstarted | ⟨pid, eventsEq, outcomeEq, jobsEq⟩
    · exact Or.inl unstarted
    · refine Or.inr ⟨pid, _, _, eventsEq, outcomeEq, rfl, shell.jobs.get?_insert_id _ _, ?_, ?_⟩
      · rw [jobsEq]
        exact shell.jobs.get?_insert _ _
      · intro done code ran
        have found := status_ofExitCode (isStatus_of_subshell ran)
        rw [jobsEq]
        exact JobTable.willReport_of_held (JobTable.get?_insert_self _ _ _) found
  · intro events code
    constructor
    · intro leads
      obtain ⟨same, ended, ran, echoes⟩ := leads_subshell_iff.mp leads
      obtain ⟨later, foreground⟩ :=
        (leads_foreground_iff planned external).mpr ⟨ended, ran, rfl⟩
      exact ⟨same, _, later, foreground, echoes⟩
    · rintro ⟨same, outcome, later, foreground, echoes⟩
      obtain ⟨ended, ran, outcomeEq⟩ :=
        (leads_foreground_iff planned external).mp ⟨later, foreground⟩
      rw [outcomeEq] at echoes
      exact leads_subshell_iff.mpr ⟨same, ended, ran, echoes⟩
  · intro same outcome later foreground
    obtain ⟨ended, ran, outcomeEq⟩ :=
      (leads_foreground_iff planned external).mp ⟨later, foreground⟩
    have within := gives_runGated line.output isStatus_zero stages same ended ran
    rw [outcomeEq]
    cases ended with
    | ok status => exact Or.inl ⟨status, rfl, within⟩
    | error fault => exact Or.inr ⟨fault, rfl⟩

/-- The line `false || echo sub > out &`, where the target cannot be opened: the sub-shell exits
with 126, and that is what a reap reports once it has found the sub-shell ended. -/
theorem subshell_echoes_foreground_of_unopened :
    let stages : List Stage := [⟨.always, [⟨"false", ["false"]⟩]⟩,
      ⟨.afterFailure, [⟨"echo", ["echo", "sub"]⟩]⟩]
    let line : CommandLine := ⟨[.command ⟨"false", ["false"]⟩, .connective .or,
      .command ⟨"echo", ["echo", "sub"]⟩], .emptied "out", true⟩
    let events : List (Event System.interface) := [
      ⟨.fork (.segment ⟨⟨"false", ["false"]⟩, none, none⟩), .ok ⟨7⟩⟩,
      ⟨.wait ⟨7⟩, .ok (.exited 1)⟩,
      ⟨.openOutput "out" false, .error .notPermitted⟩,
      ⟨.write Fd.error ("pish: " ++ (RunFault.redirect "out" (.refused .notPermitted)).message
        ++ "\n"), .ok ()⟩]
    let later : Shell := ⟨⟨[some (.ofPids [⟨9⟩] line.render)]⟩, 0, none⟩
    let polling : Event System.interface := ⟨.poll ⟨9⟩, .ok (some (.exited 126))⟩
    let finished : List FinishedJob := [⟨1, line.render, 126⟩]
    line.plan = .ok stages ∧ 2 ≤ stages.length ∧
      (Child.subshell stages line.output).routine.Leads events 126 ∧
      (∃ same outcome reached,
        (Shell.new.run { line with background := false }).Leads same (outcome, reached) ∧
        Echoes same outcome events 126) ∧
      (Shell.new.run line).Leads [⟨.fork (.subshell stages line.output), .ok ⟨9⟩⟩]
        (.ok (.background 1), later) ∧
      later.jobs.WillReport 1 ⟨9⟩ line.render (.exited 126) 126 ∧
      later.jobs.reap.Leads [polling] (finished, .empty) ∧
      ∃ sightings : List Sighting, [polling] = sightings.map Sighting.event ∧
        later.jobs.Makes (.reaped sightings finished) .empty := by
  intro stages line events later polling finished
  have planned : line.plan = .ok stages := rfl
  have several : 2 ≤ stages.length := Nat.le_refl 2
  have leads : (Child.subshell stages line.output).routine.Leads events 126 := by
    dsimp only [stages, line]
    exact .ask _ (.ask _ (.ask _ (.ask _ (.finished _))))
  have started : (Shell.new.run line).Leads [⟨.fork (.subshell stages line.output), .ok ⟨9⟩⟩]
      (.ok (.background 1), later) :=
    .ask _ (.finished _)
  have reaped : later.jobs.reap.Leads [polling] (finished, .empty) :=
    .ask _ (.finished _)
  obtain ⟨background, foreground, _, reaps⟩ := subshell_echoes_foreground planned several .new
  have reports : later.jobs.WillReport 1 ⟨9⟩ line.render (.exited 126) 126 := by
    rcases background _ _ _ started with ⟨errno, impossible, _⟩ | ⟨pid, id, description, eventsEq,
      outcomeEq, descriptionEq, _, _, willReport⟩
    · cases impossible
    · cases eventsEq
      cases outcomeEq
      rw [descriptionEq] at willReport
      exact willReport _ _ leads
  exact ⟨planned, several, leads, (foreground events 126).mp leads, started, reports, reaped,
    reaps _ _ _ _ reaped⟩

end PipelineShell.Shell

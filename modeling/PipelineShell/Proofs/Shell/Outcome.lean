import PipelineShell.Proofs.Jobs.Slots
import PipelineShell.Proofs.Plan.Language
import PipelineShell.Proofs.Shell.Results
import PipelineShell.Proofs.Shell.Running

/-!
What running a line comes to, and what it makes of the shell. A line that fails has changed
nothing of the shell, whatever had already been started for it; a line that ends leaves its status
behind, and a line that goes to the background a job of just the children started for it.
-/

namespace PipelineShell.Shell

open Routine

variable {shell later : Shell} {line : CommandLine} {stages : List Stage} {output : Output}
  {events : List (Event System.interface)}

/-! ### Builtins -/

def Builtin.leaves (builtin : Builtin) (shell : Shell) (status : Int) : Shell :=
  match builtin with
  | .changeDirectory => shell
  | .exit => { shell with exit := some status }

theorem gives_builtin (builtin : Builtin) (shell : Shell) (arguments : List String) :
    Gives (fun result => result.2 = builtin.leaves shell result.1)
      (builtin.run shell arguments) := by
  cases builtin with
  | changeDirectory => exact gives_behind fun status => gives_pure rfl
  | exit =>
      change Gives _ (Builtin.runExit shell arguments)
      unfold Builtin.runExit
      split
      · exact gives_pure rfl
      · split
        · exact gives_pure rfl
        · exact gives_behind fun _ => gives_pure rfl

private theorem builtin?_of_background (background : line.background = true) :
    builtin? line = none := by
  unfold builtin?
  split
  · cases background
  · rfl

/-! ### Ways to run -/

inductive Runs (shell : Shell) (line : CommandLine) :
    List (Event System.interface) → Except RunFault Completion → Shell → Prop where
  | builtin {builtin : Builtin} {arguments : List String} {status : Int} {reached : Shell}
      {events : List (Event System.interface)}
      (own : builtin? line = some (builtin, arguments))
      (ran : (builtin.run shell arguments).Leads events (status, reached)) :
      Runs shell line events (.ok (.done status)) { reached with lastStatus := status }
  | unplanned {fault : PlanFault} (faulty : line.plan = .error fault) :
      Runs shell line [] (.error (.plan fault)) shell
  | ended {stages : List Stage} {status : Int} {events : List (Event System.interface)}
      (planned : line.plan = .ok stages) (foreground : line.background = false)
      (ran : (runGated line.output 0 stages).run.Leads events (.ok status)) :
      Runs shell line events (.ok (.done status)) { shell with lastStatus := status }
  | failed {stages : List Stage} {fault : RunFault} {events : List (Event System.interface)}
      (planned : line.plan = .ok stages) (foreground : line.background = false)
      (ran : (runGated line.output 0 stages).run.Leads events (.error fault)) :
      Runs shell line events (.error fault) shell
  | detached {stages : List Stage} {pids : List Pid} {events : List (Event System.interface)}
      (planned : line.plan = .ok stages) (background : line.background = true)
      (started : (startBackground stages line.output).run.Leads events (.ok pids)) :
      Runs shell line events (.ok (.background (shell.jobs.insert pids line.render).1))
        { shell with jobs := (shell.jobs.insert pids line.render).2, lastStatus := 0 }
  | undetached {stages : List Stage} {fault : RunFault} {events : List (Event System.interface)}
      (planned : line.plan = .ok stages) (background : line.background = true)
      (started : (startBackground stages line.output).run.Leads events (.error fault)) :
      Runs shell line events (.error fault) shell

theorem runs_of_leads {outcome : Except RunFault Completion}
    (leads : (shell.run line).Leads events (outcome, later)) :
    Runs shell line events outcome later := by
  cases isBuiltin : builtin? line with
  | some own =>
      rw [run_of_builtin isBuiltin] at leads
      obtain ⟨_, ran, resultEq⟩ := leads_bind_pure_iff.mp leads
      cases resultEq
      exact .builtin isBuiltin ran
  | none =>
      cases plan : line.plan with
      | error fault =>
          rw [run_of_unplanned isBuiltin plan] at leads
          obtain ⟨nothing, resultEq⟩ := Leads.of_pure leads
          cases resultEq
          rw [nothing]
          exact .unplanned plan
      | ok stages =>
          cases background : line.background with
          | true =>
              rw [run_of_background plan isBuiltin background] at leads
              obtain ⟨attempted, started, resultEq⟩ := leads_bind_pure_iff.mp leads
              cases resultEq
              cases attempted with
              | ok pids => exact .detached plan background started
              | error fault => exact .undetached plan background started
          | false =>
              rw [run_of_plan plan isBuiltin background] at leads
              obtain ⟨ended, ran, resultEq⟩ := leads_bind_pure_iff.mp leads
              cases resultEq
              cases ended with
              | ok status => exact .ended plan background ran
              | error fault => exact .failed plan background ran

theorem exists_started_of_background {outcome : Except RunFault Completion}
    (planned : line.plan = .ok stages) (background : line.background = true)
    (leads : (shell.run line).Leads events (outcome, later)) :
    ∃ attempted, (startBackground stages line.output).run.Leads events attempted ∧
      outcome = attempted.map (fun pids => .background (shell.jobs.insert pids line.render).1) ∧
      later = attempted.toOption.elim shell fun pids =>
        { shell with jobs := (shell.jobs.insert pids line.render).2, lastStatus := 0 } := by
  cases runs_of_leads leads with
  | builtin own ran =>
      rw [builtin?_of_background background] at own
      cases own
  | unplanned faulty =>
      rw [planned] at faulty
      cases faulty
  | ended _ foreground ran =>
      rw [background] at foreground
      cases foreground
  | failed _ foreground ran =>
      rw [background] at foreground
      cases foreground
  | @detached _ pids _ alsoPlanned _ started =>
      rw [planned] at alsoPlanned
      cases alsoPlanned
      exact ⟨.ok pids, started, rfl, rfl⟩
  | @undetached _ fault _ alsoPlanned _ started =>
      rw [planned] at alsoPlanned
      cases alsoPlanned
      exact ⟨.error fault, started, rfl, rfl⟩

theorem leads_foreground_iff {outcome : Except RunFault Completion}
    (planned : line.plan = .ok stages)
    (external : builtin? { line with background := false } = none) :
    (∃ later, (shell.run { line with background := false }).Leads events (outcome, later)) ↔
      ∃ ended, (runGated line.output 0 stages).run.Leads events ended ∧
        outcome = ended.map .done := by
  have alsoPlanned : CommandLine.plan { line with background := false } = .ok stages := planned
  rw [run_of_plan alsoPlanned external rfl]
  constructor
  · rintro ⟨later, leads⟩
    obtain ⟨ended, ran, resultEq⟩ := leads_bind_pure_iff.mp leads
    exact ⟨ended, ran, (Prod.mk.inj resultEq).1⟩
  · rintro ⟨ended, ran, outcomeEq⟩
    rw [outcomeEq]
    exact ⟨_, leads_bind_pure_iff.mpr ⟨ended, ran, rfl⟩⟩

/-! ### Lines that go to the background -/

/-- The children that a line in the background has been started as, each with its number. -/
inductive Detaches (output : Output) : List Stage → List (Child × Pid) → Prop where
  | segments {stage : Stage} {begun : List (Launch × Pid)}
      (inOrder : (begun.map fun entry => entry.1.command) = stage.commands) :
      Detaches output [stage] (begun.map fun entry => (.segment entry.1, entry.2))
  | subshell {stages : List Stage} {pid : Pid} (several : 2 ≤ stages.length) :
      Detaches output stages [(.subshell stages output, pid)]

private theorem launches_of_startStage {stage : Stage} {target : Option Fd} {pids : List Pid}
    (leads : (startStage stage target).run.Leads events (.ok pids)) :
    ∃ begun : List (Launch × Pid),
      launches events = (begun.map fun entry => (.segment entry.1, entry.2)) ∧
      (begun.map fun entry => entry.1.command) = stage.commands ∧ begun.map Prod.snd = pids := by
  cases startsStage_of_leads leads with
  | whole starting intact =>
      obtain ⟨begun, begins, found⟩ := exists_launches_of_startSegments starting
      exact ⟨begun, found, begins.commands_eq intact, begins.pids⟩

theorem detaches_of_startBackground {pids : List Pid} (filled : stages ≠ [])
    (leads : (startBackground stages output).run.Leads events (.ok pids)) :
    Detaches output stages (launches events) ∧ pids = (launches events).map Prod.snd := by
  unfold startBackground at leads
  split at leads
  · rename_i stage
    rcases leads.of_attempt_bind with
      ⟨_, impossible, _⟩ | ⟨front, target, back, split, opened, started⟩
    · cases impossible
    have nothing : launches front = [] :=
      never_openTarget overlooksDescriptors_launch output _ _ opened
    obtain ⟨begun, found, inOrder, pidsEq⟩ := launches_of_startStage started
    rw [split, launches_append, nothing, found, List.nil_append]
    refine ⟨.segments inOrder, ?_⟩
    rw [← pidsEq, List.map_map]
    rfl
  · rename_i notSingle
    obtain ⟨reply, back, eventsEq, later⟩ := leads.of_attempt_ask
    have several : 2 ≤ stages.length := by
      rcases stages with _ | ⟨first, _ | ⟨second, others⟩⟩
      · exact absurd rfl filled
      · exact absurd rfl (notSingle first)
      · exact Nat.le_add_left 2 others.length
    cases reply with
    | error errno => cases later
    | ok pid =>
        obtain ⟨nothing, pidsEq⟩ := Leads.of_pure later
        cases pidsEq
        rw [eventsEq, nothing]
        exact ⟨.subshell several, rfl⟩

/-- The child whose status is that of the line: the last segment of its only stage, or else the
shell that runs all of them. -/
inductive IsFinal (output : Output) : List Stage → Child → Prop where
  | segment {stage : Stage} {launch : Launch}
      (last : stage.commands.getLast? = some launch.command) :
      IsFinal output [stage] (.segment launch)
  | subshell {stages : List Stage} (several : 2 ≤ stages.length) :
      IsFinal output stages (.subshell stages output)

theorem Detaches.exists_final {started : List (Child × Pid)}
    (detaches : Detaches output stages started) (filled : ∀ stage ∈ stages, stage.commands ≠ []) :
    ∃ child pid, started.getLast? = some (child, pid) ∧ IsFinal output stages child := by
  cases detaches with
  | @segments stage begun inOrder =>
      have someBegun : begun ≠ [] := by
        intro nothing
        rw [nothing] at inOrder
        exact filled stage List.mem_cons_self inOrder.symm
      have isLast := List.getLast?_eq_some_getLast someBegun
      refine ⟨_, _, by rw [List.getLast?_map, isLast]; rfl, .segment ?_⟩
      rw [← inOrder, List.getLast?_map, isLast]
      rfl
  | @subshell _ pid several => exact ⟨_, pid, rfl, .subshell several⟩

/-! ### The shell behind a line -/

/-- The shell has the job more under a number that led nowhere before. The processes of the job are
the children that have been started for the line, none of them collected yet. -/
structure GainsJob (shell : Shell) (line : CommandLine) (stages : List Stage)
    (started : List (Child × Pid)) (id : Nat) (job : Job) (later : Shell) : Prop where
  planned : line.plan = .ok stages
  free : shell.jobs.get? id = none
  jobs : ∀ other, later.jobs.get? other = if other = id then some job else shell.jobs.get? other
  description : job.description = line.render
  processes : job.processes = started.map fun entry => ⟨entry.2, none⟩
  detaches : Detaches line.output stages started
  final : ∃ child pid, started.getLast? = some (child, pid) ∧ job.finalPid? = some pid ∧
    IsFinal line.output stages child
  lastStatus : later.lastStatus = 0
  exit : later.exit = shell.exit

private theorem gainsJob_of_startBackground {pids : List Pid} (planned : line.plan = .ok stages)
    (leads : (startBackground stages line.output).run.Leads events (.ok pids)) :
    GainsJob shell line stages (launches events) (shell.jobs.insert pids line.render).1
      (.ofPids pids line.render)
      { shell with jobs := (shell.jobs.insert pids line.render).2, lastStatus := 0 } := by
  obtain ⟨detaches, pidsEq⟩ := detaches_of_startBackground (CommandLine.plan_ne_nil planned) leads
  obtain ⟨child, pid, isLast, isFinal⟩ :=
    detaches.exists_final (CommandLine.continues_of_plan planned).filled
  refine ⟨planned, shell.jobs.get?_insert_id pids line.render,
    shell.jobs.get?_insert pids line.render, rfl, ?_, detaches, ⟨child, pid, isLast, ?_, isFinal⟩,
    rfl, rfl⟩
  · rw [Job.ofPids, pidsEq, List.map_map]
    rfl
  · rw [Job.finalPid?, Job.ofPids, List.getLast?_map, pidsEq, List.getLast?_map, isLast]
    rfl

/-- Whatever a line comes to, and at whatever point it fails, the shell is left in a state that the
outcome alone describes. A line without a plan has asked nothing of the system. -/
theorem run_settles_shell {outcome : Except RunFault Completion}
    (leads : (shell.run line).Leads events (outcome, later)) :
    (∀ fault, outcome = .error fault →
      later = shell ∧ ∀ cause, fault = .plan cause → events = []) ∧
    (∀ id, outcome = .ok (.background id) →
      ∃ stages job, GainsJob shell line stages (launches events) id job later) ∧
    ∀ status, outcome = .ok (.done status) →
      later.lastStatus = status ∧ later.jobs = shell.jobs ∧
      (later.exit = shell.exit ∨
        ∃ arguments, builtin? line = some (.exit, arguments) ∧ later.exit = some status) := by
  have whole := runs_of_leads leads
  refine ⟨?_, ?_, ?_⟩
  · intro fault isError
    rw [isError] at whole
    cases whole with
    | unplanned faulty => exact ⟨rfl, fun _ _ => rfl⟩
    | failed planned foreground ran =>
        have ofStages := gives_runGated _ isStatus_zero _ _ _ ran
        exact ⟨rfl, fun cause isPlan => absurd isPlan (ofStages.not_plan cause)⟩
    | undetached planned background started =>
        have ofStages := gives_startBackground _ _ _ _ started
        exact ⟨rfl, fun cause isPlan => absurd isPlan (ofStages.not_plan cause)⟩
  · intro id isBackground
    rw [isBackground] at whole
    cases whole with
    | detached planned background started =>
        exact ⟨_, _, gainsJob_of_startBackground planned started⟩
  · intro status isDone
    rw [isDone] at whole
    cases whole with
    | ended planned foreground ran => exact ⟨rfl, rfl, Or.inl rfl⟩
    | @builtin builtin arguments _ reached _ own ran =>
        have reachedEq : reached = builtin.leaves shell status :=
          gives_builtin builtin shell arguments _ _ ran
        rw [reachedEq]
        cases builtin with
        | changeDirectory => exact ⟨rfl, rfl, Or.inl rfl⟩
        | exit => exact ⟨rfl, rfl, Or.inr ⟨arguments, own, rfl⟩⟩

/-- The line `a | b &`, where the job takes the first number; and the same line where `b` cannot be
started, behind a line with status three. -/
theorem run_settles_shell_of_background_pipe :
    let a : Command := ⟨"a", ["a"]⟩
    let b : Command := ⟨"b", ["b"]⟩
    let line : CommandLine := ⟨[.command a, .connective .pipe, .command b], .inherited, true⟩
    let begun : List (Event System.interface) := [⟨.makePipe, .ok (3, 4)⟩,
      ⟨.fork (.segment ⟨a, none, some 4⟩), .ok ⟨7⟩⟩, ⟨.close 4, ()⟩]
    let events := begun ++ [⟨.fork (.segment ⟨b, some 3, none⟩), .ok ⟨8⟩⟩, ⟨.close 3, ()⟩]
    let failing := begun ++ [⟨.fork (.segment ⟨b, some 3, none⟩), .error .notPermitted⟩,
      ⟨.close 3, ()⟩, ⟨.wait ⟨7⟩, .ok (.exited 0)⟩]
    let job : Job := ⟨[⟨⟨7⟩, none⟩, ⟨⟨8⟩, none⟩], "a | b &"⟩
    let later : Shell := ⟨⟨[some job]⟩, 0, none⟩
    let third : Shell := ⟨.empty, 3, none⟩
    (Shell.new.run line).Leads events (.ok (.background 1), later) ∧
      (∃ stages job, GainsJob .new line stages (launches events) 1 job later) ∧
      ∃ left, (third.run line).Leads failing (.error (.fork .notPermitted), left) ∧
        left = third := by
  intro a b line begun events failing job later third
  have leads : (Shell.new.run line).Leads events (.ok (.background 1), later) := by
    dsimp only [line, a, b]
    exact .ask _ (.ask _ (.ask _ (.ask _ (.ask _ (.finished _)))))
  have failed : (third.run line).Leads failing (.error (.fork .notPermitted), third) := by
    dsimp only [line, a, b]
    exact .ask _ (.ask _ (.ask _ (.ask _ (.ask _ (.ask _ (.finished _))))))
  exact ⟨leads, (run_settles_shell leads).2.1 1 rfl, third, failed,
    ((run_settles_shell failed).1 _ rfl).1⟩

/-! ### Lines that can be planned -/

private theorem exists_push?_of_background {id : Nat}
    (leads : (shell.run line).Leads events (.ok (.background id), later)) :
    ∃ pids, shell.jobs.push? pids line.render = some (id, later.jobs) := by
  cases runs_of_leads leads with
  | @detached stages pids _ planned background started =>
      refine ⟨pids, JobTable.push?_eq_some_iff.mpr ⟨?_, rfl⟩⟩
      have gains : GainsJob shell line stages _ _ (.ofPids pids line.render) _ :=
        gainsJob_of_startBackground planned started
      obtain ⟨_, pid, _, hasFinal, _⟩ := gains.final
      intro nothing
      rw [nothing] at hasFinal
      cases hasFinal

/-- Of all lines, however they have come about, just those have a plan that can be planned; the
plan is the line again, and every other line has the fault that stands furthest left. -/
theorem plan_reads_language (line : CommandLine) :
    ((∃ stages, line.plan = .ok stages) ↔ Plan.IsPlannable line.items) ∧
    (∀ stages, line.plan = .ok stages →
      (∀ stage ∈ stages, stage.commands ≠ []) ∧
      (∃ later, stages.map Stage.gate = .always :: later ∧ .always ∉ later) ∧
      stages.flatMap Stage.items = line.items.map Item.completed) ∧
    (∀ fault, line.plan = .error fault ↔ Plan.IsLeftmostFault .command line.items fault) ∧
    ∀ (shell later : Shell) (events : List (Event System.interface)) (id : Nat),
      (shell.run line).Leads events (.ok (.background id), later) →
      ∃ pids, shell.jobs.push? pids line.render = some (id, later.jobs) := by
  refine ⟨⟨?_, Plan.exists_stages_of_isPlannable⟩, ?_, fun fault => Plan.stages_eq_error_iff, ?_⟩
  · rintro ⟨stages, planned⟩
    exact Plan.isPlannableFrom_of_stages planned
  · intro stages planned
    have continues := CommandLine.continues_of_plan planned
    exact ⟨continues.filled, continues.gates, continues.written⟩
  · intro shell later events id leads
    exact exists_push?_of_background leads

end PipelineShell.Shell

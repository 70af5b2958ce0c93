import PipelineShell.Shell.Run

/-!
What running a line asks for and leaves, one equation for each way to run. In each the shell is
written to behind the last request that may fail; that the others leave it alone is read off here,
and nothing else looks into how a line is run.
-/

namespace PipelineShell.Shell

variable {α β : Type} {shell : Shell} {line : CommandLine} {stages : List Stage}

private theorem run_ofAttempt_bind (attempt : Attempt α) (next : α → Running β) (shell : Shell) :
    (Running.ofAttempt attempt >>= next).run.run shell = (do
      match ← attempt.run with
      | .ok value => (next value).run.run shell
      | .error fault => return (.error fault, shell)) := by
  rw [ExceptT.run_bind, StateT.run_bind]
  change (attempt.run >>= fun outcome => pure (outcome, shell)) >>= _ = _
  rw [bind_assoc]
  apply bind_congr
  intro outcome
  rw [pure_bind]
  cases outcome <;> rfl

private theorem run_lift_bind (routine : Routine System.interface α) (next : α → Running β)
    (shell : Shell) :
    ((liftM routine : Running α) >>= next).run.run shell
      = routine >>= fun value => (next value).run.run shell := by
  have lifted : (liftM routine : Running α).run.run shell
      = routine >>= fun value => pure (Except.ok value, shell) := by
    change ((routine >>= fun value => pure (value, shell)) >>= fun given =>
      pure (Except.ok given.1, given.2) : Routine System.interface (Except RunFault α × Shell)) = _
    rw [bind_assoc]
    rfl
  rw [ExceptT.run_bind, StateT.run_bind, lifted, bind_assoc]
  rfl

theorem run_of_builtin {builtin : Builtin} {arguments : List String}
    (own : builtin? line = some (builtin, arguments)) :
    shell.run line = (do
      let result ← builtin.run shell arguments
      return (.ok (.done result.1), { result.2 with lastStatus := result.1 })) := by
  rw [run, own]
  exact run_lift_bind (builtin.run shell arguments) _ shell

theorem run_of_unplanned {fault : PlanFault} (external : builtin? line = none)
    (faulty : line.plan = .error fault) :
    shell.run line = return (.error (.plan fault), shell) := by
  rw [run, external]
  change (runExternal line).run.run shell = _
  rw [runExternal, faulty]
  rfl

/-- A foreground line that has a plan comes to what its stages come to, whatever the status of the
line before it. -/
theorem run_of_plan (planned : line.plan = .ok stages) (external : builtin? line = none)
    (foreground : line.background = false) :
    shell.run line = (do
      let outcome ← (runGated line.output 0 stages).run
      return (outcome.map .done, match outcome with
        | .ok status => { shell with lastStatus := status }
        | .error _ => shell)) := by
  rw [run, external]
  change (runExternal line).run.run shell = _
  rw [runExternal, planned]
  change (runPlanned line stages).run.run shell = _
  rw [runPlanned, foreground]
  refine (run_ofAttempt_bind _ _ shell).trans (bind_congr fun outcome => ?_)
  cases outcome <;> rfl

theorem run_of_background (planned : line.plan = .ok stages) (external : builtin? line = none)
    (background : line.background = true) :
    shell.run line = (do
      let outcome ← (startBackground stages line.output).run
      return (outcome.map fun pids => .background (shell.jobs.insert pids line.render).1,
        match outcome with
        | .ok pids => { shell with
            jobs := (shell.jobs.insert pids line.render).2
            lastStatus := 0 }
        | .error _ => shell)) := by
  rw [run, external]
  change (runExternal line).run.run shell = _
  rw [runExternal, planned]
  change (runPlanned line stages).run.run shell = _
  rw [runPlanned, background]
  refine (run_ofAttempt_bind _ _ shell).trans (bind_congr fun outcome => ?_)
  cases outcome <;> rfl

end PipelineShell.Shell

import PipelineShell.Proofs.Shell.Children
import PipelineShell.Proofs.Shell.Running

/-!
Lines as trees. A line that has a plan is a tree whose inner nodes are its gates, grown to the
left; running the stages one behind another, with one status carried along, is evaluating that
tree.
-/

namespace PipelineShell

inductive AndOr where
  | pipeline (commands : List Command)
  | and (left right : AndOr)
  | or (left right : AndOr)

namespace AndOr

/-- The tree with a command more at the end of its last pipeline. -/
def piped (step : Command) : AndOr → AndOr
  | .pipeline commands => .pipeline (commands ++ [step])
  | .and left right => .and left (right.piped step)
  | .or left right => .or left (right.piped step)

/-- The tree with a command more. A pipe binds it to the last pipeline; any other connective takes
the whole tree to its left. -/
def joined (tree : AndOr) (step : Command) : Connective → AndOr
  | .pipe => tree.piped step
  | .and => .and tree (.pipeline [step])
  | .or => .or tree (.pipeline [step])

def extend (tree : AndOr) : List Item → Option AndOr
  | [] => some tree
  | .connective join :: .command step :: rest => (tree.joined step.completed join).extend rest
  | _ => none

def runPipeline (commands : List Command) (output : Output) : Shell.Attempt Int := do
  let target ← Shell.openTarget output
  let pids ← Shell.startStage ⟨.always, commands⟩ target
  Shell.collectAll pids

/-- The status of a tree, of which the last pipeline writes to the output. -/
def evaluate : AndOr → Output → Shell.Attempt Int
  | .pipeline commands, output => runPipeline commands output
  | .and left right, output => do
      let status ← left.evaluate .inherited
      if status = 0 then right.evaluate output else return status
  | .or left right, output => do
      let status ← left.evaluate .inherited
      if status = 0 then return status else right.evaluate output

end AndOr

def CommandLine.tree? (line : CommandLine) : Option AndOr :=
  match line.items with
  | .command first :: rest => (AndOr.pipeline [first.completed]).extend rest
  | _ => none

namespace AndOr

/-! ### The stages of a tree -/

/-- The stages of a tree that is grown to the left: those in front, and the last. -/
inductive HasStages : AndOr → List Stage → Stage → Prop where
  | pipeline (commands : List Command) : HasStages (.pipeline commands) [] ⟨.always, commands⟩
  | and {tree : AndOr} {front : List Stage} {last : Stage} (before : HasStages tree front last)
      (commands : List Command) :
      HasStages (.and tree (.pipeline commands)) (front ++ [last]) ⟨.afterSuccess, commands⟩
  | or {tree : AndOr} {front : List Stage} {last : Stage} (before : HasStages tree front last)
      (commands : List Command) :
      HasStages (.or tree (.pipeline commands)) (front ++ [last]) ⟨.afterFailure, commands⟩

theorem HasStages.piped {tree : AndOr} {front : List Stage} {last : Stage}
    (stages : HasStages tree front last) (step : Command) :
    HasStages (tree.piped step) front { last with commands := last.commands ++ [step] } := by
  cases stages with
  | pipeline commands => exact .pipeline _
  | and before commands => exact .and before _
  | or before commands => exact .or before _

private theorem prepare_eq {command prepared : Command} (passed : command.prepare = .ok prepared) :
    prepared = command.completed := by
  rw [Command.prepare] at passed
  split at passed
  · cases passed
  · cases passed
    rfl

theorem stages_of_command {gate : Gate} {before : List Command} {step : Command}
    {rest : List Item} {stages : List Stage}
    (planned : Plan.stages gate before .command (.command step :: rest) = .ok stages) :
    Plan.stages gate (before ++ [step.completed]) .connective rest = .ok stages := by
  rw [Plan.stages] at planned
  split at planned
  · cases planned
  · cases prepared : step.prepare with
    | error fault =>
        rw [prepared] at planned
        cases planned
    | ok given =>
        rw [prepared] at planned
        rw [← prepare_eq prepared]
        exact planned

theorem exists_later_of_gate {stage : Stage} {later : Except PlanFault (List Stage)}
    {stages : List Stage} (planned : (do let others ← later; return stage :: others) = .ok stages) :
    ∃ others, later = .ok others ∧ stages = stage :: others := by
  cases later with
  | error fault => cases planned
  | ok others =>
      cases planned
      exact ⟨others, rfl, rfl⟩

private theorem exists_extend_of_stages {tree : AndOr} {front stages : List Stage} {last : Stage}
    {items : List Item} (given : HasStages tree front last)
    (planned : Plan.stages last.gate last.commands .connective items = .ok stages) :
    ∃ grown front' last', tree.extend items = some grown ∧ HasStages grown front' last' ∧
      front ++ stages = front' ++ [last'] := by
  induction tree, items using AndOr.extend.induct generalizing front last stages with
  | case1 tree =>
      cases planned
      exact ⟨tree, front, last, rfl, given, rfl⟩
  | case2 tree join step rest ih =>
      cases join with
      | pipe => exact ih (given.piped step.completed) (stages_of_command planned)
      | and =>
          obtain ⟨later, plannedLater, stagesEq⟩ := exists_later_of_gate planned
          have grown := ih (.and given [step.completed]) (stages_of_command plannedLater)
          rw [List.append_assoc] at grown
          rw [stagesEq]
          exact grown
      | or =>
          obtain ⟨later, plannedLater, stagesEq⟩ := exists_later_of_gate planned
          have grown := ih (.or given [step.completed]) (stages_of_command plannedLater)
          rw [List.append_assoc] at grown
          rw [stagesEq]
          exact grown
  | case3 items tree notEmpty notJoined =>
      cases items with
      | nil => exact (notEmpty rfl).elim
      | cons first rest =>
          cases first with
          | command step => cases planned
          | connective join =>
              have refused : ∀ gate before, ∃ fault,
                  Plan.stages gate before .command rest = .error fault := by
                intro gate before
                cases rest with
                | nil => exact ⟨_, rfl⟩
                | cons second others =>
                    cases second with
                    | command step => exact (notJoined join step others rfl).elim
                    | connective other => exact ⟨_, rfl⟩
              cases join with
              | pipe =>
                  obtain ⟨fault, refusedHere⟩ := refused last.gate last.commands
                  rw [Plan.stages, refusedHere] at planned
                  cases planned
              | and =>
                  obtain ⟨fault, refusedHere⟩ := refused .afterSuccess []
                  rw [Plan.stages, refusedHere] at planned
                  cases planned
              | or =>
                  obtain ⟨fault, refusedHere⟩ := refused .afterFailure []
                  rw [Plan.stages, refusedHere] at planned
                  cases planned

/-- A line that has a plan is a tree of the same stages. -/
theorem exists_tree_of_plan {line : CommandLine} {stages : List Stage}
    (planned : line.plan = .ok stages) :
    ∃ tree front last, line.tree? = some tree ∧ HasStages tree front last ∧
      stages = front ++ [last] := by
  rw [CommandLine.plan] at planned
  rw [CommandLine.tree?]
  cases itemsEq : line.items with
  | nil =>
      rw [itemsEq] at planned
      cases planned
  | cons first rest =>
      rw [itemsEq] at planned
      cases first with
      | connective join => cases planned
      | command step =>
          exact exists_extend_of_stages (.pipeline [step.completed]) (stages_of_command planned)

end AndOr

namespace Shell

/-! ### Stages one behind another -/

theorem runGated_cons (output : Output) (status : Int) (stage : Stage) (rest : List Stage) :
    runGated output status (stage :: rest)
      = if stage.gate.opens status then do
          let status ← AndOr.runPipeline stage.commands
            (if rest.isEmpty then output else .inherited)
          runGated output status rest
        else runGated output status rest := by
  rw [runGated]
  split
  · simp only [AndOr.runPipeline, bind_assoc]
    cases rest.isEmpty <;> rfl
  · rfl

theorem runGated_append (done rest : List Stage) (more : rest ≠ []) (output : Output)
    (status : Int) :
    runGated output status (done ++ rest) = (do
      let status ← runGated .inherited status done
      runGated output status rest) := by
  induction done generalizing status with
  | nil => exact (pure_bind status fun status => runGated output status rest).symm
  | cons stage others ih =>
      have notLast : (others ++ rest).isEmpty = false := by
        simp [more]
      rw [List.cons_append, runGated_cons, runGated_cons, notLast, ite_self]
      split
      · rw [bind_assoc]
        exact bind_congr ih
      · exact ih status

theorem runGated_single (output : Output) (status : Int) (stage : Stage) :
    runGated output status [stage]
      = if stage.gate.opens status then AndOr.runPipeline stage.commands output
        else return status := by
  rw [runGated_cons]
  split
  · exact bind_pure _
  · rfl

/-- Running the stages of a tree evaluates it, whatever status is carried in. -/
theorem runGated_eq_evaluate {tree : AndOr} {front : List Stage} {last : Stage}
    (stages : AndOr.HasStages tree front last) (output : Output) (status : Int) :
    runGated output status (front ++ [last]) = tree.evaluate output := by
  induction stages generalizing output with
  | pipeline commands => exact runGated_single output status ⟨.always, commands⟩
  | and before commands ih =>
      rw [runGated_append _ _ (List.cons_ne_nil _ _), ih, AndOr.evaluate]
      apply bind_congr
      intro reached
      rw [runGated_single]
      by_cases succeeded : reached = 0
      · have opened : Gate.opens .afterSuccess reached = true := beq_iff_eq.mpr succeeded
        rw [if_pos succeeded]
        exact if_pos opened
      · have closed : ¬ Gate.opens .afterSuccess reached = true :=
          fun opened => succeeded (beq_iff_eq.mp opened)
        rw [if_neg succeeded]
        exact if_neg closed
  | or before commands ih =>
      rw [runGated_append _ _ (List.cons_ne_nil _ _), ih, AndOr.evaluate]
      apply bind_congr
      intro reached
      rw [runGated_single]
      by_cases succeeded : reached = 0
      · have closed : ¬ Gate.opens .afterFailure reached = true :=
          fun opened => bne_iff_ne.mp opened succeeded
        rw [if_pos succeeded]
        exact if_neg closed
      · have opened : Gate.opens .afterFailure reached = true := bne_iff_ne.mpr succeeded
        rw [if_neg succeeded]
        exact if_pos opened

/-! ### The children of the stages that have run -/

private theorem exists_block_of_runPipeline {commands : List Command} {output : Output}
    {status : Int}
    {events : List (Event System.interface)}
    (leads : (AndOr.runPipeline commands output).run.Leads events (.ok status)) :
    ∃ pids, pids.length = commands.length ∧ childEvents events = ChildEvent.block pids := by
  rcases leads.of_attempt_bind with ⟨_, impossible, _⟩ | ⟨front, target, back, split, opened, later⟩
  · cases impossible
  rcases later.of_attempt_bind with
    ⟨_, impossible, _⟩ | ⟨middle, pids, last, splitBack, started, collected⟩
  · cases impossible
  obtain ⟨children, each⟩ := childEvents_of_startStage started
  have nothing : childEvents front = [] :=
    never_openTarget overlooksDescriptors_child output _ _ opened
  refine ⟨pids, each, ?_⟩
  rw [split, splitBack, childEvents_append, childEvents_append, nothing, children,
    childEvents_of_collectAll collected]
  rfl

/-- What becomes of the children of stages that come to a status, from the status that the first
gate is decided by. A stage whose gate is closed starts no child; one whose gate is open starts a
child for each of its commands and collects them all, and then what it has come to decides the next
gate. -/
inductive CollectsEach : Int → List Stage → List (Event System.interface) → Int → Prop where
  | nothing (status : Int) : CollectsEach status [] [] status
  | skipped {status last : Int} {stage : Stage} {rest : List Stage}
      {events : List (Event System.interface)} (closed : stage.gate.opens status = false)
      (later : CollectsEach status rest events last) :
      CollectsEach status (stage :: rest) events last
  | ran {status reached last : Int} {stage : Stage} {rest : List Stage} {pids : List Pid}
      {front back : List (Event System.interface)} (opened : stage.gate.opens status = true)
      (leads : (AndOr.runPipeline stage.commands .inherited).run.Leads front (.ok reached))
      (each : pids.length = stage.commands.length)
      (collected : childEvents front = ChildEvent.block pids)
      (later : CollectsEach reached rest back last) :
      CollectsEach status (stage :: rest) (front ++ back) last

theorem CollectsEach.exists_blocks {stages : List Stage} {status last : Int}
    {events : List (Event System.interface)} (collects : CollectsEach status stages events last) :
    ∃ blocks : List (List Pid),
      (blocks.map List.length).Sublist (stages.map fun stage => stage.commands.length) ∧
        childEvents events = blocks.flatMap ChildEvent.block := by
  induction collects with
  | nothing status => exact ⟨[], List.Sublist.refl _, rfl⟩
  | skipped closed later ih =>
      obtain ⟨blocks, within, others⟩ := ih
      exact ⟨blocks, within.cons _, others⟩
  | @ran _ _ _ _ _ pids _ _ opened leads each collected later ih =>
      obtain ⟨blocks, within, others⟩ := ih
      refine ⟨pids :: blocks, ?_, by rw [childEvents_append, collected, others]; rfl⟩
      rw [List.map_cons, List.map_cons, each]
      exact within.cons_cons _

theorem collectsEach_of_runGated {stages : List Stage} {status last : Int}
    {events : List (Event System.interface)}
    (leads : (runGated .inherited status stages).run.Leads events (.ok last)) :
    CollectsEach status stages events last := by
  induction stages generalizing status events with
  | nil =>
      obtain ⟨nothing, same⟩ := Routine.Leads.of_pure leads
      cases same
      rw [nothing]
      exact .nothing last
  | cons stage rest ih =>
      rw [runGated_cons, ite_self] at leads
      split at leads
      · rename_i opened
        rcases leads.of_attempt_bind with
          ⟨_, impossible, _⟩ | ⟨front, reached, back, split, ran, later⟩
        · cases impossible
        obtain ⟨pids, each, collected⟩ := exists_block_of_runPipeline ran
        rw [split]
        exact .ran opened ran each collected (ih later)
      · rename_i closed
        exact .skipped (Bool.eq_false_iff.mpr closed) (ih leads)

/-! ### Lines -/

/-- The stages of a line that has a plan run as its tree is evaluated. Wherever a gate is due, the
stages in front of it have run as they would alone, and if they have come to a status, then all
their children have been collected. No status of an earlier line plays a part. -/
theorem stages_run_as_tree {line : CommandLine} {stages : List Stage}
    (planned : line.plan = .ok stages) :
    ∃ tree front last, line.tree? = some tree ∧ AndOr.HasStages tree front last ∧
      stages = front ++ [last] ∧
      runGated line.output 0 stages = tree.evaluate line.output ∧
      (∀ done gated rest, stages = done ++ gated :: rest →
        runGated line.output 0 stages = (do
          let status ← runGated .inherited 0 done
          runGated line.output status (gated :: rest)) ∧
        ∀ events status, (runGated .inherited 0 done).run.Leads events (.ok status) →
          CollectsEach 0 done events status) ∧
      ∀ shell : Shell, builtin? line = none → line.background = false →
        shell.run line = (do
          let outcome ← (tree.evaluate line.output).run
          return (outcome.map .done, match outcome with
            | .ok status => { shell with lastStatus := status }
            | .error _ => shell)) := by
  obtain ⟨tree, front, last, isTree, hasStages, stagesEq⟩ := AndOr.exists_tree_of_plan planned
  have evaluated : runGated line.output 0 stages = tree.evaluate line.output := by
    rw [stagesEq]
    exact runGated_eq_evaluate hasStages line.output 0
  refine ⟨tree, front, last, isTree, hasStages, stagesEq, evaluated, ?_, ?_⟩
  · intro done gated rest split
    refine ⟨?_, fun events status leads => collectsEach_of_runGated leads⟩
    rw [split]
    exact runGated_append done (gated :: rest) (List.cons_ne_nil _ _) line.output 0
  · intro shell external foreground
    rw [← evaluated]
    exact run_of_plan planned external foreground

/-- The line `a && b || c > o`, of which `a` fails, `b` is skipped and `c` runs. -/
theorem stages_run_as_tree_of_and_or :
    let line : CommandLine := ⟨[.command ⟨"a", ["a"]⟩, .connective .and, .command ⟨"b", ["b"]⟩,
      .connective .or, .command ⟨"c", ["c"]⟩], .emptied "o", false⟩
    let first : Stage := ⟨.always, [⟨"a", ["a"]⟩]⟩
    let second : Stage := ⟨.afterSuccess, [⟨"b", ["b"]⟩]⟩
    let third : Stage := ⟨.afterFailure, [⟨"c", ["c"]⟩]⟩
    let tree : AndOr := .or (.and (.pipeline first.commands) (.pipeline second.commands))
      (.pipeline third.commands)
    let failing : List (Event System.interface) := [
      ⟨.fork (.segment ⟨⟨"a", ["a"]⟩, none, none⟩), .ok ⟨7⟩⟩,
      ⟨.wait ⟨7⟩, .ok (.exited 1)⟩]
    let events := failing ++ [
      ⟨.openOutput "o" false, .ok 3⟩,
      ⟨.fork (.segment ⟨⟨"c", ["c"]⟩, none, some 3⟩), .ok ⟨8⟩⟩,
      ⟨.close 3, ()⟩,
      ⟨.wait ⟨8⟩, .ok (.exited 5)⟩]
    line.plan = .ok [first, second, third] ∧
      (tree.evaluate line.output).run.Leads events (.ok 5) ∧
      CollectsEach 0 [first, second] failing 1 ∧
      childEvents failing = ChildEvent.block [⟨7⟩] ∧
      (Shell.new.run line).Leads events (.ok (.done 5), { Shell.new with lastStatus := 5 }) := by
  intro line first second third tree failing events
  have planned : line.plan = .ok [first, second, third] := by
    rfl
  obtain ⟨grown, front, last, isTree, _, _, evaluated, before, runs⟩ := stages_run_as_tree planned
  cases isTree
  have gated : (runGated line.output 0 [first, second, third]).run.Leads events (.ok 5) := by
    dsimp only [events, failing, line, first, second, third]
    exact .ask _ (.ask _ (.ask _ (.ask _ (.ask _ (.ask _ (.finished _))))))
  have inFront : (runGated .inherited 0 [first, second]).run.Leads failing (.ok 1) := by
    dsimp only [failing, first, second]
    exact .ask _ (.ask _ (.finished _))
  rw [evaluated] at gated
  refine ⟨planned, gated, (before [first, second] third [] rfl).2 _ _ inFront, rfl, ?_⟩
  rw [runs .new rfl rfl]
  exact Routine.leads_bind_pure_iff.mpr ⟨.ok 5, gated, rfl⟩

end Shell

end PipelineShell

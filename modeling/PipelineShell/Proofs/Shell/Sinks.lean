import PipelineShell.Proofs.Shell.AndOr
import PipelineShell.Proofs.Shell.Programs

/-!
What the programs of several stages write to. Of the children that are started for stages one
after another, a segment that is not the last of its stage writes into a pipe, and the last one to
what the stage is given. So the target of a line is behind the standard output of one program at
most, however the system chooses its numbers and whatever it refuses.
-/

namespace PipelineShell.Shell

open Monitor

open Kernel (watch)

variable {file : Type} {initial : Descriptors (Endpoint file)} {pipes : Nat}
  {children : List (Child × Descriptors (Endpoint file))} {mayRefuse : Prop}

def IsSegment (initial : Descriptors (Endpoint file)) (sink : Option (Endpoint file))
    (entry : Child × Descriptors (Endpoint file)) : Prop :=
  ∃ launch source, entry.1 = .segment launch ∧ Draws initial source sink launch entry.2

def IsSpared (initial : Descriptors (Endpoint file))
    (entry : Child × Descriptors (Endpoint file)) : Prop :=
  ∃ sink, IsSegment initial sink entry ∧ sink ≠ some .target

theorem IsPiped.isSpared {entry : Child × Descriptors (Endpoint file)}
    (piped : IsPiped initial entry) : IsSpared initial entry := by
  obtain ⟨launch, source, pipe, isLaunch, draws⟩ := piped
  exact ⟨_, ⟨launch, source, isLaunch, draws⟩, (nomatch ·)⟩

theorem Joined.exists_final {sink source : Option (Endpoint file)} {pipe : Nat}
    {commands : List Command} {made : List (Child × Descriptors (Endpoint file))}
    (joined : Joined initial sink source pipe commands made) :
    ∃ most launch table lastSource, made = most ++ [(.segment launch, table)] ∧
      (∀ entry ∈ most, IsPiped initial entry) ∧ commands.getLast? = some launch.command ∧
      Draws initial lastSource sink launch table := by
  induction joined with
  | @last source pipe launch table draws =>
      exact ⟨[], launch, table, source, rfl, List.forall_mem_nil _, rfl, draws⟩
  | @piped source pipe launch table rest made draws later ih =>
      obtain ⟨most, final, finalTable, lastSource, madeEq, piped, isLast, drawsLast⟩ := ih
      refine ⟨(.segment launch, table) :: most, final, finalTable, lastSource, ?_, ?_, ?_,
        drawsLast⟩
      · rw [madeEq, List.cons_append]
      · exact List.forall_mem_cons.mpr ⟨⟨launch, source, pipe, rfl, draws⟩, piped⟩
      · rw [List.getLast?_cons, isLast]
        rfl

/-- What has become of the children with a pipeline: there are some more, of which at most the last
writes into the sink, and then it is the last segment. -/
def HasStarted (initial : Descriptors (Endpoint file)) (commands : List Command)
    (sink : Option (Endpoint file)) (children : List (Child × Descriptors (Endpoint file)))
    (kernel : Kernel file) : Prop :=
  ∃ later most final, kernel.Holds initial [] later (children ++ (most ++ final)) ∧
    (∀ entry ∈ most, IsPiped initial entry) ∧
    (final = [] ∨ ∃ launch source table, final = [(.segment launch, table)] ∧
      commands.getLast? = some launch.command ∧ Draws initial source sink launch table)

theorem triple_start (stage : Stage) (output : Output) (nonempty : stage.commands ≠ []) :
    (watch file mayRefuse).Triple (Kernel.Holds initial [] pipes children)
      (do let fd ← openTarget output; startStage stage fd : Attempt (List Pid)).run
      (either (fun _ => HasStarted initial stage.commands (targetOf output) children)
        fun _ => HasStarted initial stage.commands (targetOf output) children) := by
  refine (triple_pipeline stage output nonempty).imp (fun _ holds => holds) ?_
  intro outcome kernel left
  cases outcome with
  | ok pids =>
      obtain ⟨_, later, made, holds, joined⟩ := left
      obtain ⟨most, launch, table, source, madeEq, piped, isLast, draws⟩ := joined.exists_final
      rw [madeEq] at holds
      exact ⟨later, most, _, holds, piped, Or.inr ⟨launch, source, table, rfl, isLast, draws⟩⟩
  | error fault =>
      obtain ⟨_, later, made, holds, piped⟩ := left
      refine ⟨later, made, [], ?_, piped, Or.inl rfl⟩
      rw [List.append_nil]
      exact holds

theorem triple_collectAll {pre : Kernel file → Prop} (pids : List Pid) :
    (watch file mayRefuse).Triple pre (collectAll pids).run
      (either (fun _ => pre) fun _ => pre) := by
  apply (triple_waitRemaining 0 none pids).lift.attempt_bind
  intro outcome
  cases outcome with
  | ok status => exact triple_attempt_pure fun _ holds => holds
  | error errno => exact triple_throw fun _ holds => holds

theorem triple_runPipeline (commands : List Command) (output : Output) (nonempty : commands ≠ []) :
    (watch file mayRefuse).Triple (Kernel.Holds initial [] pipes children)
      (AndOr.runPipeline commands output).run
      (either (fun _ => HasStarted initial commands (targetOf output) children)
        fun _ => HasStarted initial commands (targetOf output) children) := by
  have started := @triple_start file initial pipes children mayRefuse ⟨.always, commands⟩ output
    nonempty
  have whole := started.attempt_bind fun pids => triple_collectAll pids
  rw [bind_assoc] at whole
  exact whole

/-! ### Stages without a target -/

def AllSpared (initial : Descriptors (Endpoint file)) (kernel : Kernel file) : Prop :=
  ∃ pipes, kernel.Holds initial [] pipes kernel.children ∧
    ∀ entry ∈ kernel.children, IsSpared initial entry

theorem HasStarted.allSpared {commands : List Command} {kernel : Kernel file}
    (started : HasStarted initial commands none children kernel)
    (spared : ∀ entry ∈ children, IsSpared initial entry) : AllSpared initial kernel := by
  obtain ⟨later, most, final, holds, piped, lastOne⟩ := started
  refine ⟨later, holds.children ▸ holds, ?_⟩
  rw [holds.children]
  intro entry member
  rcases List.mem_append.mp member with earlier | here
  · exact spared entry earlier
  rcases List.mem_append.mp here with inside | isFinal
  · exact (piped entry inside).isSpared
  rcases lastOne with nothing | ⟨launch, source, table, finalEq, _, draws⟩
  · rw [nothing] at isFinal
    cases isFinal
  · rw [finalEq, List.mem_singleton] at isFinal
    rw [isFinal]
    exact ⟨none, ⟨launch, source, rfl, draws⟩, (nomatch ·)⟩

theorem triple_runGated (stages : List Stage) (filled : ∀ stage ∈ stages, stage.commands ≠ [])
    (status : Int) :
    (watch file mayRefuse).Triple (AllSpared initial) (runGated .inherited status stages).run
      (either (fun _ => AllSpared initial) fun _ => AllSpared initial) := by
  induction stages generalizing status with
  | nil => exact triple_attempt_pure fun _ spared => spared
  | cons stage rest ih =>
      obtain ⟨nonempty, others⟩ := List.forall_mem_cons.mp filled
      rw [runGated_cons, ite_self]
      split
      · have ran : (watch file mayRefuse).Triple (AllSpared initial)
            (AndOr.runPipeline stage.commands .inherited).run
            (either (fun _ => AllSpared initial) fun _ => AllSpared initial) := by
          rintro kernel events outcome ⟨pipes, holds, spared⟩ leads allowed
          obtain ⟨met, left⟩ := triple_runPipeline stage.commands .inherited nonempty kernel events
            outcome holds leads allowed
          refine ⟨met, ?_⟩
          cases outcome with
          | ok reached => exact left.allSpared spared
          | error fault => exact left.allSpared spared
        exact ran.attempt_bind fun reached => ih others reached
      · exact ih others status

end PipelineShell.Shell

import PipelineShell.Proofs.Shell.AndOr

/-!
What lines with a plan ask for. Whatever the stages of a line are and whatever comes of them, the
shell asks about descriptors and children only; nothing happens that is of a kind to which no such
request belongs.
-/

namespace PipelineShell.Shell

open Routine

variable {σ : Type} {kind : Event System.interface → Option σ}

structure OverlooksLines (kind : Event System.interface → Option σ) : Prop
    extends OverlooksDescriptors kind where
  fork : ∀ child reply, kind ⟨.fork child, reply⟩ = none
  wait : ∀ pid reply, kind ⟨.wait pid, reply⟩ = none

/-! ### One stage -/

theorem never_startStage (overlooks : OverlooksPipes kind)
    (starting : ∀ child reply, kind ⟨.fork child, reply⟩ = none)
    (waiting : ∀ pid reply, kind ⟨.wait pid, reply⟩ = none) (stage : Stage) (fd : Option Fd) :
    Never kind (startStage stage fd).run := by
  have started : Never kind (startSegments none fd stage.commands) := by
    intro events started leads
    obtain ⟨begun, _, same⟩ :=
      exists_begun_of_startSegments overlooks (fun child _ => starting child _) leads
    rw [same, List.filterMap_map]
    exact List.filterMap_eq_nil_iff.mpr fun _ _ => starting _ _
  refine started.lift.attempt_bind fun begun => ?_
  cases begun.fault with
  | none => exact never_pure _
  | some fault =>
      exact (never_waitRemaining waiting _ _ _).lift.attempt_bind fun _ => never_pure _

theorem never_collectAll (waiting : ∀ pid reply, kind ⟨.wait pid, reply⟩ = none)
    (pids : List Pid) : Never kind (collectAll pids).run := by
  refine (never_waitRemaining waiting _ _ _).lift.attempt_bind fun outcome => ?_
  cases outcome <;> exact never_pure _

/-! ### Whole lines -/

private theorem never_runGated (overlooks : OverlooksLines kind) (output : Output) (status : Int)
    (stages : List Stage) : Never kind (runGated output status stages).run := by
  induction stages generalizing status with
  | nil => exact never_pure _
  | cons stage rest ih =>
      rw [runGated_cons]
      split
      · refine Never.attempt_bind ?_ ih
        refine (never_openTarget overlooks.toOverlooksDescriptors _).attempt_bind fun fd => ?_
        exact (never_startStage overlooks.pipes overlooks.fork overlooks.wait _ fd).attempt_bind
          (never_collectAll overlooks.wait)
      · exact ih status

private theorem never_startBackground (overlooks : OverlooksLines kind) (stages : List Stage)
    (output : Output) : Never kind (startBackground stages output).run := by
  unfold startBackground
  split
  · refine (never_openTarget overlooks.toOverlooksDescriptors _).attempt_bind fun fd => ?_
    exact never_startStage overlooks.pipes overlooks.fork overlooks.wait _ fd
  · refine (never_request (overlooks.fork _)).lift.attempt_bind fun reply => ?_
    cases reply <;> exact never_pure _

theorem never_run_of_external (overlooks : OverlooksLines kind) {line : CommandLine}
    (external : builtin? line = none) (shell : Shell) : Never kind (shell.run line) := by
  cases plan : line.plan with
  | error fault =>
      rw [run_of_unplanned external plan]
      exact never_pure _
  | ok stages =>
      cases background : line.background with
      | true =>
          rw [run_of_background plan external background]
          exact (never_startBackground overlooks _ _).bind fun _ => never_pure _
      | false =>
          rw [run_of_plan plan external background]
          exact (never_runGated overlooks _ _ _).bind fun _ => never_pure _

end PipelineShell.Shell

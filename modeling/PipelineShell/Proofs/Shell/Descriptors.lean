import PipelineShell.Proofs.System.Path
import PipelineShell.Shell.Pipeline

/-!
Requests about descriptors. While the output of a line is opened, pipes are made and descriptors
are moved and let go of, nothing happens that is of a kind to which no such request belongs.
-/

namespace PipelineShell

/-- The file that an output goes to, and whether it keeps what it holds. -/
def Output.target? : Output → Option (String × Bool)
  | .inherited => none
  | .emptied path => some (path, false)
  | .appended path => some (path, true)

def Output.HoldsNul (output : Output) : Prop :=
  ∃ path append, output.target? = some (path, append) ∧ hasNul path = true

namespace Shell

open Routine

variable {σ : Type} {kind : Event System.interface → Option σ}

/-- The kind is one to which no request about descriptors belongs. -/
structure OverlooksDescriptors (kind : Event System.interface → Option σ) : Prop where
  openOutput : ∀ path append reply, kind ⟨.openOutput path append, reply⟩ = none
  makePipe : ∀ reply, kind ⟨.makePipe, reply⟩ = none
  duplicateAbove : ∀ fd least reply, kind ⟨.duplicateAbove fd least, reply⟩ = none
  close : ∀ fd reply, kind ⟨.close fd, reply⟩ = none

structure OverlooksPipes (kind : Event System.interface → Option σ) : Prop where
  makePipe : ∀ reply, kind ⟨.makePipe, reply⟩ = none
  duplicateAbove : ∀ fd least reply, kind ⟨.duplicateAbove fd least, reply⟩ = none
  close : ∀ fd reply, kind ⟨.close fd, reply⟩ = none

theorem OverlooksDescriptors.pipes (overlooks : OverlooksDescriptors kind) : OverlooksPipes kind :=
  ⟨overlooks.makePipe, overlooks.duplicateAbove, overlooks.close⟩

theorem never_raise (overlooks : OverlooksPipes kind) (fd : Fd) : Never kind (raise fd) := by
  rw [raise]
  split
  · exact never_pure _
  · refine Never.bind (never_request (overlooks.duplicateAbove _ _)) fun raised => ?_
    exact Never.bind (never_request (overlooks.close _)) fun _ => never_pure _

theorem never_release (quiet : ∀ fd reply, kind ⟨.close fd, reply⟩ = none) (fd : Option Fd) :
    Never kind (release fd) := by
  cases fd with
  | none => exact never_pure ()
  | some fd => exact never_request (quiet fd)

theorem never_openPipe (overlooks : OverlooksPipes kind) :
    Never kind openPipe.run := by
  refine Never.attempt_bind (never_request overlooks.makePipe).lift fun made => ?_
  cases made with
  | error errno => exact never_pure _
  | ok ends =>
      refine Never.attempt_bind (never_raise overlooks _).lift fun reading => ?_
      cases reading with
      | error errno =>
          exact Never.attempt_bind (never_request (overlooks.close _)).lift fun _ => never_pure _
      | ok reading =>
          refine Never.attempt_bind (never_raise overlooks _).lift fun writing => ?_
          cases writing with
          | error errno =>
              exact Never.attempt_bind (never_request (overlooks.close _)).lift
                fun _ => never_pure _
          | ok writing => exact never_pure _

private theorem never_openFile (overlooks : OverlooksDescriptors kind) (path : String)
    (append : Bool) :
    Never kind (openFile path append).run := by
  rw [openFile]
  split
  · exact never_pure _
  · refine Never.attempt_bind (never_request (overlooks.openOutput _ _)).lift fun opened => ?_
    cases opened with
    | error errno => exact never_pure _
    | ok fd =>
        refine Never.attempt_bind (never_raise overlooks.pipes _).lift fun raised => ?_
        cases raised with
        | error errno => exact never_pure _
        | ok fd => exact never_pure _

theorem never_openTarget (overlooks : OverlooksDescriptors kind) (output : Output) :
    Never kind (openTarget output).run := by
  cases output with
  | inherited => exact never_pure _
  | emptied path => exact (never_openFile overlooks path false).attempt_bind fun _ => never_pure _
  | appended path => exact (never_openFile overlooks path true).attempt_bind fun _ => never_pure _

end Shell

end PipelineShell

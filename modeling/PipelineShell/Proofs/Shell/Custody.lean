import PipelineShell.Proofs.Shell.AndOr
import PipelineShell.Proofs.System.Monitor

/-!
Who keeps which children. A child is in the custody of the shell from its start until it is
collected. The system keeps two promises: a new child has the number of no child in custody, and
asking after a child fails just if it is not in custody. Demanded of the shell is that it asks only
after children in custody, and leaves those alone that are none of the asker's. In return, a
pipeline that runs to its end, in whatever way, leaves the custody as it has found it.
-/

namespace PipelineShell

inductive ChildReply where
  | unknown
  | running
  /-- The child has ended, and has been collected by this. -/
  | ended
deriving DecidableEq

inductive CustodyEvent where
  | started (pid : Pid)
  | asked (pid : Pid) (reply : ChildReply)
deriving DecidableEq

def Event.custody? : Event System.interface → Option CustodyEvent
  | ⟨.fork _, .ok pid⟩ => some (.started pid)
  | ⟨.wait pid, .ok _⟩ => some (.asked pid .ended)
  | ⟨.wait pid, .error _⟩ => some (.asked pid .unknown)
  | ⟨.poll pid, .ok (some _)⟩ => some (.asked pid .ended)
  | ⟨.poll pid, .ok none⟩ => some (.asked pid .running)
  | ⟨.poll pid, .error _⟩ => some (.asked pid .unknown)
  | _ => none

namespace CustodyEvent

def after (children : List Pid) : CustodyEvent → List Pid
  | .started pid => pid :: children
  | .asked pid .ended => children.erase pid
  | .asked _ .running => children
  | .asked _ .unknown => children

/-- What the system may do while the children are in custody. -/
def IsPossible (children : List Pid) : CustodyEvent → Prop
  | .started pid => pid ∉ children
  | .asked pid .ended => pid ∈ children
  | .asked pid .running => pid ∈ children
  | .asked pid .unknown => pid ∉ children

/-- The shell asks only after a child in custody, which is none of those to be left alone. -/
def IsProper (spared children : List Pid) : CustodyEvent → Prop
  | .started _ => True
  | .asked pid _ => pid ∈ children ∧ pid ∉ spared

end CustodyEvent

def custody (spared : List Pid) : Monitor System.interface (List Pid) where
  after children event := event.custody?.elim children (CustodyEvent.after children)
  Allows children event := event.custody?.elim True (CustodyEvent.IsPossible children)
  Demands children event := event.custody?.elim True (CustodyEvent.IsProper spared children)

namespace Custody

open Routine Monitor

variable {α : Type} {spared : List Pid}

theorem triple_of_never {pre : List Pid → Prop} {routine : Routine System.interface α}
    (never : Never Event.custody? routine) :
    (custody spared).Triple pre routine fun _ => pre := by
  intro children events value holds leads _allowed
  have silent := never events value leads
  clear leads _allowed
  induction events generalizing children with
  | nil => exact ⟨trivial, holds⟩
  | cons event rest ih =>
      cases meaning : event.custody? with
      | some change =>
          rw [List.filterMap_cons, meaning] at silent
          cases silent
      | none =>
          rw [List.filterMap_cons, meaning] at silent
          have here : (custody spared).Demands children event := by
            rw [custody]
            dsimp only
            rw [meaning]
            trivial
          have same : (custody spared).after children event = children := by
            rw [custody]
            dsimp only
            rw [meaning]
            rfl
          obtain ⟨proper, behind⟩ := ih children holds silent
          refine ⟨⟨here, ?_⟩, ?_⟩
          · rw [same]
            exact proper
          · change pre ((custody spared).afterAll ((custody spared).after children event) rest)
            rw [same]
            exact behind

private theorem overlooksDescriptors_custody : Shell.OverlooksDescriptors Event.custody? :=
  ⟨fun _ _ _ => rfl, fun _ => rfl, fun _ _ _ => rfl, fun _ _ => rfl⟩

/-! ### Starting -/

theorem triple_fork (child : Child) (kept : List Pid) :
    (custody spared).Triple (fun children => children.Perm kept)
      (System.call (.fork child)) fun reply children =>
        match reply with
        | .ok pid => children.Perm (pid :: kept) ∧ pid ∉ kept
        | .error _ => children.Perm kept := by
  apply triple_request
  intro children reply holds possible
  cases reply with
  | error errno => exact ⟨trivial, holds⟩
  | ok pid =>
      have fresh : pid ∉ children := possible
      exact ⟨trivial, holds.cons pid, fun member => fresh (holds.mem_iff.mpr member)⟩

theorem triple_release {pre : List Pid → Prop} (first second : Option Fd) (given : Shell.Started)
    {post : Shell.Started → List Pid → Prop}
    (behind : ∀ children, pre children → post given children) :
    (custody spared).Triple pre
      (do Shell.release first; Shell.release second; return given) post :=
  (triple_of_never (Shell.never_release overlooksDescriptors_custody.close first)).bind fun _ =>
    (triple_of_never (Shell.never_release overlooksDescriptors_custody.close second)).bind fun _ =>
      triple_pure behind

/-- The children of a pipeline that has been started are in custody beside those that were. -/
def Beside (kept : List Pid) (pids : List Pid) (children : List Pid) : Prop :=
  children.Perm (pids ++ kept) ∧ ∀ pid ∈ pids, pid ∉ kept

private theorem beside_nil {kept : List Pid} (children : List Pid) (holds : children.Perm kept) :
    Beside kept [] children :=
  ⟨holds, fun _ member => (List.not_mem_nil member).elim⟩

theorem triple_startSegments (input output : Option Fd) (commands : List Command)
    (kept : List Pid) :
    (custody spared).Triple (fun children => children.Perm kept)
      (Shell.startSegments input output commands) fun started => Beside kept started.pids := by
  induction commands generalizing input kept with
  | nil => exact triple_release output input ⟨[], none⟩ beside_nil
  | cons command rest ih =>
      cases rest with
      | nil =>
          apply (triple_fork _ kept).bind
          intro reply
          cases reply with
          | error errno => exact triple_release output input _ beside_nil
          | ok pid =>
              refine triple_release output input _ fun children holds => ⟨holds.1, ?_⟩
              intro other member
              rw [List.mem_singleton.mp member]
              exact holds.2
      | cons second others =>
          apply (triple_of_never (Shell.never_openPipe overlooksDescriptors_custody.pipes)).bind
          intro made
          cases made with
          | error fault => exact triple_release input output _ beside_nil
          | ok ends =>
              apply (triple_fork _ kept).bind
              intro reply
              cases reply with
              | error errno =>
                  apply (triple_of_never
                    (Shell.never_release overlooksDescriptors_custody.close _)).bind
                  intro _
                  apply (triple_of_never
                    (Shell.never_release overlooksDescriptors_custody.close _)).bind
                  intro _
                  exact triple_release input output _ beside_nil
              | ok pid =>
                  apply (triple_of_never
                    (Shell.never_release overlooksDescriptors_custody.close _)).bind
                  intro _
                  apply (triple_of_never
                    (Shell.never_release overlooksDescriptors_custody.close _)).bind
                  intro _
                  apply triple_assuming
                  intro fresh
                  apply (ih (some ends.1) (pid :: kept)).bind
                  intro later
                  refine triple_pure fun children holds => ⟨?_, fun other member => ?_⟩
                  · exact holds.1.trans List.perm_middle
                  · rcases List.mem_cons.mp member with same | behind
                    · rw [same]
                      exact fresh
                    · exact fun inside => holds.2 other behind (List.mem_cons_of_mem _ inside)

/-! ### Collecting -/

private theorem triple_waitFor {pid : Pid} (kept : List Pid) (own : pid ∉ spared) :
    (custody spared).Triple (fun children => children.Perm (pid :: kept))
      (System.waitFor pid) fun _ children => children.Perm kept := by
  have collected : (custody spared).Triple (fun children => children.Perm (pid :: kept))
      (System.call (.wait pid)) fun _ children => children.Perm kept := by
    apply triple_request
    intro children reply holds possible
    have inside : pid ∈ children := holds.mem_iff.mpr List.mem_cons_self
    refine ⟨?_, ?_⟩
    · cases reply with
      | error errno => exact ⟨inside, own⟩
      | ok death => exact ⟨inside, own⟩
    · cases reply with
      | error errno => exact (possible inside).elim
      | ok death =>
          have erased := holds.erase pid
          rw [List.erase_cons_head] at erased
          exact erased
  exact collected.bind fun death => triple_pure fun children holds => holds

theorem triple_waitRemaining (last : Int) (failure : Option Errno) (pids kept : List Pid) :
    (custody spared).Triple
      (fun children => children.Perm (pids ++ kept) ∧ ∀ pid ∈ pids, pid ∉ spared)
      (Shell.waitRemaining last failure pids) fun _ children => children.Perm kept := by
  induction pids generalizing last failure with
  | nil =>
      cases failure with
      | none => exact triple_pure fun children holds => holds.1
      | some errno => exact triple_pure fun children holds => holds.1
  | cons pid rest ih =>
      apply triple_assuming
      intro own
      apply (triple_waitFor (rest ++ kept) (own pid List.mem_cons_self)).bind
      intro outcome
      have others : ∀ other ∈ rest, other ∉ spared :=
        fun other member => own other (List.mem_cons_of_mem _ member)
      cases outcome with
      | ok status =>
          exact (ih status failure).imp (fun _ holds => ⟨holds, others⟩) fun _ _ left => left
      | error errno =>
          exact (ih last _).imp (fun _ holds => ⟨holds, others⟩) fun _ _ left => left

/-! ### Pipelines -/

/-- What stays in custody when the outcome is known: the children that are handed over beside those
that were there, or just these. -/
abbrev HandsOver (kept : List Pid) : Except Shell.RunFault (List Pid) → List Pid → Prop :=
  either (Beside kept) fun _ children => children.Perm kept

abbrev Leaves (kept : List Pid) {α : Type} : Except Shell.RunFault α → List Pid → Prop :=
  either (fun _ children => children.Perm kept) fun _ children => children.Perm kept

private theorem triple_startStage (stage : Stage) (output : Option Fd) (kept : List Pid) :
    (custody kept).Triple (fun children => children.Perm kept)
      (Shell.startStage stage output).run (HandsOver kept) := by
  apply (triple_startSegments none output stage.commands kept).lift.attempt_bind
  intro started
  cases faultEq : started.fault with
  | none => exact triple_attempt_pure fun children holds => holds
  | some fault =>
      apply (triple_waitRemaining 0 none started.pids kept).lift.attempt_bind
      intro outcome
      exact triple_throw fun children holds => holds

theorem triple_collectAll (pids kept : List Pid) :
    (custody kept).Triple (Beside kept pids) (Shell.collectAll pids).run (Leaves kept) := by
  apply (triple_waitRemaining 0 none pids kept).lift.attempt_bind
  intro outcome
  cases outcome with
  | ok status => exact triple_attempt_pure fun children holds => holds
  | error errno => exact triple_throw fun children holds => holds

theorem triple_openTarget (output : Output) (kept : List Pid) :
    (custody spared).Triple (fun children => children.Perm kept) (Shell.openTarget output).run
      (Leaves kept) :=
  (triple_of_never (Shell.never_openTarget overlooksDescriptors_custody output)).imp
    (fun _ holds => holds) fun outcome _ holds => by cases outcome <;> exact holds

theorem triple_runPipeline (commands : List Command) (output : Output) (kept : List Pid) :
    (custody kept).Triple (fun children => children.Perm kept)
      (AndOr.runPipeline commands output).run (Leaves kept) := by
  apply (triple_openTarget output kept).attempt_bind
  intro fd
  apply (triple_startStage _ fd kept).attempt_bind
  intro pids
  exact triple_collectAll pids kept

theorem triple_runGated (output : Output) (status : Int) (stages : List Stage) (kept : List Pid) :
    (custody kept).Triple (fun children => children.Perm kept)
      (Shell.runGated output status stages).run (Leaves kept) := by
  induction stages generalizing status with
  | nil => exact triple_attempt_pure fun children holds => holds
  | cons stage rest ih =>
      rw [Shell.runGated_cons]
      split
      · apply (triple_runPipeline stage.commands _ kept).attempt_bind
        intro reached
        exact ih reached
      · exact ih status

/-- Only a line that goes to the background hands children over. -/
theorem triple_startBackground (stages : List Stage) (output : Output) (kept : List Pid) :
    (custody kept).Triple (fun children => children.Perm kept)
      (Shell.startBackground stages output).run (HandsOver kept) := by
  unfold Shell.startBackground
  split
  · apply (triple_openTarget output kept).attempt_bind
    intro fd
    exact triple_startStage _ fd kept
  · apply (triple_fork _ kept).lift.attempt_bind
    intro reply
    cases reply with
    | error errno => exact triple_throw fun children holds => holds
    | ok pid =>
        refine triple_attempt_pure fun children holds => ⟨holds.1, fun other member => ?_⟩
        rw [List.mem_singleton.mp member]
        exact holds.2

end Custody

end PipelineShell

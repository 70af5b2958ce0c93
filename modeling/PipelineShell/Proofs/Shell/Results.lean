import PipelineShell.Proofs.Shell.AndOr

/-!
What the stages of a line may come to: a status, or the fault that they fail for. A status has
eight bits. Opening the target of the line has a fault of its own; making pipes, starting children
and waiting for them has others.
-/

namespace PipelineShell

namespace Shell

open Routine

/-! ### Statuses -/

def IsStatus (status : Int) : Prop :=
  0 ≤ status ∧ status ≤ 255

theorem isStatus_zero : IsStatus 0 := by
  constructor <;> decide

private theorem isStatus_of_death {death : Death} {status : Int}
    (found : death.status = .ok status) :
    IsStatus status := by
  unfold IsStatus
  cases death with
  | exited code =>
      have bound : code.toNat < 256 := code.toNat_lt
      cases found
      omega
  | killed signal =>
      -- a signal that has a status at all is below 32
      by_cases isKnown : signal < Death.firstUnknownSignal
      · have bound : signal < 32 := isKnown
        rw [Death.status, if_pos isKnown] at found
        cases found
        omega
      · rw [Death.status, if_neg isKnown] at found
        cases found

theorem status_ofExitCode {code : Int} (isStatus : IsStatus code) :
    (Death.ofExitCode code).status = .ok code := by
  obtain ⟨low, high⟩ := isStatus
  obtain ⟨number, codeEq⟩ := Int.eq_ofNat_of_zero_le low
  have bound : number < 256 := by omega
  have kept : (code % 256).toNat = number := by omega
  have byte : (UInt8.ofNat number).toNat = number := by
    rw [UInt8.toNat_ofNat', Nat.mod_eq_of_lt bound]
  rw [Death.ofExitCode, Death.status, kept, byte, codeEq]

private theorem gives_waitFor (pid : Pid) : Gives (Within IsStatus fun _ => True)
    (System.waitFor pid) := by
  refine gives_behind fun death => gives_pure ?_
  cases death with
  | error errno => trivial
  | ok death =>
      change Within IsStatus _ death.status
      cases found : death.status with
      | error errno => trivial
      | ok status => exact isStatus_of_death found

private theorem gives_waitRemaining {last : Int} (isStatus : IsStatus last) (failure : Option Errno)
    (pids : List Pid) :
    Gives (Within IsStatus fun _ => True) (waitRemaining last failure pids) := by
  induction pids generalizing last failure with
  | nil =>
      cases failure with
      | none => exact gives_pure isStatus
      | some errno => exact gives_pure trivial
  | cons pid rest ih =>
      refine (gives_waitFor pid).bind fun outcome holds => ?_
      cases outcome with
      | ok status => exact ih holds failure
      | error errno => exact ih isStatus _

/-! ### Faults -/

inductive RunFault.IsOfProcesses : RunFault → Prop where
  | pipe (errno : Errno) : IsOfProcesses (.pipe errno)
  | fork (errno : Errno) : IsOfProcesses (.fork errno)
  | wait (errno : Errno) : IsOfProcesses (.wait errno)

def RunFault.IsOfTarget (output : Output) (fault : RunFault) : Prop :=
  ∃ path append cause, output.target? = some (path, append) ∧ fault = .redirect path cause

def RunFault.IsOfStages (output : Output) (fault : RunFault) : Prop :=
  fault.IsOfProcesses ∨ fault.IsOfTarget output

theorem RunFault.IsOfStages.of_inherited {fault : RunFault}
    (ofStages : fault.IsOfStages .inherited) :
    fault.IsOfProcesses := by
  rcases ofStages with ofProcesses | ⟨path, append, cause, isTarget, _⟩
  · exact ofProcesses
  · cases isTarget

theorem RunFault.IsOfStages.not_plan {output : Output} {fault : RunFault}
    (ofStages : fault.IsOfStages output) (cause : PlanFault) : fault ≠ .plan cause := by
  intro same
  rw [same] at ofStages
  rcases ofStages with ofProcesses | ⟨_, _, _, _, ofTarget⟩
  · cases ofProcesses
  · cases ofTarget

/-! ### Opening -/

theorem gives_openFile (path : String) (append : Bool) :
    Gives (FailsFor fun fault => ∃ cause, fault = .redirect path cause)
      (openFile path append).run := by
  rw [openFile]
  split
  · exact gives_pure ⟨_, rfl⟩
  · refine (gives_any _).lift.attempt_bind fun reply _ => ?_
    cases reply with
    | error errno => exact gives_pure ⟨_, rfl⟩
    | ok fd =>
        refine (gives_any _).lift.attempt_bind fun raised _ => ?_
        cases raised with
        | error errno => exact gives_pure ⟨_, rfl⟩
        | ok fd => exact gives_pure trivial

private theorem gives_openTarget (output : Output) :
    Gives (FailsFor (RunFault.IsOfTarget output)) (openTarget output).run := by
  have opened : ∀ path append, output.target? = some (path, append) →
      Gives (FailsFor (RunFault.IsOfTarget output))
        (some <$> openFile path append : Attempt (Option Fd)).run := by
    intro path append isTarget
    have fails : Gives (FailsFor (RunFault.IsOfTarget output)) (openFile path append).run :=
      (gives_openFile path append).weaken fun fault ⟨cause, faultEq⟩ =>
        ⟨path, append, cause, isTarget, faultEq⟩
    exact fails.attempt_bind fun _ _ => gives_pure trivial
  cases output with
  | inherited => exact gives_pure trivial
  | emptied path => exact opened path false rfl
  | appended path => exact opened path true rfl

private theorem gives_openPipe : Gives (FailsFor RunFault.IsOfProcesses) openPipe.run := by
  refine (gives_any _).lift.attempt_bind fun made _ => ?_
  cases made with
  | error errno => exact gives_pure (.pipe errno)
  | ok ends =>
      refine (gives_any _).lift.attempt_bind fun reading _ => ?_
      cases reading with
      | error errno =>
          exact (gives_any _).lift.attempt_bind fun _ _ => gives_pure (.pipe errno)
      | ok reading =>
          refine (gives_any _).lift.attempt_bind fun writing _ => ?_
          cases writing with
          | error errno =>
              exact (gives_any _).lift.attempt_bind fun _ _ => gives_pure (.pipe errno)
          | ok writing => exact gives_pure trivial

/-! ### Running -/

private theorem gives_startSegments (input output : Option Fd) (commands : List Command) :
    Gives (fun started => ∀ fault, started.fault = some fault → fault.IsOfProcesses)
      (startSegments input output commands) := by
  have cut : ∀ fault : RunFault, fault.IsOfProcesses →
      ∀ other, some fault = some other → other.IsOfProcesses := by
    intro fault ofProcesses other same
    exact Option.some.inj same ▸ ofProcesses
  have whole : ∀ fault : RunFault, none = some fault → fault.IsOfProcesses :=
    fun _ impossible => nomatch impossible
  induction commands generalizing input with
  | nil => exact gives_behind fun _ => gives_behind fun _ => gives_pure whole
  | cons command rest ih =>
      cases rest with
      | nil =>
          refine gives_behind fun reply => gives_behind fun _ => gives_behind fun _ => ?_
          cases reply with
          | error errno => exact gives_pure (cut _ (.fork errno))
          | ok pid => exact gives_pure whole
      | cons second others =>
          refine gives_openPipe.bind fun made holds => ?_
          cases made with
          | error fault =>
              exact gives_behind fun _ => gives_behind fun _ => gives_pure (cut fault holds)
          | ok ends =>
              refine gives_behind fun reply => ?_
              cases reply with
              | error errno =>
                  refine gives_behind fun _ => gives_behind fun _ => ?_
                  exact gives_behind fun _ => gives_behind fun _ =>
                    gives_pure (cut _ (.fork errno))
              | ok pid =>
                  refine gives_behind fun _ => gives_behind fun _ => ?_
                  exact (ih (some ends.1)).bind fun later holds => gives_pure holds

theorem gives_startStage (stage : Stage) (output : Option Fd) :
    Gives (FailsFor RunFault.IsOfProcesses) (startStage stage output).run := by
  intro events outcome leads
  cases startsStage_of_leads leads with
  | whole starting intact => trivial
  | cut starting faulty waiting =>
      exact gives_startSegments none output stage.commands _ _ starting _ faulty

theorem gives_collectAll (pids : List Pid) :
    Gives (Within IsStatus RunFault.IsOfProcesses) (collectAll pids).run := by
  refine (gives_waitRemaining isStatus_zero none pids).lift.attempt_bind fun outcome holds => ?_
  cases outcome with
  | ok status => exact gives_pure holds
  | error errno => exact gives_pure (.wait errno)

private theorem gives_runPipeline (commands : List Command) (output : Output) :
    Gives (Within IsStatus (RunFault.IsOfStages output))
      (AndOr.runPipeline commands output).run := by
  refine ((gives_openTarget output).weaken fun _ => Or.inr).attempt_bind fun target _ => ?_
  refine ((gives_startStage _ target).weaken fun _ => Or.inl).attempt_bind fun pids _ => ?_
  exact (gives_collectAll pids).weaken fun _ => Or.inl

theorem gives_runGated (output : Output) {status : Int} (isStatus : IsStatus status)
    (stages : List Stage) :
    Gives (Within IsStatus (RunFault.IsOfStages output)) (runGated output status stages).run := by
  induction stages generalizing status with
  | nil => exact gives_pure isStatus
  | cons stage rest ih =>
      rw [runGated_cons]
      split
      · refine Gives.attempt_bind ?_ fun reached holds => ih holds
        -- only the last stage has the target, so only it can fail for it
        cases rest with
        | nil => exact gives_runPipeline stage.commands output
        | cons second others =>
            refine (gives_runPipeline stage.commands .inherited).weaken fun fault ofStages => ?_
            exact Or.inl ofStages.of_inherited
      · exact ih isStatus

theorem gives_startBackground (stages : List Stage) (output : Output) :
    Gives (FailsFor (RunFault.IsOfStages output)) (startBackground stages output).run := by
  unfold startBackground
  split
  · refine ((gives_openTarget output).weaken fun _ => Or.inr).attempt_bind fun target _ => ?_
    exact (gives_startStage _ target).weaken fun _ => Or.inl
  · refine (gives_any _).lift.attempt_bind fun reply _ => ?_
    cases reply with
    | error errno => exact gives_pure (Or.inl (.fork errno))
    | ok pid => exact gives_pure trivial

end Shell

end PipelineShell

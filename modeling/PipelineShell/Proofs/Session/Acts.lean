import PipelineShell.Proofs.Shell.Outcome
import PipelineShell.Session

/-!
What a session does, one reading after another. An act is a line that has run, with what it came
to, a line that has been refused, or a blank line that has been passed over. Acts are performed as
long as no line has asked to leave; in between, finished jobs are reported and the prompt is shown.
-/

namespace PipelineShell

inductive Act where
  /-- The line has run, and `leaving` is the code to leave with, if it has asked for that. -/
  | ran (line : CommandLine) (outcome : Except Shell.RunFault Shell.Completion)
      (leaving : Option Int)
  | refused (fault : LineFault)
  | passed

namespace Act

def reading : Act → Reading
  | .ran line _ _ => .line line
  | .refused fault => .fault fault
  | .passed => .blank

def status? : Act → Option Int
  | .ran _ (.ok (.done status)) _ => some status
  | .ran _ (.ok (.background _)) _ => some 0
  | .ran _ (.error _) _ => some 1
  | .refused _ => some 2
  | .passed => none

def leaving? : Act → Option Int
  | .ran _ _ leaving => leaving
  | .refused _ => none
  | .passed => none

end Act

def Event.IsComplaint (event : Event System.interface) : Prop :=
  ∃ text, event = ⟨.complain text, ()⟩

namespace Session

open Routine

/-- The shell after a line; a line that has failed counts as status one. -/
def settle (reached : Shell) : Except Shell.RunFault Shell.Completion → Shell
  | .ok _ => reached
  | .error _ => { reached with lastStatus := 1 }

inductive Acts : Shell → Act → List (Event System.interface) → Shell → Prop where
  | ran {shell reached : Shell} {line : CommandLine}
      {outcome : Except Shell.RunFault Shell.Completion}
      {events complaints : List (Event System.interface)}
      (leads : (shell.run line).Leads events (outcome, reached))
      (only : ∀ event ∈ complaints, event.IsComplaint) :
      Acts shell (.ran line outcome reached.exit) (events ++ complaints) (settle reached outcome)
  | refused {shell : Shell} {fault : LineFault} {complaints : List (Event System.interface)}
      (only : ∀ event ∈ complaints, event.IsComplaint) :
      Acts shell (.refused fault) complaints { shell with lastStatus := 2 }
  | passed {shell : Shell} : Acts shell .passed [] shell

/-- Acts one after another, where a read may be prepared between any two. Behind an act that asks
to leave there is no other. -/
inductive Performs (prompt : Option String) :
    Shell → List Act → List (Event System.interface) → Shell → Prop where
  | done (shell : Shell) : Performs prompt shell [] [] shell
  | paused {shell ready last : Shell} {acts : List Act}
      {events more : List (Event System.interface)}
      (leads : (prepareRead prompt shell).Leads events ready)
      (later : Performs prompt ready acts more last) :
      Performs prompt shell acts (events ++ more) last
  | acted {shell next last : Shell} {act : Act} {acts : List Act}
      {events more : List (Event System.interface)} (staying : shell.exit = none)
      (acting : Acts shell act events next) (later : Performs prompt next acts more last) :
      Performs prompt shell (act :: acts) (events ++ more) last

/-! ### What acts leave behind -/

private theorem lastStatus_settle {shell reached : Shell} {line : CommandLine}
    {outcome : Except Shell.RunFault Shell.Completion} {events : List (Event System.interface)}
    (leads : (shell.run line).Leads events (outcome, reached)) :
    (Act.ran line outcome reached.exit).status? = some (settle reached outcome).lastStatus := by
  cases Shell.runs_of_leads leads <;> rfl

theorem Acts.lastStatus_eq {shell later : Shell} {act : Act}
    {events : List (Event System.interface)} (acting : Acts shell act events later) :
    later.lastStatus = act.status?.getD shell.lastStatus := by
  cases acting with
  | ran leads only => rw [lastStatus_settle leads]; rfl
  | refused only => rfl
  | passed => rfl

private theorem exit_settle (reached : Shell) (outcome : Except Shell.RunFault Shell.Completion) :
    (settle reached outcome).exit = reached.exit := by
  cases outcome <;> rfl

theorem Acts.exit_eq {shell later : Shell} {act : Act} {events : List (Event System.interface)}
    (acting : Acts shell act events later) (staying : shell.exit = none) :
    later.exit = act.leaving? := by
  cases acting with
  | ran leads only => exact exit_settle _ _
  | refused only => exact staying
  | passed => exact staying

/-- Preparing a read is about jobs alone. -/
theorem eq_of_prepareRead {prompt : Option String} {shell ready : Shell}
    {events : List (Event System.interface)}
    (leads : (prepareRead prompt shell).Leads events ready) :
    ready = { shell with jobs := ready.jobs } := by
  obtain ⟨_, announced, _, _, announcing, rest⟩ := leads.of_bind
  obtain ⟨_, result, _, _, _, writing⟩ := announcing.of_bind
  obtain ⟨_, _, _, _, _, returned⟩ := writing.of_bind
  have announcedEq : announced = { shell with jobs := result.2 } := returned.of_pure.2
  have readyEq : ready = announced := by
    cases prompt with
    | none => exact (Leads.of_pure rest).2
    | some prompt =>
        obtain ⟨_, _, _, _, _, shown⟩ := Leads.of_bind rest
        exact shown.of_pure.2
  rw [readyEq, announcedEq]

/-! ### What many acts leave behind -/

namespace Performs

variable {prompt : Option String} {shell middle last : Shell} {acts further : List Act}
  {events more : List (Event System.interface)}

theorem trans (first : Performs prompt shell acts events middle)
    (second : Performs prompt middle further more last) :
    Performs prompt shell (acts ++ further) (events ++ more) last := by
  induction first with
  | done shell => exact second
  | paused leads later ih =>
      rw [List.append_assoc]
      exact .paused leads (ih second)
  | acted staying acting later ih =>
      rw [List.append_assoc]
      exact .acted staying acting (ih second)

theorem of_prepareRead (leads : (prepareRead prompt shell).Leads events last) :
    Performs prompt shell [] events last := by
  have paused := Performs.paused leads (.done last)
  rw [List.append_nil] at paused
  exact paused

theorem lastStatus_eq (performs : Performs prompt shell acts events last) :
    last.lastStatus = (acts.filterMap Act.status?).getLast?.getD shell.lastStatus := by
  induction performs with
  | done shell => rfl
  | paused leads later ih =>
      rw [ih, eq_of_prepareRead leads]
  | @acted shell next last act acts events more staying acting later ih =>
      rw [ih, acting.lastStatus_eq, List.filterMap_cons]
      cases act.status? with
      | none => rfl
      | some status => rw [Option.getD_some, List.getLast?_cons, Option.getD_some]

theorem exit_of_nothing (performs : Performs prompt shell [] events last) :
    last.exit = shell.exit := by
  generalize actsEq : ([] : List Act) = acts at performs
  induction performs with
  | done shell => rfl
  | paused leads later ih => rw [ih actsEq, eq_of_prepareRead leads]
  | acted staying acting later ih => cases actsEq

theorem staying_of_act {act : Act} (performs : Performs prompt shell (act :: acts) events last) :
    shell.exit = none := by
  generalize actsEq : act :: acts = all at performs
  induction performs with
  | done shell => cases actsEq
  | paused leads later ih =>
      have staying := ih actsEq
      rw [eq_of_prepareRead leads] at staying
      exact staying
  | acted staying acting later ih => exact staying

theorem exists_reached {act : Act}
    (performs : Performs prompt shell (acts ++ act :: further) events last) :
    ∃ front middle back reached next, events = front ++ (middle ++ back) ∧
      Performs prompt shell acts front reached ∧ reached.exit = none ∧
      Acts reached act middle next ∧ Performs prompt next further back last := by
  generalize allEq : acts ++ act :: further = all at performs
  induction performs generalizing acts with
  | done shell => cases acts <;> cases allEq
  | @paused shell ready last all events more leads later ih =>
      obtain ⟨front, middle, back, reached, next, split, before, stays, acting, behind⟩ := ih allEq
      refine ⟨events ++ front, middle, back, reached, next, ?_, .paused leads before, stays, acting,
        behind⟩
      rw [split, List.append_assoc]
  | @acted shell following last first all events more staying acting later ih =>
      cases acts with
      | nil =>
          cases allEq
          exact ⟨[], events, more, shell, following, rfl, .done shell, staying, acting, later⟩
      | cons other rest =>
          cases allEq
          obtain ⟨front, middle, back, reached, next, split, before, stays, acted, behind⟩ := ih rfl
          refine ⟨events ++ front, middle, back, reached, next, ?_, .acted staying acting before,
            stays, acted, behind⟩
          rw [split, List.append_assoc]

theorem exit_eq (performs : Performs prompt shell acts events last)
    (staying : shell.exit = none) :
    last.exit = acts.getLast?.bind Act.leaving? ∧ ∀ act ∈ acts.dropLast, act.leaving? = none := by
  induction performs with
  | done shell => exact ⟨staying, fun act member => (List.not_mem_nil member).elim⟩
  | paused leads later ih =>
      apply ih
      rw [eq_of_prepareRead leads]
      exact staying
  | @acted shell next last act acts events more _ acting later ih =>
      have exitEq := acting.exit_eq staying
      cases acts with
      | nil =>
          refine ⟨later.exit_of_nothing.trans exitEq, fun act member => ?_⟩
          exact (List.not_mem_nil member).elim
      | cons second others =>
          have stays := later.staying_of_act
          obtain ⟨lastExit, before⟩ := ih stays
          refine ⟨?_, fun other member => ?_⟩
          · rw [lastExit, List.getLast?_cons_cons]
          · rcases List.mem_cons.mp member with isFirst | behind
            · rw [isFirst, ← exitEq]
              exact stays
            · exact before other behind

end Performs

end Session

end PipelineShell

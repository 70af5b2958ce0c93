import PipelineShell.Proofs.Shell.Descriptors

/-!
The children of a pipeline as they are started. Starting is left to right, one child for each
command, and stops at the first fault; everything else that is asked meanwhile is about pipes.
-/

namespace PipelineShell

def Event.launch? : Event System.interface → Option (Child × Pid)
  | ⟨.fork child, .ok pid⟩ => some (child, pid)
  | _ => none

def launches (events : List (Event System.interface)) : List (Child × Pid) :=
  events.filterMap Event.launch?

theorem launches_append (events more : List (Event System.interface)) :
    launches (events ++ more) = launches events ++ launches more :=
  List.filterMap_append

namespace Shell

open Routine

variable {σ : Type} {kind : Event System.interface → Option σ}
  {events : List (Event System.interface)}

private theorem exists_leads_behind {α β : Type} {first : Routine System.interface α}
    {next : α → Routine System.interface β} {value : β} (never : Never kind first)
    (leads : (first >>= next).Leads events value) :
    ∃ middle back, events.filterMap kind = back.filterMap kind ∧
      (next middle).Leads back value := by
  obtain ⟨front, middle, back, split, leadsFirst, leadsNext⟩ := leads.of_bind
  refine ⟨middle, back, ?_, leadsNext⟩
  rw [split, List.filterMap_append, never _ _ leadsFirst]
  rfl

theorem exists_leads_behind_release {α : Type}
    (quiet : ∀ fd reply, kind ⟨.close fd, reply⟩ = none) {first second : Option Fd}
    {next : Routine System.interface α} {value : α}
    (leads : (do release first; release second; next).Leads events value) :
    ∃ back, events.filterMap kind = back.filterMap kind ∧ next.Leads back value := by
  obtain ⟨_, behindFirst, same, later⟩ :=
    exists_leads_behind (never_release quiet first) leads
  obtain ⟨_, behindSecond, alsoSame, last⟩ :=
    exists_leads_behind (never_release quiet second) later
  exact ⟨behindSecond, same.trans alsoSame, last⟩

theorem eq_of_release (quiet : ∀ fd reply, kind ⟨.close fd, reply⟩ = none)
    {first second : Option Fd} {given value : Started}
    (leads : (do release first; release second; return given).Leads events value) :
    events.filterMap kind = [] ∧ value = given := by
  obtain ⟨back, same, returned⟩ := exists_leads_behind_release quiet leads
  obtain ⟨nothing, valueEq⟩ := returned.of_pure
  rw [same, nothing]
  exact ⟨rfl, valueEq⟩

def startOf (entry : Launch × Pid) : Event System.interface :=
  ⟨.fork (.segment entry.1), .ok entry.2⟩

/-- What has been started are segments for the first of the commands, in order, and for all of
them unless there is a fault. -/
structure Begins (commands : List Command) (started : Started) (begun : List (Launch × Pid)) :
    Prop where
  pids : begun.map Prod.snd = started.pids
  inOrder : (begun.map fun entry => entry.1.command) <+: commands
  whole : started.fault = none → begun.length = commands.length

theorem Begins.commands_eq {commands : List Command} {started : Started}
    {begun : List (Launch × Pid)} (begins : Begins commands started begun)
    (intact : started.fault = none) : (begun.map fun entry => entry.1.command) = commands := by
  apply begins.inOrder.eq_of_length
  rw [List.length_map]
  exact begins.whole intact

private theorem begins_nothing (commands : List Command) (fault : RunFault) :
    Begins commands ⟨[], some fault⟩ [] :=
  ⟨rfl, List.nil_prefix, fun impossible => nomatch impossible⟩

/-- Of a kind that has nothing to do with pipes, only the starts themselves can be. -/
theorem exists_begun_of_startSegments (overlooks : OverlooksPipes kind)
    (failing : ∀ child errno, kind ⟨.fork child, .error errno⟩ = none)
    {input output : Option Fd} {commands : List Command} {started : Started}
    (leads : (startSegments input output commands).Leads events started) :
    ∃ begun, Begins commands started begun ∧
      events.filterMap kind = (begun.map startOf).filterMap kind := by
  induction commands generalizing input events started with
  | nil =>
      obtain ⟨nothing, startedEq⟩ := eq_of_release overlooks.close leads
      rw [nothing, startedEq]
      exact ⟨[], ⟨rfl, List.nil_prefix, fun _ => rfl⟩, rfl⟩
  | cons command rest ih =>
      cases rest with
      | nil =>
          obtain ⟨reply, back, eventsEq, later⟩ := leads.of_ask
          cases reply with
          | error errno =>
              obtain ⟨nothing, startedEq⟩ := eq_of_release overlooks.close later
              have silent : kind ⟨.fork (.segment ⟨command, input, output⟩), .error errno⟩ = none :=
                failing _ _
              refine ⟨[], startedEq ▸ begins_nothing _ _, ?_⟩
              rw [eventsEq, List.filterMap_cons, silent, nothing]
              rfl
          | ok pid =>
              obtain ⟨nothing, startedEq⟩ := eq_of_release overlooks.close later
              refine ⟨[(⟨command, input, output⟩, pid)], ?_, ?_⟩
              · rw [startedEq]
                exact ⟨rfl, List.prefix_refl _, fun _ => rfl⟩
              · rw [eventsEq, List.filterMap_cons, nothing]
                rfl
      | cons second others =>
          obtain ⟨made, afterPipe, same, later⟩ :=
            exists_leads_behind (never_openPipe overlooks) leads
          rw [same]
          cases made with
          | error fault =>
              obtain ⟨nothing, startedEq⟩ := eq_of_release overlooks.close later
              rw [nothing, startedEq]
              exact ⟨[], begins_nothing _ _, rfl⟩
          | ok ends =>
              obtain ⟨reply, back, backEq, afterFork⟩ := Leads.of_ask later
              rw [backEq, List.filterMap_cons]
              cases reply with
              | error errno =>
                  obtain ⟨_, sameBack, last⟩ :=
                    exists_leads_behind_release overlooks.close afterFork
                  obtain ⟨nothing, startedEq⟩ := eq_of_release overlooks.close last
                  rw [sameBack, nothing, startedEq]
                  refine ⟨[], begins_nothing _ _, ?_⟩
                  simp [failing]
              | ok pid =>
                  obtain ⟨_, sameBack, last⟩ :=
                    exists_leads_behind_release overlooks.close afterFork
                  obtain ⟨behind, recursion, startedEq⟩ := leads_bind_pure_iff.mp last
                  obtain ⟨begun, begins, innerEq⟩ := ih recursion
                  refine ⟨(⟨command, input, some ends.2⟩, pid) :: begun, ?_, ?_⟩
                  · rw [startedEq]
                    refine ⟨congrArg (List.cons pid) begins.pids, ?_, fun intact => ?_⟩
                    · exact (List.cons_prefix_cons).mpr ⟨rfl, begins.inOrder⟩
                    · exact congrArg Nat.succ (begins.whole intact)
                  · rw [sameBack, innerEq]
                    exact List.filterMap_cons.symm

theorem overlooksDescriptors_launch : OverlooksDescriptors Event.launch? :=
  ⟨fun _ _ _ => rfl, fun _ => rfl, fun _ _ _ => rfl, fun _ _ => rfl⟩

theorem exists_launches_of_startSegments {input output : Option Fd} {commands : List Command}
    {started : Started} (leads : (startSegments input output commands).Leads events started) :
    ∃ begun, Begins commands started begun ∧
      launches events = begun.map fun entry => (.segment entry.1, entry.2) := by
  obtain ⟨begun, begins, found⟩ :=
    exists_begun_of_startSegments overlooksDescriptors_launch.pipes (fun _ _ => rfl) leads
  refine ⟨begun, begins, ?_⟩
  rw [launches, found, List.filterMap_map, ← List.filterMap_eq_map]
  rfl

/-! ### Stages -/

theorem never_waitRemaining (quiet : ∀ pid reply, kind ⟨.wait pid, reply⟩ = none) (last : Int)
    (failure : Option Errno) (pids : List Pid) : Never kind (waitRemaining last failure pids) := by
  induction pids generalizing last failure with
  | nil => cases failure <;> exact never_pure _
  | cons pid rest ih =>
      have waited : Never kind (System.waitFor pid) :=
        Never.bind (never_request (quiet pid)) fun _ => never_pure _
      refine waited.bind fun outcome => ?_
      cases outcome with
      | ok status => exact ih status failure
      | error errno => exact ih last _

inductive StartsStage (stage : Stage) (output : Option Fd) :
    List (Event System.interface) → Except RunFault (List Pid) → Prop where
  | whole {events : List (Event System.interface)} {started : Started}
      (starting : (startSegments none output stage.commands).Leads events started)
      (intact : started.fault = none) : StartsStage stage output events (.ok started.pids)
  | cut {front back : List (Event System.interface)} {started : Started} {fault : RunFault}
      {outcome : Except Errno Int}
      (starting : (startSegments none output stage.commands).Leads front started)
      (faulty : started.fault = some fault)
      (waiting : (waitRemaining 0 none started.pids).Leads back outcome) :
      StartsStage stage output (front ++ back) (.error fault)

theorem startsStage_of_leads {stage : Stage} {output : Option Fd}
    {outcome : Except RunFault (List Pid)}
    (leads : (startStage stage output).run.Leads events outcome) :
    StartsStage stage output events outcome := by
  obtain ⟨front, started, back, split, starting, later⟩ := Leads.of_attempt_lift_bind leads
  cases faultEq : started.fault with
  | none =>
      rw [faultEq] at later
      obtain ⟨nothing, outcomeEq⟩ := Leads.of_pure later
      rw [split, nothing, List.append_nil, outcomeEq]
      exact .whole starting faultEq
  | some fault =>
      rw [faultEq] at later
      obtain ⟨middle, waited, last, splitBack, waiting, thrown⟩ := Leads.of_attempt_lift_bind later
      obtain ⟨nothing, outcomeEq⟩ := Leads.of_pure thrown
      rw [split, splitBack, nothing, List.append_nil, outcomeEq]
      exact .cut starting faultEq waiting

end Shell

end PipelineShell

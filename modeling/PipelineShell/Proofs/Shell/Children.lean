import PipelineShell.Proofs.Shell.Launches

/-!
The children of a pipeline. Of all that happens while a pipeline runs, only the starts and the
collections of children are looked at here; if the pipeline comes to a status, then it has
collected all the children it has started.
-/

namespace PipelineShell

inductive ChildEvent where
  | started (pid : Pid)
  | collected (pid : Pid)
deriving DecidableEq, Repr

/-- What an event means for the children. A child that has ended is collected by the wait or the
poll that finds it, whatever it ended with. -/
def Event.child? : Event System.interface → Option ChildEvent
  | ⟨.fork _, .ok pid⟩ => some (.started pid)
  | ⟨.wait pid, .ok _⟩ => some (.collected pid)
  | ⟨.poll pid, .ok (some _)⟩ => some (.collected pid)
  | _ => none

def childEvents (events : List (Event System.interface)) : List ChildEvent :=
  events.filterMap Event.child?

theorem childEvents_append (events more : List (Event System.interface)) :
    childEvents (events ++ more) = childEvents events ++ childEvents more :=
  List.filterMap_append

def ChildEvent.block (pids : List Pid) : List ChildEvent :=
  pids.map .started ++ pids.map .collected

namespace Shell

open Routine

theorem overlooksDescriptors_child : OverlooksDescriptors Event.child? :=
  ⟨fun _ _ _ => rfl, fun _ => rfl, fun _ _ _ => rfl, fun _ _ => rfl⟩

/-! ### Starting -/

/-- The children that are started are those that are given back, in order; and if nothing keeps a
segment from being started, then there is one for each segment. -/
theorem childEvents_of_startSegments {input output : Option Fd} {commands : List Command}
    {events : List (Event System.interface)} {started : Started}
    (leads : (startSegments input output commands).Leads events started) :
    childEvents events = started.pids.map .started ∧
      (started.fault = none → started.pids.length = commands.length) := by
  have failing : ∀ child errno, Event.child? ⟨.fork child, .error errno⟩ = none :=
    fun _ _ => rfl
  obtain ⟨begun, begins, children⟩ :=
    exists_begun_of_startSegments overlooksDescriptors_child.pipes failing leads
  have each : (begun.map startOf).filterMap Event.child?
      = (begun.map Prod.snd).map ChildEvent.started := by
    rw [List.filterMap_map, List.map_map, ← List.filterMap_eq_map]
    rfl
  refine ⟨?_, fun intact => ?_⟩
  · rw [childEvents, children, each, begins.pids]
  · rw [← begins.pids, List.length_map]
    exact begins.whole intact

/-! ### Collecting -/

private theorem childEvents_of_waitFor {pid : Pid} {status : Int}
    {events : List (Event System.interface)}
    (leads : (System.waitFor pid).Leads events (.ok status)) :
    childEvents events = [.collected pid] := by
  obtain ⟨reply, back, eventsEq, returned⟩ := leads.of_ask
  obtain ⟨nothing, statusEq⟩ := returned.of_pure
  rw [eventsEq, nothing]
  cases reply with
  | error errno => cases statusEq
  | ok death => rfl

private theorem not_ok_of_failure {last status : Int} {errno : Errno} {pids : List Pid}
    {events : List (Event System.interface)}
    (leads : (waitRemaining last (some errno) pids).Leads events (.ok status)) : False := by
  induction pids generalizing last events with
  | nil => cases leads
  | cons pid rest ih =>
      obtain ⟨front, reply, back, split, waited, later⟩ := leads.of_bind
      cases reply with
      | ok other => exact ih later
      | error other => exact ih later

private theorem childEvents_of_waitRemaining {last status : Int} {pids : List Pid}
    {events : List (Event System.interface)}
    (leads : (waitRemaining last none pids).Leads events (.ok status)) :
    childEvents events = pids.map .collected := by
  induction pids generalizing last events with
  | nil =>
      cases leads
      rfl
  | cons pid rest ih =>
      obtain ⟨front, reply, back, split, waited, later⟩ := leads.of_bind
      cases reply with
      | error errno => exact (not_ok_of_failure later).elim
      | ok other => rw [split, childEvents_append, childEvents_of_waitFor waited, ih later]; rfl

theorem childEvents_of_startStage {stage : Stage} {output : Option Fd} {pids : List Pid}
    {events : List (Event System.interface)}
    (leads : (startStage stage output).run.Leads events (.ok pids)) :
    childEvents events = pids.map .started ∧ pids.length = stage.commands.length := by
  cases startsStage_of_leads leads with
  | whole starting intact =>
      obtain ⟨children, each⟩ := childEvents_of_startSegments starting
      exact ⟨children, each intact⟩

theorem childEvents_of_collectAll {pids : List Pid} {status : Int}
    {events : List (Event System.interface)}
    (leads : (collectAll pids).run.Leads events (.ok status)) :
    childEvents events = pids.map .collected := by
  obtain ⟨front, outcome, back, split, waiting, later⟩ := Leads.of_attempt_lift_bind leads
  cases outcome with
  | error errno => cases later
  | ok reached =>
      obtain ⟨nothing, _⟩ := Leads.of_pure later
      rw [split, nothing, List.append_nil]
      exact childEvents_of_waitRemaining waiting

end Shell

end PipelineShell

import PipelineShell.Proofs.Shell.Builtins
import PipelineShell.Proofs.Shell.Outcome
import PipelineShell.Proofs.Shell.Requests
import PipelineShell.Proofs.System.Monitor

/-!
What a line leaves alone. The code to leave with and the directory of the shell are changed by lines
of a single builtin only, which run in the foreground with the output of the shell; such a line asks
for nothing but what concerns the shell itself, and always comes to a status.
-/

namespace PipelineShell

/-- The program of a line that is one command alone, in the foreground and with the output of the
shell. -/
def CommandLine.plainProgram? : CommandLine → Option String
  | ⟨[.command command], .inherited, false⟩ => some command.program
  | _ => none

theorem CommandLine.plainProgram?_eq_some_iff {line : CommandLine} {program : String} :
    line.plainProgram? = some program ↔
      ∃ arguments, line = ⟨[.command ⟨program, arguments⟩], .inherited, false⟩ := by
  constructor
  · intro plain
    unfold plainProgram? at plain
    split at plain
    · rename_i command
      cases plain
      exact ⟨command.arguments, rfl⟩
    · cases plain
  · rintro ⟨arguments, lineEq⟩
    rw [lineEq]
    rfl

namespace Shell

open Routine

variable {shell later : Shell} {line : CommandLine} {events : List (Event System.interface)}

/-! ### Lines that are builtins -/

private theorem plainProgram?_of_builtin? {builtin : Builtin} {arguments : List String}
    (own : builtin? line = some (builtin, arguments)) :
    line.plainProgram? = some builtin.program := by
  unfold builtin? at own
  split at own
  · rename_i command
    obtain ⟨named, found, pairEq⟩ := Option.map_eq_some_iff.mp own
    cases pairEq
    exact congrArg some (Builtin.named?_eq_some_iff.mp found)
  · cases own

private theorem builtin?_of_plainProgram? {builtin : Builtin}
    (plain : line.plainProgram? = some builtin.program) :
    ∃ arguments, builtin? line = some (builtin, arguments) := by
  obtain ⟨arguments, lineEq⟩ := CommandLine.plainProgram?_eq_some_iff.mp plain
  refine ⟨arguments, ?_⟩
  rw [lineEq]
  change (Builtin.named? builtin.program).map _ = _
  rw [Builtin.named?_eq_some_iff.mpr rfl]
  rfl

/-! ### Lines of all kinds -/

private theorem overlooksLines_move : OverlooksLines Event.move? where
  toOverlooksDescriptors := ⟨fun _ _ _ => rfl, fun _ => rfl, fun _ _ _ => rfl, fun _ _ => rfl⟩
  fork _ _ := rfl
  wait _ _ := rfl

section Requests

variable {σ : Type} {kind : Event System.interface → Option σ}

/-- A line asks for nothing of a kind to which nothing of the shell's own belongs, and nothing about
descriptors and children. -/
theorem never_run (overlooks : OverlooksLines kind)
    (quiet : ∀ event : Event System.interface, event.request.IsOwn → kind event = none)
    (shell : Shell) (line : CommandLine) : Never kind (shell.run line) := by
  cases isBuiltin : builtin? line with
  | none => exact never_run_of_external overlooks isBuiltin shell
  | some own =>
      rw [run_of_builtin isBuiltin]
      exact (Builtin.never_run quiet _ _ _).bind fun _ => never_pure _

end Requests

private theorem exit_of_external {outcome : Except RunFault Completion}
    (external : builtin? line = none)
    (leads : (shell.run line).Leads events (outcome, later)) : later.exit = shell.exit := by
  cases runs_of_leads leads with
  | builtin own ran =>
      rw [external] at own
      cases own
  | unplanned faulty => rfl
  | ended planned foreground ran => rfl
  | failed planned foreground ran => rfl
  | detached planned background started => rfl
  | undetached planned background started => rfl

/-- What a line has left of the shell, by the program it is if it is plain. -/
structure Frame (shell : Shell) (line : CommandLine) (events : List (Event System.interface))
    (outcome : Except RunFault Completion) (later : Shell) : Prop where
  /-- Only an `exit` asks to leave. -/
  stays : line.plainProgram? ≠ some "exit" → later.exit = shell.exit
  leaves : line.plainProgram? = some "exit" → later.exit.isSome
  /-- Only a `cd` moves the shell, and it does so if it succeeds. -/
  still : line.plainProgram? ≠ some "cd" → moves events = []
  moved : line.plainProgram? = some "cd" → ∀ status, outcome = .ok (.done status) →
    (moves events).length = if status = 0 then 1 else 0
  /-- Both come to a status and ask for what is the shell's own. -/
  own : line.plainProgram? = some "cd" ∨ line.plainProgram? = some "exit" →
    (∃ status, outcome = .ok (.done status)) ∧ ∀ event ∈ events, event.request.IsOwn

theorem Frame.still_of_failed {outcome : Except RunFault Completion} {status : Int}
    (frame : Frame shell line events outcome later) (isDone : outcome = .ok (.done status))
    (failed : status ≠ 0) : moves events = [] := by
  by_cases isMove : line.plainProgram? = some "cd"
  · apply List.eq_nil_of_length_eq_zero
    rw [frame.moved isMove status isDone, if_neg failed]
  · exact frame.still isMove

private theorem frame_of_builtin {builtin : Builtin} {arguments : List String} {status : Int}
    {reached : Shell} (own : builtin? line = some (builtin, arguments))
    (ran : (builtin.run shell arguments).Leads events (status, reached)) :
    Frame shell line events (.ok (.done status)) { reached with lastStatus := status } := by
  have plain := plainProgram?_of_builtin? own
  have settles := Builtin.settles_of_run ran
  have moved := settles.moved
  have reachedEq : reached = builtin.leaves shell status :=
    gives_builtin builtin shell arguments _ _ ran
  rw [reachedEq]
  cases builtin with
  | changeDirectory =>
      refine ⟨fun _ => rfl, fun isExit => ?_, fun other => (other plain).elim,
        fun _ given same => ?_, fun _ => ⟨⟨status, rfl⟩, settles.own⟩⟩
      · rw [plain] at isExit
        exact nomatch isExit
      · cases same
        rw [moved]
        simp only [true_and]
  | exit =>
      refine ⟨fun other => (other plain).elim, fun _ => rfl, fun _ => ?_, fun isMove => ?_,
        fun _ => ⟨⟨status, rfl⟩, settles.own⟩⟩
      · rw [if_neg fun both => nomatch both.1] at moved
        exact List.eq_nil_of_length_eq_zero moved
      · rw [plain] at isMove
        exact nomatch isMove

private theorem frame_of_external {outcome : Except RunFault Completion}
    (external : builtin? line = none) (leads : (shell.run line).Leads events (outcome, later)) :
    Frame shell line events outcome later := by
  have other : ∀ builtin : Builtin, line.plainProgram? ≠ some builtin.program := by
    intro builtin plain
    obtain ⟨arguments, own⟩ := builtin?_of_plainProgram? plain
    rw [external] at own
    cases own
  refine ⟨fun _ => exit_of_external external leads, fun isExit => (other .exit isExit).elim,
    fun _ => never_run_of_external overlooksLines_move external shell _ _ leads,
    fun isMove => (other .changeDirectory isMove).elim, fun isOwn => ?_⟩
  rcases isOwn with isMove | isExit
  · exact (other .changeDirectory isMove).elim
  · exact (other .exit isExit).elim

theorem frame_of_leads {outcome : Except RunFault Completion}
    (leads : (shell.run line).Leads events (outcome, later)) :
    Frame shell line events outcome later := by
  cases isBuiltin : builtin? line with
  | none => exact frame_of_external isBuiltin leads
  | some own =>
      rw [run_of_builtin isBuiltin] at leads
      obtain ⟨_, ran, resultEq⟩ := leads_bind_pure_iff.mp leads
      cases resultEq
      exact frame_of_builtin isBuiltin ran

end Shell

/-! ### Places -/

section Places

variable {σ δ α : Type} {world : World System.interface σ} {place : σ → δ}

/-- In the world, nothing but a change of the directory that succeeds changes the place. -/
def KeepsPlace (world : World System.interface σ) (place : σ → δ) : Prop :=
  ∀ request state, Event.move? ⟨request, (world request state).1⟩ = none →
    place (world request state).2 = place state

theorem KeepsPlace.afterAll (keeps : KeepsPlace world place) {state : σ}
    {events : List (Event System.interface)}
    (along : (Monitor.ofWorld world).Along (Monitor.ofWorld world).Allows state events)
    (still : moves events = []) :
    place ((Monitor.ofWorld world).afterAll state events) = place state := by
  induction events generalizing state with
  | nil => rfl
  | cons event rest ih =>
      obtain ⟨request, reply⟩ := event
      obtain ⟨replyEq, alongRest⟩ := along
      change reply = (world request state).1 at replyEq
      obtain ⟨stillHere, stillBehind⟩ :=
        List.forall_mem_cons.mp (List.filterMap_eq_nil_iff.mp still)
      rw [replyEq] at stillHere
      calc place ((Monitor.ofWorld world).afterAll (world request state).2 rest)
          = place (world request state).2 :=
            ih alongRest (List.filterMap_eq_nil_iff.mpr stillBehind)
        _ = place state := keeps request state stillHere

theorem KeepsPlace.exists_leads (keeps : KeepsPlace world place)
    (routine : Routine System.interface α) (state : σ) :
    ∃ events, routine.Leads events (routine.run world state).1 ∧
      (moves events = [] → place (routine.run world state).2 = place state) := by
  obtain ⟨events, leads, along, reached⟩ :=
    @Monitor.exists_along_run System.interface α σ world routine state
  refine ⟨events, leads, fun still => ?_⟩
  rw [← reached]
  exact keeps.afterAll along still

end Places

end PipelineShell

import PipelineShell.Proofs.System.Path
import PipelineShell.Proofs.Text.Decimal
import PipelineShell.Shell.Builtin

/-!
What the builtins do. They ask for nothing but what concerns the shell itself: where it is, where
home is, and what it has to complain of. Every way through `cd` comes to a status, which is zero
just if the shell has moved, and it moves once at most; leaving comes to the code that the operand
names, or to two.
-/

namespace PipelineShell

inductive System.Call.IsOwn : System.Call → Prop where
  | changeDirectory (path : String) : IsOwn (.changeDirectory path)
  | environment (name : String) : IsOwn (.environment name)
  | complain (text : String) : IsOwn (.complain text)

def Event.move? : Event System.interface → Option String
  | ⟨.changeDirectory path, .ok _⟩ => some path
  | _ => none

def moves (events : List (Event System.interface)) : List String :=
  events.filterMap Event.move?

theorem moves_append (events more : List (Event System.interface)) :
    moves (events ++ more) = moves events ++ moves more :=
  List.filterMap_append

namespace Shell.Builtin

open Routine

variable {events : List (Event System.interface)} {arguments : List String} {status : Int}

/-! ### Moving -/

/-- Where the shell is to move, and what has been asked to know it. -/
inductive Aims (arguments : List String) :
    List (Event System.interface) → Option String → Prop where
  | operand {path : String} (given : arguments[1]? = some path) : Aims arguments [] (some path)
  | home (missing : arguments[1]? = none) (value : Option (List UInt8)) :
      Aims arguments [⟨.environment "HOME", value⟩] (value.bind Utf8.exactText?)

/-- What a move comes to once it is known where it is to lead. -/
inductive Arrives : Option String → List (Event System.interface) → Int → Prop where
  | homeless : Arrives none [⟨.complain "pish: cd: HOME not set", ()⟩] 1
  | moved (path : String) : Arrives (some path) [⟨.changeDirectory path, .ok ()⟩] 0
  | refused (path : String) (errno : Errno) :
      Arrives (some path) [⟨.changeDirectory path, .error errno⟩,
        ⟨.complain ("pish: cd: " ++ path ++ ": " ++ errno.fileMessage), ()⟩] 1
  | unnamed {path : String} (nul : hasNul path = true) :
      Arrives (some path)
        [⟨.complain ("pish: cd: " ++ path ++ ": " ++ PathFault.holdsNul.message), ()⟩] 1

def arrive : Option String → Routine System.interface Int
  | none => do
      System.complain "pish: cd: HOME not set"
      return 1
  | some path => do
      match ← moveTo path with
      | .ok () => return 0
      | .error fault =>
          System.complain ("pish: cd: " ++ path ++ ": " ++ fault.message)
          return 1

private theorem runChangeDirectory_eq (arguments : List String) :
    runChangeDirectory arguments
      = (match arguments[1]? with
        | some path => pure (some path)
        | none => homeDirectory) >>= arrive := by
  unfold runChangeDirectory
  cases arguments[1]? <;> rfl

private theorem leads_complain_bind {text : String} {α : Type} {next : Routine System.interface α}
    {value : α} (leads : (System.complain text >>= fun _ => next).Leads events value) :
    ∃ back, events = ⟨.complain text, ()⟩ :: back ∧ next.Leads back value := by
  obtain ⟨_, back, eventsEq, later⟩ := Leads.of_ask leads
  exact ⟨back, eventsEq, later⟩

private theorem arrives_of_leads {target : Option String}
    (leads : (arrive target).Leads events status) :
    Arrives target events status := by
  cases target with
  | none =>
      obtain ⟨back, eventsEq, returned⟩ := leads_complain_bind leads
      obtain ⟨nothing, statusEq⟩ := returned.of_pure
      rw [eventsEq, nothing, statusEq]
      exact .homeless
  | some path =>
      obtain ⟨front, moved, back, split, moving, later⟩ := leads.of_bind
      rw [moveTo] at moving
      by_cases nul : hasNul path = true
      · rw [if_pos nul] at moving
        obtain ⟨nothing, movedEq⟩ := moving.of_pure
        rw [movedEq] at later
        obtain ⟨rest, backEq, returned⟩ := leads_complain_bind later
        obtain ⟨nothingMore, statusEq⟩ := returned.of_pure
        rw [split, nothing, backEq, nothingMore, statusEq]
        exact .unnamed nul
      · rw [if_neg nul] at moving
        obtain ⟨answer, rest, frontEq, returned⟩ := moving.of_ask
        obtain ⟨nothing, movedEq⟩ := returned.of_pure
        rw [split, frontEq, nothing]
        cases answer with
        | ok done =>
            rw [movedEq] at later
            obtain ⟨nothingMore, statusEq⟩ := Leads.of_pure later
            rw [nothingMore, statusEq]
            exact .moved path
        | error errno =>
            rw [movedEq] at later
            obtain ⟨further, backEq, ended⟩ := leads_complain_bind later
            obtain ⟨nothingMore, statusEq⟩ := ended.of_pure
            rw [backEq, nothingMore, statusEq]
            exact .refused path errno

private theorem exists_arrives_of_runChangeDirectory
    (leads : (runChangeDirectory arguments).Leads events status) :
    ∃ front target back, events = front ++ back ∧ Aims arguments front target ∧
      Arrives target back status := by
  rw [runChangeDirectory_eq] at leads
  obtain ⟨front, target, back, split, aiming, later⟩ := leads.of_bind
  refine ⟨front, target, back, split, ?_, arrives_of_leads later⟩
  cases given : arguments[1]? with
  | some path =>
      rw [given] at aiming
      obtain ⟨nothing, targetEq⟩ := Leads.of_pure aiming
      rw [nothing, targetEq]
      exact .operand given
  | none =>
      rw [given] at aiming
      obtain ⟨value, rest, frontEq, returned⟩ := Leads.of_ask aiming
      obtain ⟨nothing, targetEq⟩ := returned.of_pure
      rw [frontEq, nothing, targetEq]
      exact .home given value

theorem Arrives.length_moves {target : Option String} (arrives : Arrives target events status) :
    (moves events).length = if status = 0 then 1 else 0 := by
  cases arrives <;> rfl

theorem Aims.moves_eq {target : Option String} (aims : Aims arguments events target) :
    moves events = [] := by
  cases aims <;> rfl

theorem Aims.isOwn {target : Option String} (aims : Aims arguments events target) :
    ∀ event ∈ events, event.request.IsOwn := by
  cases aims with
  | operand given => exact List.forall_mem_nil _
  | home missing value => exact List.forall_mem_singleton.mpr (.environment _)

theorem Arrives.isOwn {target : Option String} (arrives : Arrives target events status) :
    ∀ event ∈ events, event.request.IsOwn := by
  cases arrives with
  | homeless => exact List.forall_mem_singleton.mpr (.complain _)
  | moved path => exact List.forall_mem_singleton.mpr (.changeDirectory _)
  | unnamed nul => exact List.forall_mem_singleton.mpr (.complain _)
  | refused path errno =>
      rw [List.forall_mem_cons]
      exact ⟨.changeDirectory _, List.forall_mem_singleton.mpr (.complain _)⟩

/-! ### Leaving -/

/-- The code to leave with, after the status and with the arguments. -/
inductive AsksFor (status : Int) (arguments : List String) : Int → Prop where
  | last (missing : arguments[1]? = none) : AsksFor status arguments status
  | number {operand : String} {value : Int} (given : arguments[1]? = some operand)
      (names : Decimal.Names operand.toList value)
      (fits : -2147483648 ≤ value ∧ value ≤ 2147483647) : AsksFor status arguments value
  | other {operand : String} (given : arguments[1]? = some operand)
      (unfit : ∀ value, Decimal.Names operand.toList value →
        value < -2147483648 ∨ 2147483647 < value) : AsksFor status arguments 2

private theorem read_signed32_eq_ok_iff {operand : String} {value : Int} :
    Decimal.read Decimal.signed32 operand = .ok value ↔
      Decimal.Names operand.toList value ∧ -2147483648 ≤ value ∧ value ≤ 2147483647 := by
  rw [Decimal.read_eq_ok_iff (by decide), Decimal.contains_iff]
  rfl

theorem asksFor_exitCode (shell : Shell) (arguments : List String) :
    AsksFor shell.lastStatus arguments (exitCode shell arguments) := by
  unfold exitCode
  cases given : arguments[1]? with
  | none => exact .last given
  | some operand =>
      dsimp only
      cases outcome : Decimal.read Decimal.signed32 operand with
      | ok value =>
          obtain ⟨names, fits⟩ := read_signed32_eq_ok_iff.mp outcome
          exact .number given names fits
      | error fault =>
          refine .other given fun value names => ?_
          -- a number that fits would have been read
          refine Decidable.byContradiction fun inside => ?_
          have fits : -2147483648 ≤ value ∧ value ≤ 2147483647 := by omega
          rw [read_signed32_eq_ok_iff.mpr ⟨names, fits⟩] at outcome
          cases outcome

theorem AsksFor.unique {code other : Int} (asks : AsksFor status arguments code)
    (alsoAsks : AsksFor status arguments other) : code = other := by
  cases asks with
  | last missing =>
      cases alsoAsks with
      | last _ => rfl
      | number given _ _ => cases missing.symm.trans given
      | other given _ => cases missing.symm.trans given
  | number given names fits =>
      cases alsoAsks with
      | last missing => cases missing.symm.trans given
      | number alsoGiven alsoNames _ =>
          cases given.symm.trans alsoGiven
          exact names.unique alsoNames
      | other alsoGiven unfit =>
          cases given.symm.trans alsoGiven
          have outside := unfit _ names
          omega
  | other given unfit =>
      cases alsoAsks with
      | last missing => cases missing.symm.trans given
      | other _ _ => rfl
      | number alsoGiven names fits =>
          cases given.symm.trans alsoGiven
          have outside := unfit _ names
          omega

theorem eq_of_runExit {shell : Shell} {result : Int × Shell}
    (leads : (runExit shell arguments).Leads events result) :
    (∀ event ∈ events, event.request.IsOwn) ∧ moves events = [] ∧
      result = (exitCode shell arguments,
        { shell with exit := some (exitCode shell arguments) }) := by
  unfold runExit at leads
  split at leads
  · obtain ⟨nothing, resultEq⟩ := Leads.of_pure leads
    rw [nothing]
    exact ⟨List.forall_mem_nil _, rfl, resultEq⟩
  · split at leads
    · obtain ⟨nothing, resultEq⟩ := Leads.of_pure leads
      rw [nothing]
      exact ⟨List.forall_mem_nil _, rfl, resultEq⟩
    · obtain ⟨back, eventsEq, returned⟩ := leads_complain_bind leads
      obtain ⟨nothing, resultEq⟩ := Leads.of_pure returned
      rw [eventsEq, nothing]
      exact ⟨List.forall_mem_singleton.mpr (.complain _), rfl, resultEq⟩

/-! ### Builtins of both kinds -/

def program : Builtin → String
  | .changeDirectory => "cd"
  | .exit => "exit"

theorem named?_eq_some_iff {name : String} {builtin : Builtin} :
    named? name = some builtin ↔ name = builtin.program := by
  constructor
  · intro found
    unfold named? at found
    split at found <;> cases found <;> rfl
  · intro same
    rw [same]
    cases builtin <;> rfl

structure Settles (builtin : Builtin) (events : List (Event System.interface)) (status : Int) :
    Prop where
  own : ∀ event ∈ events, event.request.IsOwn
  moved : (moves events).length = if builtin = .changeDirectory ∧ status = 0 then 1 else 0

theorem settles_of_run {builtin : Builtin} {arguments : List String} {status : Int}
    {reached : Shell} (leads : (builtin.run shell arguments).Leads events (status, reached)) :
    builtin.Settles events status := by
  cases builtin with
  | changeDirectory =>
      obtain ⟨value, ran, resultEq⟩ := leads_bind_pure_iff.mp leads
      cases resultEq
      obtain ⟨front, target, back, split, aims, arrives⟩ :=
        exists_arrives_of_runChangeDirectory ran
      rw [split]
      refine ⟨List.forall_mem_append.mpr ⟨aims.isOwn, arrives.isOwn⟩, ?_⟩
      rw [moves_append, aims.moves_eq, List.nil_append, arrives.length_moves]
      simp only [true_and]
  | exit =>
      obtain ⟨own, still, _⟩ := eq_of_runExit leads
      refine ⟨own, ?_⟩
      rw [still, if_neg fun both => nomatch both.1]
      rfl

theorem never_run {σ : Type} {kind : Event System.interface → Option σ}
    (quiet : ∀ event : Event System.interface, event.request.IsOwn → kind event = none)
    (builtin : Builtin) (shell : Shell) (arguments : List String) :
    Never kind (builtin.run shell arguments) := by
  intro events result leads
  exact List.filterMap_eq_nil_iff.mpr fun event member =>
    quiet event ((settles_of_run leads).own event member)

end Shell.Builtin

end PipelineShell

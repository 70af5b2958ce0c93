import PipelineShell.Proofs.Session.Account
import PipelineShell.Proofs.Shell.Builtins

/-!
Leaving with a code. The code is that of the operand if the operand is a number of 32 bits, two if
it is anything else, and without an operand it is the last status; it is what the line comes to, and
what the session ends with.
-/

namespace PipelineShell

open Routine ReadOutcome

def CommandLine.leave (arguments : List String) : CommandLine :=
  ⟨[.command ⟨"exit", arguments⟩], .inherited, false⟩

namespace Shell

variable {shell : Shell} {arguments : List String} {events : List (Event System.interface)}

private theorem eq_of_run_leave {result : Except RunFault Completion × Shell}
    (leads : (shell.run (.leave arguments)).Leads events result) :
    result = (.ok (.done (Builtin.exitCode shell arguments)),
      { shell with
        lastStatus := Builtin.exitCode shell arguments
        exit := some (Builtin.exitCode shell arguments) }) := by
  have own : builtin? (.leave arguments) = some (.exit, arguments) := rfl
  rw [run_of_builtin own] at leads
  obtain ⟨middle, ran, resultEq⟩ := leads_bind_pure_iff.mp leads
  obtain ⟨_, _, middleEq⟩ := Builtin.eq_of_runExit ran
  rw [resultEq, middleEq]

theorem Builtin.asksFor_toString (status : Int) (name : String) {number : Int}
    (rest : List String) (fits : -2147483648 ≤ number ∧ number ≤ 2147483647) :
    AsksFor status (name :: toString number :: rest) number :=
  .number rfl (Decimal.names_toString number) fits

end Shell

namespace Session

variable {prompt : Option String} {shell : Shell} {outcomes : List ReadOutcome}
  {before behind : List Act} {act : Act} {arguments : List String}
  {events : List (Event System.interface)} {ended : SessionEnd}

/-- A session ends with the code that a plain `exit` asks for after the lines before it. -/
theorem Account.left_of_leave (account : Account shell outcomes (before ++ act :: behind) ended)
    (performs : Performs prompt shell (before ++ act :: behind) events ended.shell)
    (isLeave : act.reading = .line (.leave arguments)) :
    behind = [] ∧ ∃ code,
      Shell.Builtin.AsksFor ((before.filterMap Act.status?).getLast?.getD shell.lastStatus)
        arguments code ∧
      ended.ending = .left code ∧ ended.shell.lastStatus = code ∧
      ended.shell.exit = some code := by
  obtain ⟨front, middle, back, reached, next, split, earlier, staying, acting, later⟩ :=
    performs.exists_reached
  have asks := Shell.Builtin.asksFor_exitCode reached arguments
  rw [earlier.lastStatus_eq] at asks
  cases acting with
  | refused only => cases isLeave
  | passed => cases isLeave
  | ran leads only =>
      cases isLeave
      cases Shell.eq_of_run_leave leads
      have nothing : behind = [] := by
        cases behind with
        | nil => rfl
        | cons other rest => cases later.staying_of_act
      rw [nothing] at later
      have statusEq := later.lastStatus_eq
      have exitEq := later.exit_of_nothing
      refine ⟨nothing, _, asks, ?_, statusEq, exitEq⟩
      have left : ended.shell.exit ≠ none := by
        rw [exitEq]
        exact Option.some_ne_none _
      rw [account.ending, endingOf_of_left _ left, Shell.leavingCode, exitEq]
      rfl

/-- Leaving always comes to one code, whatever the arguments: the last status without an operand,
the value of an operand that is a number of 32 bits in decimal digits, however many, and two for all
others. A line that leaves comes to that code, and so does the session that it ends. -/
theorem leaves_with_code_asked_for :
    (∀ (shell : Shell) arguments, ∃ code,
      Shell.Builtin.AsksFor shell.lastStatus arguments code ∧
      (∀ other, Shell.Builtin.AsksFor shell.lastStatus arguments other → other = code) ∧
      ∀ (σ : Type) (world : World System.interface σ) state,
        ((Shell.Builtin.runExit shell arguments).run world state).1
          = (code, { shell with exit := some code }) ∧
        ((shell.run (.leave arguments)).run world state).1
          = (.ok (.done code), { shell with lastStatus := code, exit := some code })) ∧
    (∀ status name rest (number : Int), -2147483648 ≤ number → number ≤ 2147483647 →
      Shell.Builtin.AsksFor status (name :: toString number :: rest) number) ∧
    ∀ prompt shell outcomes events ended,
      (Session.run prompt shell outcomes).Leads events ended → shell.exit = none →
      ∃ acts, Performs prompt shell acts events ended.shell ∧ Account shell outcomes acts ended ∧
        ∀ before act behind arguments, acts = before ++ act :: behind →
          act.reading = .line (.leave arguments) →
          behind = [] ∧ ∃ code,
            Shell.Builtin.AsksFor ((before.filterMap Act.status?).getLast?.getD shell.lastStatus)
              arguments code ∧
            ended.ending = .left code ∧ ended.shell.lastStatus = code ∧
            ended.shell.exit = some code := by
  refine ⟨fun shell arguments => ?_, ?_, ?_⟩
  · have asks := Shell.Builtin.asksFor_exitCode shell arguments
    refine ⟨_, asks, fun other alsoAsks => alsoAsks.unique asks, fun σ world state => ⟨?_, ?_⟩⟩
    · obtain ⟨events, leads⟩ := exists_leads_run world (Shell.Builtin.runExit shell arguments) state
      exact (Shell.Builtin.eq_of_runExit leads).2.2
    · obtain ⟨events, leads⟩ := exists_leads_run world (shell.run (.leave arguments)) state
      exact Shell.eq_of_run_leave leads
  · intro status name rest number least most
    exact Shell.Builtin.asksFor_toString status name rest ⟨least, most⟩
  · intro prompt shell outcomes events ended leads staying
    obtain ⟨acts, performs, account⟩ := exists_account leads staying
    refine ⟨acts, performs, account, fun before act behind arguments split isLeave => ?_⟩
    rw [split] at account performs
    exact account.left_of_leave performs isLeave

/-- A line that is refused, an `exit` with the least number of 32 bits behind some zeros, and one
line more. -/
theorem leaves_with_code_asked_for_of_least :
    let arguments := ["exit", "-0002147483648"]
    let outcomes : List ReadOutcome :=
      [.bytes "|\nexit -0002147483".toUTF8.toList, .bytes "648\nexit\n".toUTF8.toList]
    let ended : SessionEnd := ⟨.left (-2147483648), ⟨.empty, -2147483648, some (-2147483648)⟩, 2⟩
    Shell.Builtin.AsksFor 7 ["exit", toString (-2147483648 : Int)] (-2147483648) ∧
      ∃ events refused left, (Session.run none .new outcomes).Leads events ended ∧
        Shell.new.exit = none ∧ Performs none .new [refused, left] events ended.shell ∧
        left.reading = .line (.leave arguments) ∧
        ∃ code, Shell.Builtin.AsksFor (([refused].filterMap Act.status?).getLast?.getD 0) arguments
            code ∧ ended.ending = .left code := by
  intro arguments outcomes ended
  have least := leaves_with_code_asked_for.2.1 7 "exit" [] (-2147483648) (by decide) (by decide)
  obtain ⟨events, leads⟩ := exists_leads_run (Kernel.serve Pid.mk Kernel.refuse)
    (Session.run none .new outcomes) (.start (.empty : Descriptors (Endpoint Unit)))
  have endedEq : ((Session.run none .new outcomes).run (Kernel.serve Pid.mk Kernel.refuse)
      (.start (.empty : Descriptors (Endpoint Unit)))).1 = ended := by
    decide +kernel
  rw [endedEq] at leads
  obtain ⟨acts, performs, account, leaving⟩ :=
    leaves_with_code_asked_for.2.2 none .new outcomes events ended leads rfl
  have inputEq : readingsOf [] ((inputOf outcomes).take ended.reads)
      = [.fault .noLeftOperand, .line (.leave arguments), .line (.leave ["exit"])] := by
    decide +kernel
  have firstEq : (readingsOf [] ((inputOf outcomes).take (ended.reads - 1))).length = 1 := by
    decide +kernel
  have early := account.early (Option.some_ne_none _)
  have within := account.within
  rw [firstEq] at early
  rw [inputEq] at within
  rcases acts with _ | ⟨refused, _ | ⟨left, others⟩⟩
  · cases early
  · exact absurd early (Nat.lt_irrefl 1)
  · obtain ⟨_, behindFirst⟩ := List.cons_prefix_cons.mp within
    obtain ⟨isLeave, _⟩ := List.cons_prefix_cons.mp behindFirst
    obtain ⟨nothing, code, asks, ending, _⟩ := leaving [refused] left others arguments rfl isLeave
    rw [nothing] at performs
    exact ⟨least, events, refused, left, leads, rfl, performs, isLeave, code, asks, ending⟩

end Session

end PipelineShell

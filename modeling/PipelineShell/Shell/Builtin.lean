import PipelineShell.Shell.Basic
import PipelineShell.Text.Decimal
import PipelineShell.Text.Utf8

/-!
The commands that act on the shell itself. They look at their first operand only, report their
failures as complaints, and always give a status.
-/

namespace PipelineShell.Shell

/-- A command that the shell carries out itself. -/
inductive Builtin where
  | changeDirectory
  | exit
deriving DecidableEq, Repr

namespace Builtin

def named? : String → Option Builtin
  | "cd" => some .changeDirectory
  | "exit" => some .exit
  | _ => none

/-- The home directory, if the environment names one in UTF-8. -/
def homeDirectory : Routine System.interface (Option String) := do
  let value ← System.call (.environment "HOME")
  return value.bind Utf8.exactText?

def moveTo (path : String) : Routine System.interface (Except PathFault Unit) := do
  if hasNul path then
    return .error .holdsNul
  else
    let reply ← System.call (.changeDirectory path)
    return reply.mapError .refused

/-- Moves the shell to the operand, or home without one. -/
def runChangeDirectory (arguments : List String) : Routine System.interface Int := do
  let target ← match arguments[1]? with
    | some path => pure (some path)
    | none => homeDirectory
  match target with
  | none =>
      System.complain "pish: cd: HOME not set"
      return 1
  | some path =>
      match ← moveTo path with
      | .ok () => return 0
      | .error fault =>
          System.complain ("pish: cd: " ++ path ++ ": " ++ fault.message)
          return 1

/-- The code that the operand asks for, or the last status without one. An operand that is no
number of 32 bits counts as two. -/
def exitCode (shell : Shell) (arguments : List String) : Int :=
  match arguments[1]? with
  | none => shell.lastStatus
  | some operand => (Decimal.read Decimal.signed32 operand).toOption.getD 2

def runExit (shell : Shell) (arguments : List String) :
    Routine System.interface (Int × Shell) := do
  match arguments[1]? with
  | none => pure ()
  | some operand =>
      match Decimal.read Decimal.signed32 operand with
      | .ok _ => pure ()
      | .error _ =>
          System.complain ("pish: exit: " ++ operand ++ ": numeric argument required")
  let code := exitCode shell arguments
  return (code, { shell with exit := some code })

/-- Carries out a builtin; its status is not yet the last one. -/
def run (builtin : Builtin) (shell : Shell) (arguments : List String) :
    Routine System.interface (Int × Shell) :=
  match builtin with
  | .changeDirectory => do
      let status ← runChangeDirectory arguments
      return (status, shell)
  | .exit => runExit shell arguments

end Builtin

/-- The builtin that a line is, with its arguments. Only a line of one command, in the
foreground and with the output of the shell, is one. -/
def builtin? (line : CommandLine) : Option (Builtin × List String) :=
  match line with
  | ⟨[.command command], .inherited, false⟩ =>
      (Builtin.named? command.program).map fun builtin => (builtin, command.arguments)
  | _ => none

end PipelineShell.Shell

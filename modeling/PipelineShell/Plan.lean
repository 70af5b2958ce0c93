import PipelineShell.CommandLine.Basic

/-!
The plan of a line: stages, each a pipeline behind a gate. Planning reads the positions from left
to right and reports the first position at which no line could go on, or whose command cannot be
passed to the system; nothing is started before the whole line has a plan.
-/

namespace PipelineShell

/-- Which statuses of the stage before let a stage run. -/
inductive Gate where
  | always
  | afterSuccess
  | afterFailure
deriving DecidableEq, Repr

/-- Whether the gate lets a stage run after the status. -/
def Gate.opens : Gate → Int → Bool
  | .always, _ => true
  | .afterSuccess, status => status == 0
  | .afterFailure, status => status != 0

/-- Commands joined by pipes, behind a gate. -/
structure Stage where
  gate : Gate
  commands : List Command
deriving DecidableEq, Repr

/-- Why a line has no plan. -/
inductive PlanFault where
  /-- A command and a connective do not alternate, or a program has no name. -/
  | malformed
  /-- A program or an argument holds a NUL character. -/
  | holdsNul
deriving DecidableEq, Repr

def hasNul (text : String) : Bool :=
  text.toList.any (· == Char.ofNat 0)

/-- The command as a program is started from it: told its own name if it has no arguments. -/
def Command.completed (command : Command) : Command :=
  { command with
    arguments := if command.arguments.isEmpty then [command.program] else command.arguments }

/-- The command as it is passed to the system, to which a NUL character cannot be passed. -/
def Command.prepare (command : Command) : Except PlanFault Command :=
  if hasNul command.program || command.arguments.any hasNul then .error .holdsNul
  else .ok command.completed

/-- What a position of a plan needs next. -/
inductive Plan.Need where
  | command
  | connective
deriving DecidableEq, Repr

/-- The stages of the positions that are left, where `before` holds the commands of the stage
that is being read. -/
def Plan.stages (gate : Gate) (before : List Command) :
    Plan.Need → List Item → Except PlanFault (List Stage)
  | .command, .command given :: rest =>
      if given.program = "" then .error .malformed
      else do
        let prepared ← given.prepare
        Plan.stages gate (before ++ [prepared]) .connective rest
  | .command, _ => .error .malformed
  | .connective, [] => .ok [⟨gate, before⟩]
  | .connective, .command _ :: _ => .error .malformed
  | .connective, .connective .pipe :: rest => Plan.stages gate before .command rest
  | .connective, .connective .and :: rest => do
      let later ← Plan.stages .afterSuccess [] .command rest
      return ⟨gate, before⟩ :: later
  | .connective, .connective .or :: rest => do
      let later ← Plan.stages .afterFailure [] .command rest
      return ⟨gate, before⟩ :: later

def CommandLine.plan (line : CommandLine) : Except PlanFault (List Stage) :=
  Plan.stages .always [] .command line.items

end PipelineShell

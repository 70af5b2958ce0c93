import PipelineShell.Script.Jobs
import PipelineShell.Script.Settings

/-!
The builtins about signals and jobs: sending signals, setting traps, waiting for children and
showing them.
-/

namespace PipelineShell.Script

/-! ### Sending signals -/

def standardSignal : Nat := 15

def refuseKill {α : Type} : Run α :=
  fail ("Usage: kill [-s sigspec | -signum | -sigspec] [pid | job]... or\n"
    ++ "kill -l [exitstatus]").toList

/-- What is to be sent or shown. -/
inductive KillRequest where
  | send (signal : Nat) (operands : List Octets)
  | list (operands : List Octets)

def optionSignal (text : Octets) : Run Nat :=
  match Signal.ofText? 1 text with
  | some signal => return signal
  | none => fail ("invalid signal number or name: ".toList ++ text)

def killRequest (words : List Octets) : Run KillRequest := do
  let checked := fun (signal : Nat) (operands : List Octets) =>
    (if operands.isEmpty then refuseKill else return .send signal operands : Run KillRequest)
  match words with
  | [] => refuseKill
  | first :: rest =>
      match first with
      | '-' :: name =>
          match Signal.ofText? 1 name with
          | some signal => checked signal rest
          | none =>
              let (options, operands) ← takeOptions "l" "s" words
              let signals ← options.mapM fun (letter, text) =>
                if letter == 's' then do return some (← optionSignal text) else return none
              let signal := (signals.filterMap id).getLast?
              if options.any fun option => option.1 == 'l' then
                if signal.isSome then refuseKill else return .list operands
              else checked (signal.getD standardSignal) operands
      | _ => checked standardSignal words

/-- Sends a signal to a process; the value tells whether that has succeeded. -/
def sendTo (signal : Nat) (operand : Octets) : Run Bool := do
  let reply ← match operand with
    | '%' :: _ =>
        let _ ← namedJob (some operand)
        pure (.error .noProcess)
    | '-' :: digits =>
        let _ ← wholeNumber digits
        pure (.error .noProcess)
    | digits => do
        let pid ← wholeNumber digits
        ask (.signal ⟨pid⟩ signal)
  match reply with
  | .ok () => return true
  | .error errno =>
      warn (errno.text.toList ++ ['\n'])
      return false

def listSignals (operands : List Octets) : Run Int := do
  match operands with
  | [] =>
      print "0\n".toList
      (List.range (Signal.count - 1)).forM fun before =>
        print ((Signal.name (before + 1)).toList ++ ['\n'])
      return 0
  | operand :: _ =>
      let number ← wholeNumber operand
      let signal := if 128 < number then number - 128 else number
      if 0 < signal && signal < Signal.count then
        print ((Signal.name signal).toList ++ ['\n'])
        return 0
      else fail ("invalid signal number or exit status: ".toList ++ operand)

def killStatus (words : List Octets) : Run Int := do
  match ← killRequest words with
  | .list operands => listSignals operands
  | .send signal operands =>
      let sent ← operands.mapM (sendTo signal)
      return if sent.all id then 0 else 1

/-! ### Traps -/

/-- Sets the trap of each signal that is named; the value is the status. -/
def setTraps (action : Option Octets) : List Octets → Run Int
  | [] => return 0
  | word :: rest => do
      match Signal.ofText? 0 word with
      | none =>
          writeTo Fd.error ("trap: ".toList ++ word ++ ": bad trap\n".toList)
          return 1
      | some signal =>
          setTrap signal action
          setTraps action rest

def showTraps : Run Unit := do
  let traps := (← get).traps
  (List.range Signal.count).forM fun signal =>
    match traps.lookup signal with
    | none => return ()
    | some action =>
        print ("trap -- ".toList ++ singleQuoted action ++ ' ' :: (Signal.name signal).toList
          ++ ['\n'])

def trapStatus (words : List Octets) : Run Int := do
  match ← takeNoOptions words with
  | [] =>
      showTraps
      return 0
  | [signal] => setTraps none [signal]
  | action :: signals =>
      if (Signal.ofDigits? action).isSome then setTraps none (action :: signals)
      else setTraps (if action == ['-'] then none else some action) signals

/-! ### Jobs -/

def waitStatus (words : List Octets) : Run Int := do
  match ← takeNoOptions words with
  | [] => awaitAll
  | operands => awaitOperands 127 operands

def jobsStatus (words : List Octets) : Run Int := do
  let (options, operands) ← takeOptions "lp" "" words
  let leaderOnly := (options.getLast?.map Prod.fst) == some 'p'
  if operands.isEmpty then showJobs leaderOnly
  else operands.forM fun operand => do
    showJob leaderOnly (← namedJob (some operand))
  return 0

def moveStatus (words : List Octets) : Run Int := do
  let operands ← takeNoOptions words
  let _ ← namedJob operands.head?
  fail ("job ".toList ++ operands.head?.getD "(null)".toList
    ++ " not created under job control".toList)

end PipelineShell.Script

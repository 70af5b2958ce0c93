import PipelineShell.Script.Interpreter

/-!
Signals as scripts name them, what parents say about children that were killed, and traps. A
signal that was ignored when the script began stays ignored, whatever the script decides.
-/

namespace PipelineShell.Script

namespace Signal

def count : Nat := 65

def child : Nat := 17

/-- The names of the first signals, from number zero on. Zero is the end of the script. -/
def firstNames : List String :=
  ["EXIT", "HUP", "INT", "QUIT", "ILL", "TRAP", "ABRT", "BUS", "FPE", "KILL", "USR1", "SEGV",
    "USR2", "PIPE", "ALRM", "TERM", "16", "CHLD", "CONT", "STOP", "TSTP", "TTIN", "TTOU", "URG",
    "XCPU", "XFSZ", "VTALRM", "PROF", "WINCH", "IO", "PWR", "SYS", "32", "33", "RTMIN"]

def name (signal : Nat) : String :=
  match firstNames[signal]? with
  | some name => name
  | none =>
      if signal = 64 then "RTMAX"
      else if signal < 50 then "RTMIN+" ++ toString (signal - 34)
      else "RTMAX-" ++ toString (64 - signal)

def firstDescriptions : List String :=
  ["Hangup", "Interrupt", "Quit", "Illegal instruction", "Trace/breakpoint trap", "Aborted",
    "Bus error", "Floating point exception", "Killed", "User defined signal 1",
    "Segmentation fault", "User defined signal 2", "Broken pipe", "Alarm clock", "Terminated",
    "Stack fault", "Child exited", "Continued", "Stopped (signal)", "Stopped",
    "Stopped (tty input)", "Stopped (tty output)", "Urgent I/O condition",
    "CPU time limit exceeded", "File size limit exceeded", "Virtual timer expired",
    "Profiling timer expired", "Window changed", "I/O possible", "Power failure",
    "Bad system call"]

def description (signal : Nat) : String :=
  match firstDescriptions[signal - 1]? with
  | some description => description
  | none =>
      if signal < 34 then "Unknown signal " ++ toString signal
      else "Real-time signal " ++ toString (signal - 34)

def ofDigits? (text : Octets) : Option Nat :=
  if text.isEmpty || !text.all Char.isDigit then none
  else (some (Numeral.valueOf 10 text)).filter (· < count)

/-- The signal that a text names, by number or by name; `least` is the first one with a name. -/
def ofText? (least : Nat) (text : Octets) : Option Nat :=
  (ofDigits? text).or
    ((List.range count).find? fun signal =>
      least ≤ signal && (name signal).toList == text.map Char.toUpper)

end Signal

def statusOf : Death → Int
  | .exited code => code.toNat
  | .killed signal => 128 + signal

def Interpreter.converses (state : Interpreter) : Bool :=
  state.has "interactive" && state.level = 0

def conversationSignals : List Nat :=
  [2, 3, 15]

/-- What is done about a signal, as the traps are. One that talks to somebody goes on when it is
interrupted, and is not told to end. -/
def Interpreter.disposition (state : Interpreter) (signal : Nat) : Host.Disposition :=
  match state.traps.lookup signal with
  | none =>
      if !state.converses then .standard
      else if signal = 2 then .caught
      else if signal = 3 || signal = 15 then .ignored
      else .standard
  | some [] => .ignored
  | some _ => .caught

def isDeaf (signal : Nat) : Run Bool := do
  match (← get).deaf.lookup signal with
  | some deaf => return deaf
  | none =>
      let deaf := decide ((← ask (.disposition signal)) = .ignored)
      modify fun state => { state with deaf := (signal, deaf) :: state.deaf }
      return deaf

def applyTrap (signal : Nat) : Run Unit := do
  if signal != 0 then
    if !(← isDeaf signal) then
      ask (.dispose signal ((← get).disposition signal))

def ignoreForGood (signal : Nat) : Run Unit := do
  if !(← isDeaf signal) then
    ask (.dispose signal .ignored)
  modify fun state => { state with deaf := (signal, true) :: state.deaf }

def setTrap (signal : Nat) (action : Option Octets) : Run Unit := do
  modify fun state =>
    let others := state.traps.filter fun trap => trap.1 != signal
    { state with traps := (action.map fun action => (signal, action)).toList ++ others }
  applyTrap signal

def Interpreter.hasTraps (state : Interpreter) : Bool :=
  state.traps.any fun trap => !trap.2.isEmpty

def clearTraps : Run Unit := do
  let active := (← get).traps.filter fun trap => !trap.2.isEmpty
  modify fun state =>
    { state with traps := state.traps.filter (fun trap => trap.2.isEmpty), pending := [] }
  active.forM fun trap => applyTrap trap.1

def noticeSignals : Run Unit := do
  let arrived ← ask .signals
  modify fun state =>
    let known := state.pending.filter fun signal => !arrived.contains signal
    { state with pending := known ++ arrived }

/-- Takes note of the signals that have come, if any are caught. An interruption that nothing is
to be done about stops everything. -/
def checkSignals : Run Unit := do
  let state ← get
  if state.hasTraps || state.converses then
    noticeSignals
    let state ← get
    if state.pending.contains 2 && (state.traps.lookup 2).isNone then
      set { state with pending := state.pending.filter (· != 2), status := 130 }
      stop .interrupted

end PipelineShell.Script

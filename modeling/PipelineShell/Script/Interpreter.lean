import PipelineShell.Host.Call
import PipelineShell.Script.Tree
import PipelineShell.Text.Numeral

/-!
The interpreter of scripts while it runs: its variables and functions, what it has printed but not
written, and what it does next. It complains under the name of the script, with the line and the
builtin command that it is at.
-/

namespace PipelineShell.Script

/-- A variable. One without a value may still have marks. -/
structure Variable where
  value : Option Octets
  exported : Bool
  readOnly : Bool
deriving DecidableEq, Repr

/-- The operands of a script or of a function. -/
structure Parameters where
  words : List Octets
  optionIndex : Nat
  /-- How many letters of that operand have been taken; none of it has if there is nothing. -/
  optionOffset : Option Nat
deriving DecidableEq, Repr

def Parameters.ofWords (words : List Octets) : Parameters :=
  ⟨words, 1, none⟩

/-- A program that has been found along the search path. -/
structure KnownProgram where
  name : Octets
  place : Nat
  stale : Bool
deriving DecidableEq, Repr

/-- A function. -/
structure Definition where
  line : Nat
  body : Command

/-- Commands that are passed over until something is reached. -/
inductive Skip where
  | nothing
  | loops (count : Nat)
  | rounds (count : Nat)
  /-- The end of the function, or of the script; `given` tells that a status goes with it. -/
  | all (given : Bool)
deriving DecidableEq, Repr

/-- Why the interpreter stops what it is at. -/
inductive Leave where
  | error
  | exit
  | interrupted
  | finished
deriving DecidableEq, Repr

/-- A job: the processes that a command has been run by, with the deaths that are known. -/
structure Job where
  number : Nat
  processes : List (Pid × Option Death)
  waited : Bool
deriving DecidableEq, Repr

def Job.done (job : Job) : Bool :=
  job.processes.all fun process => process.2.isSome

/-- What stood behind a descriptor before it was redirected. -/
inductive Before where
  | closed
  | copy (fd : Fd)
deriving DecidableEq, Repr

abbrev LocalFrame := List (Octets × Option Variable)

/-- The state of an interpreter. -/
structure Interpreter where
  name : Octets
  commandName : Option Octets
  line : Nat
  nextLine : Nat
  parameters : Parameters
  status : Int
  substitutionStatus : Int
  savedStatus : Option Int
  options : List String
  /-- The names of the options that nothing has been said about. They count as set when they are
  shown. -/
  undecided : List String
  bindings : List (Octets × Variable)
  locals : List (LocalFrame × Option (List String))
  functions : List (Octets × Definition)
  aliases : List (Octets × Octets)
  programs : List KnownProgram
  /-- What is done about signals; signal zero is the end of the script. -/
  traps : List (Nat × Octets)
  deaf : List (Nat × Bool)
  pending : List Nat
  lastBackground : Option Pid
  jobs : List Job
  loopDepth : Nat
  functionDepth : Nat
  skip : Skip
  held : ByteArray
  lost : Bool
  documents : List (Nat × Word)
  nextDocument : Nat
  redirections : List (List (Fd × Before))
  sources : List Fd
  traceTo : Fd
  level : Nat
  root : Pid
  directory : Option Octets
  reason : Leave

abbrev Run := ExceptT Leave (StateT Interpreter (Routine Host.interface))

def ask (request : Host.Call) : Run request.Reply :=
  ExceptT.lift (StateT.lift (Host.call request))

def read {α : Type} (part : Interpreter → α) : Run α :=
  return part (← get)

/-! ### Output -/

def outputSize : Nat := 8192

def writeOutput (content : ByteArray) : Run Unit := do
  match ← ask (.emit Fd.output content) with
  | .ok () => return ()
  | .error _ => modify fun state => { state with lost := true }

def flush : Run Unit := do
  let held := (← get).held
  if held.size != 0 then
    modify fun state => { state with held := ByteArray.empty }
    writeOutput held

def print (octets : Octets) : Run Unit := do
  let content := Octets.toContent octets
  let held := (← get).held
  if held.size + content.size ≤ outputSize then
    modify fun state => { state with held := state.held ++ content }
  else
    flush
    if content.size < outputSize then
      modify fun state => { state with held := content }
    else writeOutput content

def dropOutput : Run Unit :=
  modify fun state => { state with held := ByteArray.empty, lost := false }

def writeTo (fd : Fd) (octets : Octets) : Run Unit := do
  let _ ← ask (.emit fd (Octets.toContent octets))

/-! ### Complaints -/

def warn (text : Octets) : Run Unit := do
  let state ← get
  let place := state.name ++ ": ".toList ++ Octets.ofNumber state.line ++ ": ".toList
  let command := match state.commandName with
    | none => []
    | some name => name ++ ": ".toList
  writeTo Fd.error (place ++ command ++ text ++ ['\n'])

def stop {α : Type} (reason : Leave) : Run α := do
  modify fun state => { state with reason }
  throw reason

def setStatus (status : Int) : Run Unit :=
  modify fun state => { state with status }

def failWith {α : Type} (reason : Leave) (status : Int) (text : Octets) : Run α := do
  setStatus status
  warn text
  flush
  stop reason

def fail {α : Type} (text : Octets) : Run α :=
  failWith .error 2 text

def caught {α : Type} (action : Run α) : Run (Except Leave α) :=
  ExceptT.lift action.run

def endurance : Nat := 1000000000000

def goRound {σ α : Type} (step : σ → Run (σ ⊕ α)) : Nat → σ → Run α
  | 0, _ => stop .error
  | rounds + 1, state => do
      match ← step state with
      | .inl state => goRound step rounds state
      | .inr value => return value

def loop {σ α : Type} (start : σ) (step : σ → Run (σ ⊕ α)) : Run α :=
  goRound step endurance start

/-! ### Options -/

def optionNames : List (String × Option Char) :=
  [("errexit", some 'e'), ("noglob", some 'f'), ("ignoreeof", some 'I'),
    ("interactive", some 'i'), ("monitor", some 'm'), ("noexec", some 'n'), ("stdin", some 's'),
    ("xtrace", some 'x'), ("verbose", some 'v'), ("vi", some 'V'), ("emacs", some 'E'),
    ("noclobber", some 'C'), ("allexport", some 'a'), ("notify", some 'b'),
    ("nounset", some 'u'), ("privileged", some 'p'), ("nolog", none), ("debug", none)]

def Interpreter.has (state : Interpreter) (option : String) : Bool :=
  state.options.contains option

def has (option : String) : Run Bool :=
  return (← get).has option

def setOption (name : String) (set : Bool) : Run Unit :=
  modify fun state =>
    let others := state.options.filter (· != name)
    let others := if name == "vi" && set then others.filter (· != "emacs")
      else if name == "emacs" && set then others.filter (· != "vi") else others
    { state with
      options := if set then name :: others else others
      undecided := state.undecided.filter (· != name) }

/-! ### Variables -/

def standardSeparators : Octets :=
  " \t\n".toList

def Interpreter.value? (state : Interpreter) (name : Octets) : Option Octets :=
  (state.bindings.lookup name).bind Variable.value

def putVariable (name : Octets) (changed : Variable) :
    List (Octets × Variable) → List (Octets × Variable)
  | [] => [(name, changed)]
  | (other, found) :: rest =>
      if other == name then (name, changed) :: rest
      else (other, found) :: putVariable name changed rest

def refuseReadOnly {α : Type} (name : Octets) : Run α :=
  fail (name ++ ": is read only".toList)

/-- The number that a text is, not negative and of 31 bits; blanks around it do not count. -/
def wholeNumber? (text : Octets) : Option Nat :=
  let trimmed := text.dropWhile Numeral.isSpace
  let unsigned := match trimmed with
    | '+' :: rest => rest
    | rest => rest
  let digits := unsigned.takeWhile Char.isDigit
  let value := Numeral.valueOf 10 digits
  let rest := (unsigned.drop digits.length).dropWhile Numeral.isSpace
  if digits.isEmpty || !rest.isEmpty || 2147483647 < value then
    if trimmed.take 1 == ['-'] && !trimmed.tail.isEmpty && trimmed.tail.all (· == '0') then some 0
    else none
  else some value

def refuseNumber {α : Type} (text : Octets) : Run α :=
  fail ("Illegal number: ".toList ++ text)

def wholeNumber (text : Octets) : Run Nat :=
  match wholeNumber? text with
  | some value => return value
  | none => refuseNumber text

def beforeAssignment (name : Octets) (value : Octets) : Run Unit := do
  if name == "PATH".toList then
    modify fun state => { state with programs := [] }
  if name == "OPTIND".toList then
    let index ← wholeNumber value
    modify fun state => { state with
      parameters := ⟨state.parameters.words, if index = 0 then 1 else index, none⟩ }

def assign (name value : Octets) (exported : Bool) : Run Unit := do
  let state ← get
  let before := (state.bindings.lookup name).getD ⟨none, false, false⟩
  if before.readOnly then refuseReadOnly name
  else
    beforeAssignment name value
    let exported := exported || before.exported || state.has "allexport"
    let changed : Variable := ⟨some value, exported, before.readOnly⟩
    modify fun state => { state with bindings := putVariable name changed state.bindings }

def checkName (name : Octets) : Run Unit := do
  if !isName name then
    fail (name ++ ": bad variable name".toList)

def mark (name : Octets) (exported readOnly : Bool) : Run Unit :=
  modify fun state =>
    let before := (state.bindings.lookup name).getD ⟨none, false, false⟩
    let changed : Variable :=
      ⟨before.value, before.exported || exported, before.readOnly || readOnly⟩
    { state with bindings := putVariable name changed state.bindings }

def lastingVariables : List String :=
  ["IFS", "MAIL", "MAILPATH", "OPTIND", "PATH", "PS1", "PS2", "PS4"]

def unset (name : Octets) : Run Unit := do
  checkName name
  let state ← get
  match state.bindings.lookup name with
  | none => return ()
  | some found =>
      if found.readOnly then refuseReadOnly name
      else if lastingVariables.contains (String.ofList name) then
        let bindings := putVariable name { found with value := none } state.bindings
        let programs := if name == "PATH".toList then [] else state.programs
        set { state with bindings, programs }
      else set { state with bindings := state.bindings.filter fun entry => entry.1 != name }

def Interpreter.separators (state : Interpreter) : Octets :=
  (state.value? "IFS".toList).getD standardSeparators

def rowOf (rows : Nat) (name : Octets) : Nat :=
  let first := (name.head?.map Char.toNat).getD 0
  (name.foldl (fun sum character => sum + character.toNat) (first * 16)) % rows

def inRows {α : Type} (rows : Nat) (nameOf : α → Octets) (entries : List α) : List α :=
  (List.range rows).flatMap fun row => entries.filter fun entry => rowOf rows (nameOf entry) = row

def variableRows : Nat := 39

def Interpreter.exports (state : Interpreter) : Host.Environment :=
  inRows variableRows Prod.fst (state.bindings.filterMap fun (name, found) =>
    if found.exported then found.value.map fun value => (name, value) else none)

def standardPath : Octets :=
  "/usr/local/sbin:/usr/local/bin:/usr/sbin:/usr/bin:/sbin:/bin".toList

def Interpreter.searchPath (state : Interpreter) : Octets :=
  (state.value? "PATH".toList).getD []

/-! ### Local variables -/

def openLocals : Run Unit :=
  modify fun state => { state with locals := ([], none) :: state.locals }

def restoreVariable (state : Interpreter) : Octets × Option Variable → Interpreter
  | (name, none) =>
      { state with bindings := state.bindings.filter fun found => found.1 != name }
  | (name, some before) =>
      let bindings := putVariable name before state.bindings
      if name == "PATH".toList then { state with bindings, programs := [] }
      else if name == "OPTIND".toList then
        let index := max 1 ((before.value.bind wholeNumber?).getD 1)
        { state with bindings, parameters := ⟨state.parameters.words, index, none⟩ }
      else { state with bindings }

/-- Gives variables back what they were. One that was not there before is taken away, which fails if
its name is none. -/
def restoreVariables (frame : LocalFrame) : Run Unit :=
  frame.forM fun (name, before) => do
    if before.isNone then
      checkName name
    modify fun state => restoreVariable state (name, before)

/-- Closes frames down to a number of them; the variables and options become what they were. -/
def closeLocals (count : Nat) : Run Unit := do
  let gone := (← get).locals.length - count
  (List.range gone).forM fun _ => do
    let state ← get
    match state.locals with
    | [] => return ()
    | (frame, options) :: rest =>
        set { state with locals := rest, options := options.getD state.options }
        restoreVariables frame

def makeLocal (name : Octets) : Run Unit :=
  modify fun state =>
    match state.locals with
    | [] => state
    | (frame, options) :: rest =>
        { state with locals := ((name, state.bindings.lookup name) :: frame, options) :: rest }

def makeOptionsLocal : Run Unit :=
  modify fun state =>
    match state.locals with
    | [] => state
    | (frame, options) :: rest =>
        { state with locals := (frame, options.or (some state.options)) :: rest }

end PipelineShell.Script

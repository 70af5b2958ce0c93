import PipelineShell.Script.Evaluation

/-!
The program that carries out scripts: from its arguments, which name a script or hold one, to its
exit code.
-/

namespace PipelineShell.Script

def Interpreter.initial (name : Octets) (root : Pid) : Interpreter where
  name := name
  commandName := none
  line := 0
  nextLine := 1
  parameters := .ofWords []
  status := 0
  substitutionStatus := 0
  savedStatus := none
  options := []
  undecided := optionNames.map Prod.fst
  bindings := []
  locals := []
  functions := []
  aliases := []
  programs := []
  traps := []
  deaf := []
  pending := []
  lastBackground := none
  jobs := []
  loopDepth := 0
  functionDepth := 0
  skip := .nothing
  held := ByteArray.empty
  lost := false
  documents := []
  nextDocument := 0
  redirections := []
  sources := []
  traceTo := Fd.error
  level := 0
  root := root
  directory := none
  reason := .finished

/-! ### Variables at the start -/

def firstVariables : List (String × Octets) :=
  [("IFS", standardSeparators), ("OPTIND", ['1']), ("PATH", standardPath), ("PS1", "# ".toList),
    ("PS2", "> ".toList), ("PS4", "+ ".toList)]

def fixedVariables : List String :=
  ["IFS", "OPTIND"]

def isHere (path : Octets) : Run Bool := do
  if path.head? == some '/' then Condition.isSame path ['.'] else return false

def importVariables : Run Unit := do
  let put := fun (name value : Octets) (exported : Bool) =>
    modify fun (state : Interpreter) =>
      { state with bindings := putVariable name ⟨some value, exported, false⟩ state.bindings }
  firstVariables.forM fun (name, value) => put name.toList value false
  (← ask .ownVariables).forM fun (name, value) => do
    if isName name then
      put name value true
  firstVariables.forM fun (name, value) => do
    if fixedVariables.contains name then
      let exported := ((← get).bindings.lookup name.toList).any Variable.exported
      put name.toList value exported
  put "PPID".toList (Octets.ofNumber (← ask .parent).number) false
  match (← get).value? "PWD".toList with
  | some path => setDirectory (if ← isHere path then some path else none)
  | none => setDirectory none

/-! ### Arguments -/

/-- What the arguments say. -/
structure Arguments where
  hasText : Bool
  first : Bool
  operands : List Octets

def readLetters (isSet : Bool) (arguments : Arguments) : Octets → Run Arguments
  | [] => return arguments
  | 'c' :: letters => readLetters isSet { arguments with hasText := true } letters
  | 'l' :: letters => readLetters isSet { arguments with first := true } letters
  | letter :: letters => do
      let operands ← setLetters isSet arguments.operands [letter]
      readLetters isSet { arguments with operands } letters

/-- Reads the options in front of the operands. `fuel` bounds the number of words. -/
def readArguments : Nat → Arguments → Run Arguments
  | 0, arguments => return arguments
  | fuel + 1, arguments => do
      match arguments.operands with
      | ['-'] :: operands => return { arguments with operands }
      | ['-', '-'] :: operands => return { arguments with operands }
      | ('-' :: letters) :: operands =>
          readArguments fuel (← readLetters true { arguments with operands } letters)
      | ('+' :: letters) :: operands =>
          readArguments fuel (← readLetters false { arguments with operands } letters)
      | _ => return arguments

/-- Decides about the options that nothing has been said about. Jobs are controlled if there is
somebody to talk to. -/
def decideOptions : Run Unit := do
  let state ← get
  if state.undecided.contains "monitor" then
    setOption "monitor" (state.has "interactive")
  modify fun state => { state with undecided := [] }

def beginScript (words : List Octets) : Run Unit := do
  match words with
  | [] => setParameters []
  | name :: rest =>
      modify fun state => { state with name }
      setParameters rest

/-! ### Running -/

def patience : Nat := 50

def prompt (perform : Perform) : Prompter := fun first => do
  writeTo Fd.error (← shownValue perform (if first then "PS1" else "PS2"))

def Source.passEnd (source : Source) : Source :=
  { source with reader := { source.reader with ended := false, pushed := false } }

def endSkip : Run Unit :=
  modify fun state => { state with
    skip := match state.skip with
      | .all _ => .nothing
      | skip => skip }

/-- Carries out the commands of a descriptor from a line on, in conversation if there is somebody
to talk to. -/
def performDescriptor (perform : Perform) (fd : Fd) (line : Nat) : Run Unit := do
  let start := Source.ofDescriptor fd
  loop (0, { start with reader := { start.reader with line } }) fun (ends, source) => do
    let converses ← has "interactive"
    let (command, atEnd, source) ← source.next (if converses then some (prompt perform) else none)
    match command with
    | some command =>
        let _ ← perform command ⟨false, false⟩
        return if (← get).skip != .nothing then .inr () else .inl (0, source)
    | none =>
        if !atEnd then return .inl (0, source)
        else if patience ≤ ends then return .inr ()
        else if ← has "ignoreeof" then
          writeTo Fd.error "\nUse \"exit\" to leave shell.\n".toList
          return .inl (ends + 1, source.passEnd)
        else
          if ← has "interactive" then
            writeTo Fd.error ['\n']
          return .inr ()
  endSkip

def performProfile (perform : Perform) (name : Octets) : Run Unit := do
  let path ← expandQuoted perform name
  match ← ask (.openFile path .reading) with
  | .error _ => return ()
  | .ok fd =>
      let fd ← hideDescriptor fd
      modify fun state => { state with sources := fd :: state.sources }
      let _ ← performSource perform (.ofDescriptor fd) false false
      endSkip
      closeSources ((← get).sources.length - 1)

/-- Does something; the value tells whether an error has stopped it and somebody is there to go on
with. `sources` is how many scripts stay open then. -/
def survives (sources : Nat) (action : Run Unit) : Run Bool := do
  match ← caught action with
  | .ok () => return false
  | .error reason =>
      if (reason = .error || reason = .interrupted) && (← get).converses then
        giveUpAll
        let _ ← caught (closeLocals 0)
        closeSources sources
        modify fun state => { state with commandName := none, functionDepth := 0 }
        if reason = .interrupted then
          writeTo Fd.error ['\n']
        return true
      else throw reason

def performProfiles (perform : Perform) (sources : Nat) (first : Bool) : Run Unit := do
  if first then
    let _ ← survives sources (performProfile perform "/etc/profile".toList)
    let _ ← survives sources (performProfile perform "$HOME/.profile".toList)
  if ← has "interactive" then
    match (← get).value? "ENV".toList with
    | some (character :: name) =>
        let _ ← survives sources (performProfile perform (character :: name))
    | _ => pure ()

def performScript (perform : Perform) (sources : Nat) (fd : Fd) (script : Run Unit) : Run Unit := do
  if ← survives sources script then
    loop () fun () => do
      let line ← read Interpreter.nextLine
      if ← survives sources (performDescriptor perform fd line) then return .inl ()
      else return .inr ()

def performArguments (name : Octets) (words : List Octets) : Run Unit := do
  importVariables
  modify fun state => { state with name }
  let arguments ← readArguments (words.length + 1) ⟨false, name.head? == some '-', words⟩
  match arguments.hasText, arguments.operands with
  | true, [] => fail "-c requires an argument".toList
  | false, [] => setOption "stdin" true
  | _, _ => pure ()
  decideOptions
  let fromInput ← has "stdin"
  match arguments.hasText, arguments.operands with
  | true, text :: rest =>
      beginScript rest
      applyOptions
      performProfiles perform 0 arguments.first
      performScript perform 0 Fd.input do
        let _ ← performText perform text false (!fromInput)
        if fromInput then
          performDescriptor perform Fd.input 1
  | _, operands =>
      match fromInput, operands with
      | false, path :: _ =>
          let fd ← openScript path
          beginScript operands
          applyOptions
          performProfiles perform 1 arguments.first
          performScript perform 1 fd (performDescriptor perform fd 1)
      | _, operands =>
          setParameters operands
          applyOptions
          performProfiles perform 0 arguments.first
          performScript perform 0 Fd.input (performDescriptor perform Fd.input 1)

def firstName : Octets :=
  "sh".toList

def work (arguments : List Octets) : Routine Host.interface Int := do
  let root ← Host.call .self
  let script : Run Int := do
    match ← caught (performArguments (arguments.headD []) arguments.tail) with
    | .ok () => pure ()
    | .error _ => giveUpAll
    concludeScript perform
  let (result, _) ← script.run.run (.initial firstName root)
  return match result with
    | .ok status => status
    | .error _ => 2

end PipelineShell.Script

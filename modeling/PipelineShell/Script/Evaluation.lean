import PipelineShell.Script.Condition
import PipelineShell.Script.Grammar
import PipelineShell.Script.Limiting
import PipelineShell.Script.Lookup
import PipelineShell.Script.Printing
import PipelineShell.Script.Processes
import PipelineShell.Script.Reading

/-!
What commands do. A command is carried out in a mode that tells whether its status is asked for,
so that a failure does not end the script, and whether anything comes behind it. A command that is
the last one does not come back.
-/

namespace PipelineShell.Script

/-- How a command is carried out. -/
structure Mode where
  tested : Bool
  last : Bool
deriving DecidableEq, Repr

def Mode.inner (mode : Mode) : Mode :=
  { mode with last := false }

def Mode.condition : Mode :=
  ⟨true, false⟩

/-- How to carry out a command. The value is its status. -/
abbrev Perform := Command → Mode → Run Int

def performAny (perform : Perform) (command : Option Command) (mode : Mode) : Run Int :=
  match command with
  | some command => perform command mode
  | none => if mode.last then stop .finished else return 0

/-! ### Texts -/

/-- A text from which commands are read. -/
structure Source where
  reader : Reader
  fd : Option Fd
  unshown : Octets

def sourceSize : Nat := 8192

def Source.ofText (text : Octets) : Source :=
  ⟨.ofText text true [] 0, none, []⟩

def Source.ofDescriptor (fd : Fd) : Source :=
  ⟨.ofText [] false [] 0, some fd, []⟩

def Source.more (source : Source) : Run Source := do
  let ended : Source := { source with reader := { source.reader with ended := true } }
  match source.fd with
  | none => return ended
  | some fd =>
      loop () fun () => do
        match ← ask (.read fd sourceSize) with
        | .error .interrupted =>
            noticeSignals
            return .inl ()
        | .error _ => return .inr ended
        | .ok content =>
            if content.size = 0 then return .inr ended
            else
              let more := (Octets.ofContent content).filter (· != Char.ofNat 0)
              let reader := { source.reader with text := source.reader.text ++ more }
              return .inr { source with reader, unshown := source.unshown ++ more }

def splitLines : Nat → Octets → List Octets × Octets
  | 0, text => ([], text)
  | count + 1, text =>
      let line := text.takeWhile (· != '\n')
      let (more, rest) := splitLines count (text.drop (line.length + 1))
      (text.take (line.length + 1) :: more, rest)

/-- Shows lines that have been read, if lines are to be shown, each followed by the prompt for the
next one; `prompts` is how many lines have been prompted for. -/
def showLines (prompt : Run Unit) (verbose : Bool) : Nat → List Octets → Run Unit
  | 0, [] => return ()
  | 0, line :: rest => do
      if verbose then
        writeTo Fd.error line
      showLines prompt verbose 0 rest
  | prompts + 1, lines => do
      if verbose then
        writeTo Fd.error (lines.headD [])
      prompt
      showLines prompt verbose prompts lines.tail

def Source.show (source : Source) (prompt : Run Unit) (prompts line : Nat) (atEnd : Bool) :
    Run Source := do
  let count := line - source.reader.line
  let (shown, rest) := splitLines count source.unshown
  let (shown, rest) := if atEnd then (shown ++ [rest], []) else (shown, rest)
  showLines prompt (← has "verbose") prompts shown
  return { source with unshown := rest }

abbrev Prompter := Bool → Run Unit

/-- Reads the next command, and prompts for it if there is a way to; the flag tells whether the
text is at its end. -/
def Source.next (source : Source) (prompter : Option Prompter) :
    Run (Option Command × Bool × Source) := do
  match prompter with
  | some prompt => prompt true
  | none => pure ()
  let later := match prompter with
    | some prompt => prompt false
    | none => pure ()
  loop source fun source => do
    let state ← get
    let reader := { source.reader with
      aliases := state.aliases, documents := [], nextDocument := state.nextDocument
      prompting := prompter.isSome, due := false, prompts := 0 }
    match parseLine.run reader with
    | .ok (command, reader) =>
        let shown ← source.show later reader.prompts reader.line reader.atEnd
        modify fun state => { state with
          documents := reader.documents ++ state.documents
          nextDocument := reader.nextDocument
          nextLine := reader.line }
        return .inr (command, reader.atEnd, { shown with reader })
    | .error .unfinished => return .inl (← source.more)
    | .error (.fault line prompts text) =>
        let _ ← source.show later prompts (line + 1) false
        modify fun state => { state with line, nextLine := line }
        fail text

/-- Carries out the commands of a source; with `last`, none comes behind the last one. -/
def performSource (perform : Perform) (source : Source) (tested last : Bool) : Run Int :=
  loop ((0 : Int), source) fun (status, source) => do
    let (command, atEnd, source) ← source.next none
    match command with
    | none => return if atEnd then .inr status else .inl (status, source)
    | some command =>
        let status ← perform command ⟨tested, last && atEnd⟩
        return if (← get).skip != .nothing then .inr status else .inl (status, source)

def performText (perform : Perform) (text : Octets) (tested last : Bool) : Run Int :=
  performSource perform (.ofText text) tested last

/-! ### Traps and the end of scripts -/

/-- Carries out the trap of a signal; the value tells whether traps go on. -/
def performTrap (perform : Perform) (status : Int) (signal : Nat) : Run Unit := do
  match (← get).traps.lookup signal with
  | none => return ()
  | some action =>
      let nextLine := (← get).nextLine
      let _ ← performText perform action false false
      modify fun state => { state with nextLine }
      if (← get).skip != .all true then
        setStatus status

def performTraps (perform : Perform) : Run Unit := do
  checkSignals
  let state ← get
  if !state.pending.isEmpty then
    let before := state.savedStatus
    let status := before.getD state.status
    set { state with savedStatus := some status }
    let arrived := (List.range Signal.count).filter state.pending.contains
    modify fun state => { state with pending := [] }
    arrived.forM fun signal => do
      if (← get).skip != .nothing then
        modify fun state => { state with pending := state.pending ++ [signal] }
      else performTrap perform status signal
    modify fun state => { state with savedStatus := before }

def giveUpAll : Run Unit := do
  modify fun state =>
    let status := match state.savedStatus with
      | some saved =>
          if state.reason = .exit || state.skip = .all false then saved else state.status
      | none => state.status
    { state with status, savedStatus := none, skip := .nothing, loopDepth := 0 }
  endRedirections 0

/-- Ends the script: the trap for its end is carried out. The value is the exit status. -/
def concludeScript (perform : Perform) : Run Int := do
  let state ← get
  modify fun state => { state with savedStatus := some state.status }
  match state.traps.lookup 0 with
  | none => pure ()
  | some action =>
      modify fun state =>
        { state with traps := state.traps.filter (fun trap => trap.1 != 0), skip := .nothing }
      match ← caught (performText perform action false false) with
      | .ok _ => modify fun state => { state with skip := .all false }
      | .error _ => pure ()
  giveUpAll
  flush
  return (← get).status

def endProcess (perform : Perform) (action : Run Int) : Run Unit := do
  match ← caught action with
  | .ok _ => pure ()
  | .error _ => giveUpAll
  let status ← concludeScript perform
  ask (.die (.ofExitCode status))

def leave {α : Type} : Run α :=
  stop .finished

/-! ### Expansion -/

def plug (source target : Fd) : Run Unit := do
  if source = target then
    let _ ← ask (.system (.keepOnExecute target))
  else
    let _ ← ask (.system (.duplicateOnto source target))
    ask (.system (.close source))

def readAll (fd : Fd) : Run ByteArray :=
  loop ByteArray.empty fun before => do
    match ← ask (.read fd 65536) with
    | .error .interrupted =>
        noticeSignals
        return .inl before
    | .error _ => return .inr before
    | .ok content => return if content.size = 0 then .inr before else .inl (before ++ content)

def substitute (perform : Perform) : Option Command → Run Octets
  | none => return []
  | some command => do
      let (reading, writing) ← makePipe
      let job ← addJob
      let pid ← startChild .foreground do
        ask (.system (.close reading))
        plug writing Fd.output
        endProcess perform (perform command ⟨false, true⟩)
      addProcess job pid
      ask (.system (.close writing))
      let content ← readAll reading
      ask (.system (.close reading))
      let status ← finishJob job
      modify fun state => { state with substitutionStatus := status }
      let printed := (Octets.ofContent content).filter (· != Char.ofNat 0)
      return (printed.reverse.dropWhile (· == '\n')).reverse

def expander (perform : Perform) : Expander :=
  ⟨substitute perform⟩

def expandQuoted (perform : Perform) (text : Octets) : Run Octets := do
  let state ← get
  match parseText.run (.ofText text true state.aliases state.nextDocument) with
  | .error (.fault _ _ complaint) =>
      warn complaint
      setStatus 2
      return text
  | .error .unfinished => return text
  | .ok (word, _) =>
      match ← caught (expandText (expander perform) .document word) with
      | .ok shown => return shown
      | .error .error => return text
      | .error reason => throw reason

def shownValue (perform : Perform) (name : String) : Run Octets := do
  expandQuoted perform (((← get).value? name.toList).getD [])

def trace (perform : Perform) (words : List Octets) : Run Unit := do
  if ← has "xtrace" then
    let front ← shownValue perform "PS4"
    writeTo (← get).traceTo (front ++ (words.intersperse [' ']).flatten ++ ['\n'])

/-! ### Builtins -/

def skipStatus (skip : Nat → Skip) (words : List Octets) : Run Int := do
  let count ← match words with
    | [] => pure 1
    | word :: _ => do
        let count ← wholeNumber word
        if count = 0 then refuseNumber word else pure count
  let count := min count (← get).loopDepth
  if count != 0 then
    modify fun state => { state with skip := skip count }
  return 0

def returnStatus (words : List Octets) : Run Int := do
  let (status, given) ← match words with
    | [] => pure ((← get).status, false)
    | word :: _ => do pure (((← wholeNumber word : Nat) : Int), true)
  modify fun state => { state with skip := .all given }
  return status

def exitStatus (words : List Octets) : Run Int := do
  match words with
  | [] => stop .exit
  | word :: _ =>
      let status ← wholeNumber word
      modify fun state => { state with savedStatus := some status }
      stop .exit

def findScript (name : Octets) : Run Octets := do
  if name.contains '/' then return name
  else
    let searchPath := (← get).searchPath
    let found ← (candidates searchPath name).filterM fun candidate => do
      if candidate.holding = .builtins then return false
      else Condition.isOfKind .regular candidate.path true
    match found with
    | candidate :: _ => return candidate.path
    | [] => fail (name ++ ": not found".toList)

def openScript (path : Octets) : Run Fd := do
  match ← ask (.openFile path .reading) with
  | .error errno => fail (unreadable path errno)
  | .ok fd =>
      let fd ← hideDescriptor fd
      modify fun state => { state with sources := fd :: state.sources }
      return fd

def performOpened (perform : Perform) (fd : Fd) : Run Int := do
  let status ← performSource perform (.ofDescriptor fd) false false
  modify fun state => { state with
    skip := match state.skip with
      | .all _ => .nothing
      | skip => skip }
  closeSources ((← get).sources.length - 1)
  return status

def loader (perform : Perform) : Load := fun path => do
  let nextLine := (← get).nextLine
  let _ ← performOpened perform (← openScript path)
  modify fun state => { state with nextLine }

def sourceStatus (perform : Perform) (words : List Octets) : Run Int := do
  match ← takeNoOptions words with
  | [] => return 0
  | name :: _ =>
      let path ← findScript name
      let fd ← openScript path
      modify fun state => { state with commandName := some path }
      let status ← performOpened perform fd
      setStatus status
      return status

def evalStatus (perform : Perform) (tested : Bool) (words : List Octets) : Run Int :=
  if words.isEmpty then return 0
  else performText perform (words.intersperse [' ']).flatten tested false

def execStatus (words : List Octets) : Run Int := do
  if words.isEmpty then return 0
  else
    setOption "interactive" false
    setOption "monitor" false
    applyOptions
    becomeNamed words

def timesStatus : Run Int := do
  print "0m0.000000s 0m0.000000s\n0m0.000000s 0m0.000000s\n".toList
  return 0

def builtinStatus (perform : Perform) (tested : Bool) (name : Octets) (words : List Octets) :
    Run Int :=
  match String.ofList name with
  | "." => sourceStatus perform words
  | ":" => return 0
  | "[" => testStatus name words
  | "alias" => aliasStatus words
  | "bg" => moveStatus words
  | "break" => skipStatus .loops words
  | "cd" => cdStatus words
  | "chdir" => cdStatus words
  | "command" => commandStatus (loader perform) words
  | "continue" => skipStatus .rounds words
  | "echo" => echoStatus words
  | "eval" => evalStatus perform tested words
  | "exec" => execStatus words
  | "exit" => exitStatus words
  | "export" => declareStatus name false words
  | "false" => return 1
  | "fg" => moveStatus words
  | "getopts" => getoptsStatus words
  | "hash" => hashStatus (loader perform) words
  | "jobs" => jobsStatus words
  | "kill" => killStatus words
  | "local" => localStatus words
  | "printf" => do printfStatus (← takeNoOptions words)
  | "pwd" => pwdStatus words
  | "read" => readStatus words
  | "readonly" => declareStatus name true words
  | "return" => returnStatus words
  | "set" => setStatusOf words
  | "shift" => shiftStatus words
  | "test" => testStatus name words
  | "times" => timesStatus
  | "trap" => trapStatus words
  | "true" => return 0
  | "type" => typeStatus (loader perform) words
  | "ulimit" => limitStatus words
  | "umask" => umaskStatus words
  | "unalias" => unaliasStatus words
  | "unset" => unsetStatus words
  | "wait" => waitStatus words
  | _ => return 127

def lostStatus (status : Int) : Int :=
  if status % 2 = 0 then status + 1 else status

/-- Carries out a builtin; the value is the reason if it has been stopped. -/
def performBuiltin (name : Option Octets) (action : Run Int) : Run (Option Leave) := do
  let before := (← get).commandName
  modify fun state => { state with commandName := name }
  let result ← caught do
    let status ← action
    flush
    if (← get).lost then
      warn (name.getD [] ++ ": I/O error".toList)
      setStatus (lostStatus status)
    else setStatus status
  dropOutput
  modify fun state => { state with commandName := before }
  match result with
  | .ok () => return none
  | .error reason => return some reason

/-! ### Functions -/

def greatestDepth : Nat := 1000

def performFunction (perform : Perform) (definition : Definition) (words : List Octets)
    (mode : Mode) : Run Unit := do
  let before ← get
  modify fun state => { state with functionDepth := state.functionDepth + 1 }
  if greatestDepth ≤ before.functionDepth then
    fail ("Maximum function recursion depth (".toList ++ Octets.ofNumber greatestDepth
      ++ ") reached".toList)
  else
    modify fun state => { state with parameters := .ofWords words, loopDepth := 0 }
    let result ← caught (perform definition.body mode.inner)
    modify fun state => { state with
      parameters := before.parameters
      loopDepth := before.loopDepth
      functionDepth := state.functionDepth - 1
      skip := match state.skip with
        | .all _ => .nothing
        | skip => skip }
    match result with
    | .ok _ => return ()
    | .error reason => throw reason

/-! ### Simple commands -/

/-- The words of a command, as far as they have been looked at. -/
structure Words where
  front : List Octets
  arguments : List Octets
  rest : List Word

def Words.filled (perform : Perform) (words : Words) : Run Words :=
  loop words fun words => do
    match words.arguments, words.rest with
    | [], word :: rest =>
        let arguments ← expandOperand (expander perform) word
        return .inl { words with arguments, rest }
    | _, _ => return .inr words

/-- What is known of a simple command before its redirections. -/
structure Call where
  arguments : List Octets
  special : Option Bool
  isolates : Bool
  withFunctions : Bool
  given : Option Octets
deriving DecidableEq, Repr

/-- The words behind the options of `command`, and the search path they ask for; nothing if they
ask for something else or no words are left. `fuel` bounds the number of words. -/
def passOptions (perform : Perform) :
    Nat → Option Octets → Words → Run (Option (Option Octets × Words) × Words)
  | 0, _, words => return (none, words)
  | fuel + 1, given, words => do
      let words ← words.filled perform
      match words.arguments with
      | [] => return (none, words)
      | word :: rest =>
          let passed : Words := { words with front := words.front ++ [word], arguments := rest }
          match word with
          | ['-', '-'] =>
              let filled ← passed.filled perform
              if filled.arguments.isEmpty then return (none, filled)
              else return (some (given, filled), filled)
          | '-' :: letter :: letters =>
              if (letter :: letters).all (· == 'p') then
                passOptions perform fuel (some standardPath) passed
              else return (none, words)
          | _ => return (some (given, words), words)

def expandRest (perform : Perform) (assigns : Bool) (words : List Word) : Run (List Octets) := do
  let expanded ← words.mapM fun word => do
    match if assigns then assignment? word else none with
    | some (name, value) =>
        let text ← expandText (expander perform) .value value
        return [name ++ '=' :: text]
    | none => expandOperand (expander perform) word
  return expanded.flatten

/-- Finds out what is called. `fuel` bounds the number of words. -/
def resolve (perform : Perform) : Nat → Call → Words → Run Call
  | 0, call, _ => return call
  | fuel + 1, call, words => do
      let name := words.arguments.headD []
      let functions := (← get).functions
      let isFunction := call.withFunctions && (functions.lookup name).isSome
      let finish := fun (call : Call) (assigns : Bool) (words : Words) => do
        let rest ← expandRest perform assigns words.rest
        return { call with arguments := words.front ++ words.arguments ++ rest }
      match if isFunction then none else builtin? name with
      | none => finish { call with isolates := true } false words
      | some builtin =>
          let call := if call.special.isSome then { call with isolates := true }
            else { call with special := some builtin.special, isolates := !builtin.special }
          if name == "command".toList then
            let passed : Words :=
              { words with front := [name], arguments := words.arguments.tail }
            match ← passOptions perform (words.rest.length + words.arguments.length + 1)
              call.given passed with
            | (some (given, behind), _) =>
                resolve perform fuel { call with given, withFunctions := false }
                  { behind with front := [] }
            | (none, all) => finish call false all
          else finish call builtin.assigns words

def resolveWords (perform : Perform) (words : List Word) : Run Call := do
  let call : Call := ⟨[], none, false, true, none⟩
  let first ← Words.filled perform ⟨[], [], words⟩
  if first.arguments.isEmpty then return call
  else resolve perform (words.length + first.arguments.length + 1) call first

/-- Carries out assignments in front of a command; the value shows them. -/
def performAssignments (perform : Perform) (isolates exported : Bool) (assignments : List Word) :
    Run (List Octets) :=
  assignments.mapM fun word => do
    match assignment? word with
    | none => return []
    | some (name, value) =>
        let text ← expandText (expander perform) .value value
        let shown := name ++ '=' :: text
        if isolates then localize true shown else assign name text exported
        return shown

/-- Does what a call asks for, once it has been found; the value is the status. -/
def performFound (perform : Perform) (call : Call) (mode : Mode) : Found → Run Int
  | .missing errno => do
      warn (call.arguments.headD [] ++ ": ".toList ++ (programFault errno).toList)
      setStatus 127
      if call.special = some true then stop .error else return 127
  | .program path others => do
      if mode.last && !(← get).hasTraps then
        becomeFound call.arguments (.program path others)
      else
        let job ← addJob
        let pid ← startChild .foreground do
          endProcess perform (becomeFound call.arguments (.program path others))
        addProcess job pid
        finishJob job
  | .builtin _ => do
      let name := call.arguments.head?
      let action := match call.arguments with
        | [] => read Interpreter.substitutionStatus
        | name :: words => builtinStatus perform mode.tested name words
      match ← performBuiltin name action with
      | none => pure ()
      | some .error => if call.special = some true then throw .error else pure ()
      | some reason => throw reason
      return (← get).status
  | .function definition => do
      performFunction perform definition call.arguments.tail mode
      return (← get).status

def performCall (perform : Perform) (call : Call) (mode : Mode) : Run Int := do
  match call.arguments with
  | [] => performFound perform call mode (.builtin ⟨false, true, false⟩)
  | name :: _ =>
      let found ← findCommand (loader perform) call.withFunctions call.given name
      performFound perform call mode found

def performSimple (perform : Perform) (line : Nat) (assignments words : List Word)
    (redirections : List Redirection) (mode : Mode) : Run Int := do
  modify fun state => { state with line, substitutionStatus := 0 }
  let before ← get
  let call ← resolveWords perform words
  if call.isolates then
    openLocals
  modify fun state => { state with traceTo := Fd.error }
  let targets ← targetsOf (expander perform) redirections
  let failure ← if targets.isEmpty then pure 0
    else redirectSafely (expander perform) targets
  let isExec := call.arguments.head? == some "exec".toList
  let status ← if failure != 0 then do
      setStatus failure
      if call.special = some true then stop .error else pure failure
    else do
      if !targets.isEmpty then
        modify fun state => match (state.redirections.headD []).lookup Fd.error with
          | some (.copy copy) => { state with traceTo := copy }
          | _ => state
      let exported := isExec && 1 < call.arguments.length
      let shown ← performAssignments perform call.isolates exported assignments
      trace perform (shown ++ call.arguments)
      performCall perform call mode
  if !targets.isEmpty then
    endRedirection isExec
  endRedirections before.redirections.length
  closeSources before.sources.length
  closeLocals before.locals.length
  modify fun state => { state with nextLine := before.nextLine }
  return status

/-! ### Compound commands -/

/-- Counts down what is skipped at the end of a loop; the value is what is still skipped. -/
def skipRound : Run Skip := do
  let skip := (← get).skip
  let counted := fun (count : Nat) (again : Nat → Skip) (still : Skip) => do
    if count ≤ 1 then
      modify fun state => { state with skip := .nothing }
      return still
    else
      modify fun state => { state with skip := again (count - 1) }
      return .loops (count - 1)
  match skip with
  | .loops count => counted count .loops (.loops 1)
  | .rounds count => counted count .rounds (.rounds 1)
  | skip => return skip

def endsLoop : Skip → Bool
  | .nothing => false
  | .rounds _ => false
  | _ => true

def countLoop (change : Nat → Nat) : Run Unit :=
  modify fun state => { state with loopDepth := change state.loopDepth }

def performLoop (perform : Perform) (inverted : Bool) (test body : Option Command)
    (mode : Mode) : Run Int := do
  countLoop (· + 1)
  let status ← loop (0 : Int) fun status => do
    let _ ← ask .self
    let tested ← performAny perform test .condition
    let skip ← skipRound
    let status := if skip = .all true then tested else status
    if skip != .nothing then
      return if endsLoop skip then .inr status else .inl status
    else if (tested = 0) = inverted then return .inr status
    else
      let status ← performAny perform body mode.inner
      return if endsLoop (← skipRound) then .inr status else .inl status
  countLoop (· - 1)
  return status

def performEach (perform : Perform) (name : Octets) (body : Option Command) (mode : Mode)
    (status : Int) : List Octets → Run Int
  | [] => return status
  | value :: rest => do
      assign name value false
      let status ← performAny perform body mode.inner
      if endsLoop (← skipRound) then return status
      else performEach perform name body mode status rest

def matchesAny (perform : Perform) (text : Octets) : List Word → Run Bool
  | [] => return false
  | pattern :: rest => do
      let glyphs ← expandPattern (expander perform) pattern
      if isMatch glyphs text then return true else matchesAny perform text rest

def performClauses (perform : Perform) (text : Octets) (mode : Mode) : List Clause → Run Int
  | [] => return 0
  | .mk patterns body :: rest => do
      if ← matchesAny perform text patterns then
        match body with
        | some body => perform body mode
        | none => return 0
      else performClauses perform text mode rest

def performSubshell (perform : Perform) (inBackground : Bool) (line : Nat)
    (body : Option Command) (redirections : List Redirection) (mode : Mode) : Run Int := do
  modify fun state => { state with line }
  let targets ← targetsOf (expander perform) redirections
  let inside := fun (mode : Mode) => do
    redirect (expander perform) false targets
    performAny perform body mode
  if !inBackground && mode.last && !(← get).hasTraps then inside mode
  else
    let job ← addJob
    let start := if inBackground then Start.background true else .foreground
    let pid ← startChild start do
      endProcess perform (inside ⟨mode.tested && !inBackground, true⟩)
    addProcess job pid
    if inBackground then
      modify fun state => { state with lastBackground := some pid }
      return 0
    else finishJob job

/-- Finds the program of a command that begins with a plain name, so that it is known before the
command runs in a process of its own. -/
def findBeforehand (perform : Perform) : Command → Run Unit
  | .simple _ _ (word :: _) _ =>
      match plainText? word with
      | some name => do
          if isName name then
            let _ ← findCommand (loader perform) true none name
      | none => return ()
  | _ => return ()

/-- Starts the commands of a pipeline that are left; the first one reads from `input`. -/
def startPipeline (perform : Perform) (job : Nat) (inBackground : Bool) (mode : Mode)
    (first : Bool) (input : Option Fd) : List Command → Run Unit
  | [] => return ()
  | command :: rest => do
      findBeforehand perform command
      let output ← if rest.isEmpty then pure none
        else do pure (some (← makePipe))
      let start := if inBackground then Start.background first else .foreground
      let pid ← startChild start do
        match output with
        | some (reading, _) => ask (.system (.close reading))
        | none => pure ()
        match input with
        | some input => plug input Fd.input
        | none => pure ()
        match output with
        | some (_, writing) => plug writing Fd.output
        | none => pure ()
        endProcess perform (perform command mode)
      addProcess job pid
      if inBackground then
        modify fun state => { state with lastBackground := some pid }
      match input with
      | some input => ask (.system (.close input))
      | none => pure ()
      match output with
      | some (_, writing) => ask (.system (.close writing))
      | none => pure ()
      startPipeline perform job inBackground mode false (output.map Prod.fst) rest

def performPipeline (perform : Perform) (commands : List Command) (inBackground : Bool)
    (mode : Mode) : Run Int := do
  let job ← addJob
  startPipeline perform job inBackground { mode with last := true } true none commands
  if inBackground then return 0 else finishJob job

def performRedirected (perform : Perform) (line : Nat) (body : Option Command)
    (redirections : List Redirection) (mode : Mode) : Run Int := do
  modify fun state => { state with line }
  let targets ← targetsOf (expander perform) redirections
  let failure ← redirectSafely (expander perform) targets
  let status ← if failure != 0 then pure failure else performAny perform body mode.inner
  endRedirection false
  return status

/-- What becomes of the status of a command. -/
inductive Outcome where
  | new (status : Int)
  | kept

/-- Carries out the second of two commands, unless the first one or something that is skipped
prevents it. -/
def performSecond (perform : Perform) (second : Command) (mode : Mode) (goesOn : Bool) :
    Run Outcome := do
  if goesOn && (← get).skip = .nothing then return .new (← perform second mode)
  else return .kept

def performKind (perform : Perform) (command : Command) (mode : Mode) : Run Outcome := do
  match command with
  | .simple line assignments words redirections =>
      return .new (← performSimple perform line assignments words redirections mode)
  | .pipeline commands inBackground =>
      return .new (← performPipeline perform commands inBackground mode)
  | .redirected line body redirections =>
      return .new (← performRedirected perform line body redirections mode)
  | .subshell line body redirections =>
      return .new (← performSubshell perform false line body redirections mode)
  | .background line body redirections =>
      return .new (← performSubshell perform true line body redirections mode)
  | .sequence first second =>
      let _ ← perform first mode.inner
      performSecond perform second mode true
  | .both first second =>
      let status ← perform first .condition
      performSecond perform second mode (status = 0)
  | .either first second =>
      let status ← perform first .condition
      performSecond perform second mode (status != 0)
  | .negated body =>
      let status ← perform body .condition
      return .new (if status = 0 then 1 else 0)
  | .conditional test body alternative =>
      let status ← performAny perform test .condition
      if (← get).skip != .nothing then return .kept
      else match if status = 0 then body else alternative with
        | some command => return .new (← perform command mode)
        | none => return .new 0
  | .loop inverted test body =>
      return .new (← performLoop perform inverted test body mode)
  | .iteration line name words body =>
      modify fun state => { state with line }
      let values ← expandOperands (expander perform) words
      countLoop (· + 1)
      let status ← performEach perform name body mode 0 values
      countLoop (· - 1)
      return .new status
  | .choice line word clauses =>
      modify fun state => { state with line }
      let text ← expandText (expander perform) .plain word
      return .new (← performClauses perform text mode clauses)
  | .function line name body =>
      modify fun state =>
        let others := state.functions.filter fun entry => entry.1 != name
        let programs := state.programs.filter fun known => known.name != name
        { state with functions := (name, ⟨line, body⟩) :: others, programs }
      return .new 0

def mayEnd : Command → Bool
  | .simple _ _ _ _ => true
  | .pipeline _ _ => true
  | .subshell _ _ _ => true
  | .background _ _ _ => true
  | _ => false

def performWith (perform : Perform) (command : Command) (mode : Mode) : Run Int := do
  performTraps perform
  let mut failed := false
  if !(← has "noexec") then
    match ← performKind perform command mode with
    | .new status =>
        setStatus status
        failed := status != 0 && mayEnd command && !mode.tested
    | .kept => pure ()
  performTraps perform
  if (failed && (← has "errexit")) || mode.last then leave
  else return (← get).status

def commandRoom : Nat := 100000

/-- Carries out a command. `depth` bounds how deep commands may stand in commands. -/
def performWithin : Nat → Perform
  | 0 => fun _ _ => do
      ask (.die (.killed 11))
      leave
  | depth + 1 => fun command mode => performWith (performWithin depth) command mode

def perform : Perform :=
  performWithin commandRoom

end PipelineShell.Script

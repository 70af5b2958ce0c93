import PipelineShell.Script.Directory
import PipelineShell.Script.Source

/-!
What the name of a command stands for. Functions come before builtins, and builtins before the
programs along the search path; a name with a slash is a program.
-/

namespace PipelineShell.Script

/-- What distinguishes a builtin. -/
structure Builtin where
  special : Bool
  regular : Bool
  assigns : Bool
deriving DecidableEq, Repr

def specialBuiltins : List String :=
  [".", ":", "break", "continue", "eval", "exec", "exit", "export", "local", "readonly", "return",
    "set", "shift", "times", "trap", "unset"]

def plainBuiltins : List String :=
  ["[", "alias", "bg", "cd", "chdir", "command", "echo", "false", "fg", "getopts", "hash", "jobs",
    "kill", "printf", "pwd", "read", "test", "true", "type", "ulimit", "umask", "unalias", "wait"]

def programBuiltins : List String :=
  ["[", "echo", "printf", "test"]

def builtin? (name : Octets) : Option Builtin :=
  let spelling := String.ofList name
  let assigns := ["alias", "export", "local", "readonly"].contains spelling
  if specialBuiltins.contains spelling then some ⟨true, true, assigns⟩
  else if plainBuiltins.contains spelling then
    some ⟨false, !programBuiltins.contains spelling, assigns⟩
  else none

/-! ### The search path -/

/-- What a part of the search path stands for. -/
inductive Holding where
  | programs
  | builtins
  | functions
deriving DecidableEq, Repr

def Holding.read? (text : Octets) : Option (Holding × Octets) :=
  let named := fun (word : Octets) (holding : Holding) =>
    if word.isPrefixOf text then
      let behind := text.drop word.length
      some (holding, if behind.head? == some '%' then behind.tail else behind)
    else none
  (named "builtin".toList .builtins).or (named "func".toList .functions)

/-- Where a command may be found. -/
structure Candidate where
  path : Octets
  holding : Holding
deriving DecidableEq, Repr

/-- What a part of the search path says about a name. A percent sign, in front of the directory or
behind it, tells what the part stands for; without such a word the sign is one of the path. -/
def Candidate.ofPart (name part : Octets) : Candidate :=
  let behindSign := fun (text : Octets) =>
    if text.head? == some '%' then Holding.read? text.tail else none
  match behindSign part with
  | some (holding, directory) => ⟨nameIn directory name, holding⟩
  | none =>
      let directory := part.takeWhile (· != '%')
      match behindSign (part.drop directory.length) with
      | some (holding, _) => ⟨nameIn directory name, holding⟩
      | none => ⟨nameIn part name, .programs⟩

def candidates (searchPath name : Octets) : List Candidate :=
  (directoriesOf searchPath).map (Candidate.ofPart name)

def programPaths (candidates : List Candidate) : List Octets :=
  (candidates.filter fun candidate => candidate.holding = .programs).map Candidate.path

/-- Whether builtins come before all programs: no part of the search path but the first one begins
with the word for them. -/
def builtinsFirst (searchPath : Octets) : Bool :=
  let place := (directoriesOf searchPath).findIdx? ("%builtin".toList.isPrefixOf ·)
  place.getD 0 = 0

/-! ### Search -/

abbrev Load := Octets → Run Unit

/-- What a name stands for. -/
inductive Found where
  | function (definition : Definition)
  | builtin (builtin : Builtin)
  | program (path : Octets) (others : List Octets)
  | missing (errno : Errno)

/-- What is looked for along the search path. -/
structure Quest where
  name : Octets
  builtin : Option Builtin
  load : Option Load
  known : Option Nat

def loadFunction (load : Load) (name path : Octets) : Run Found := do
  load path
  match (← get).functions.lookup name with
  | some definition => return .function definition
  | none => fail (name ++ " not defined in ".toList ++ path)

/-- What the first candidate stands for that is good, with its place. Absolute paths in front of a
place that is known are not looked at again, nor is an absolute path there. -/
def Quest.first (quest : Quest) (failure : Errno) :
    List (Candidate × Nat) → Run (Except Errno (Found × Nat))
  | [] => return .error failure
  | (⟨path, holding⟩, place) :: rest => do
      let isAbsolute := path.head? == some '/'
      match holding, quest.builtin, quest.load with
      | .builtins, some builtin, _ => return .ok (.builtin builtin, place)
      | .builtins, none, _ => quest.first failure rest
      | .functions, _, none => quest.first failure rest
      | holding, _, load =>
          if isAbsolute && quest.known == some place then
            return .ok (.program path (programPaths (rest.map Prod.fst)), place)
          else if isAbsolute && quest.known.any (place < ·) then quest.first failure rest
          else match ← ask (.lookAt path true) with
            | .error errno =>
                if errno = .noEntry || errno = .notDirectory then quest.first failure rest
                else quest.first errno rest
            | .ok status =>
                match status.kind, holding, load with
                | .regular, .functions, some load =>
                    return .ok (← loadFunction load quest.name path, place)
                | .regular, _, _ =>
                    if status.executable then
                      return .ok (.program path (programPaths (rest.map Prod.fst)), place)
                    else quest.first .accessDenied rest
                | _, _, _ => quest.first .accessDenied rest

def rememberProgram (name : Octets) : Option Nat → Run Unit
  | none =>
      modify fun state => { state with
        programs := state.programs.filter fun known => known.name != name }
  | some place =>
      modify fun state =>
        let found : KnownProgram := ⟨name, place, false⟩
        let programs := if state.programs.any fun known => known.name == name then
            state.programs.map fun known => if known.name == name then found else known
          else state.programs ++ [found]
        { state with programs }

def Interpreter.known? (state : Interpreter) (name : Octets) : Option KnownProgram :=
  state.programs.find? fun known => known.name == name

def foundAt (builtin : Option Builtin) (candidates : List Candidate) (place : Nat) : Found :=
  match candidates.drop place, builtin with
  | ⟨_, .builtins⟩ :: _, some builtin => .builtin builtin
  | ⟨path, _⟩ :: rest, _ => .program path (programPaths rest)
  | [], _ => .missing .noEntry

/-- Finds what the search path says about a name, and remembers its place if it `remembers`. A
place that is known already is not looked at again, unless it is stale. -/
def findProgram (load : Option Load) (given : Option Octets) (remembers : Bool) (name : Octets) :
    Run Found := do
  if name.contains '/' then return .program name []
  else
    let state ← get
    let builtin := builtin? name
    let candidates := candidates (given.getD state.searchPath) name
    match if remembers then state.known? name else none with
    | some ⟨_, place, false⟩ => return foundAt builtin candidates place
    | known =>
        let quest : Quest := ⟨name, builtin, load, known.map KnownProgram.place⟩
        let found ← quest.first .noEntry candidates.zipIdx
        let (found, place) := match found with
          | .ok (.function definition, _) => (.function definition, none)
          | .ok (found, place) => (found, some place)
          | .error errno => (.missing errno, none)
        if remembers then
          rememberProgram name place
        return found

def findCommand (load : Load) (withFunctions : Bool) (given : Option Octets) (name : Octets) :
    Run Found := do
  let state ← get
  let function := state.functions.lookup name
  let first := (builtin? name).filter fun builtin =>
    builtin.regular || given.isSome || builtinsFirst state.searchPath
  match if withFunctions then function else none, first with
  | some definition, _ => return .function definition
  | none, some builtin => return .builtin builtin
  | none, none =>
      let load := if withFunctions then some load else none
      findProgram load given (given.isNone && function.isNone) name

def programFault (errno : Errno) : String :=
  if errno = .noEntry || errno = .notDirectory then "not found" else errno.text

def programStatus (errno : Errno) : Int :=
  if [Errno.noEntry, .notDirectory, .tooManyLinks, .nameTooLong].contains errno then 127 else 126

def scriptInterpreter : Octets :=
  "/bin/sh".toList

/-- Becomes the program of a path; a script that names no interpreter is run by one. -/
def become (path : Octets) (arguments : List Octets) : Run Errno := do
  let environment := (← get).exports
  let errno ← ask (.become path arguments environment)
  if errno = .execFormat && path != scriptInterpreter then
    ask (.become scriptInterpreter (scriptInterpreter :: path :: arguments.tail) environment)
  else return errno

def becomeAny {α : Type} (arguments : List Octets) (failure : Errno) : List Octets → Run α
  | [] =>
      failWith .finished (programStatus failure)
        (arguments.headD [] ++ ": ".toList ++ (programFault failure).toList)
  | path :: rest => do
      let errno ← become path arguments
      becomeAny arguments
        (if errno = .noEntry || errno = .notDirectory then failure else errno) rest

def becomeFound {α : Type} (arguments : List Octets) : Found → Run α
  | .program path others => becomeAny arguments .noEntry (path :: others)
  | .missing errno => becomeAny arguments errno []
  | _ => becomeAny arguments .noEntry []

def becomeNamed {α : Type} (arguments : List Octets) : Run α := do
  let name := arguments.headD []
  if name.contains '/' then becomeAny arguments .noEntry [name]
  else
    let searchPath := (← get).searchPath
    becomeAny arguments .noEntry (programPaths (candidates searchPath name))

/-! ### Descriptions -/

def findKnown (load : Load) (known : Option KnownProgram) (given : Option Octets)
    (name : Octets) : Run Found := do
  match known with
  | some ⟨_, place, _⟩ =>
      return foundAt (builtin? name) (candidates (← get).searchPath name) place
  | none => findCommand load true given name

/-- Says what a name stands for, in words or as it would be written; the value is the status. -/
def describe (load : Load) (inWords : Bool) (given : Option Octets) (name : Octets) :
    Run Int := do
  let state ← get
  if inWords then
    print name
  let say := fun (words : String) (shown : Octets) => do
    print ((if inWords then words.toList else shown) ++ ['\n'])
    return (0 : Int)
  let unknown := do
    if inWords then
      print ": not found\n".toList
    return (127 : Int)
  if (Keyword.ofText? name).isSome then say " is a shell keyword" name
  else match state.aliases.lookup name with
    | some text =>
        if inWords then
          print (" is an alias for ".toList ++ text ++ ['\n'])
        else
          print ("alias ".toList)
          showAlias (name, text)
        return 0
    | none =>
        let known := if given.isNone then state.known? name else none
        match ← findKnown load known given name with
        | .function _ => say " is a shell function" name
        | .builtin builtin =>
            say (if builtin.special then " is a special shell builtin" else " is a shell builtin")
              name
        | .missing _ => unknown
        | .program path _ =>
            if known.isNone && (← ask (.lookAt path true)).toOption.isNone then unknown
            else
              let words := if known.isSome then " is a tracked alias for " else " is "
              print ((if inWords then words.toList else []) ++ path ++ ['\n'])
              return 0

def typeStatus (load : Load) (words : List Octets) : Run Int := do
  let statuses ← words.mapM (describe load true none)
  return if statuses.all (· == 0) then 0 else 127

def commandStatus (load : Load) (words : List Octets) : Run Int := do
  let (options, operands) ← takeOptions "pvV" "" words
  let given := if options.any fun option => option.1 == 'p' then some standardPath else none
  let isAsked := options.any fun option => option.1 != 'p'
  match operands with
  | name :: _ =>
      if isAsked then
        describe load (options.any fun option => option.1 == 'V') given name
      else return 0
  | [] => return 0

def programRows : Nat := 31

def hashStatus (load : Load) (words : List Octets) : Run Int := do
  let (options, operands) ← takeOptions "r" "" words
  if !options.isEmpty then
    modify fun state => { state with programs := [] }
    return 0
  else if operands.isEmpty then
    let state ← get
    (inRows programRows KnownProgram.name state.programs).forM fun ⟨name, place, stale⟩ =>
      match foundAt (builtin? name) (candidates state.searchPath name) place with
      | .program path _ => print (path ++ (if stale then "*\n" else "\n").toList)
      | _ => pure ()
    return 0
  else
    let statuses ← operands.mapM fun name => do
      rememberProgram name none
      match ← findCommand load true none name with
      | .missing errno =>
          warn (name ++ ": ".toList ++ (programFault errno).toList)
          return (1 : Int)
      | _ => return 0
    return if statuses.all (· == 0) then 0 else 1

end PipelineShell.Script

import PipelineShell.Script.Signals

/-!
The builtins about what a script keeps: its variables, parameters, options and aliases. What they
show can be read again as commands.
-/

namespace PipelineShell.Script

/-! ### Options of builtins -/

def refuseOption {α : Type} (letter : Char) : Run α :=
  fail ("Illegal option -".toList ++ [letter])

def refuseBareOption {α : Type} (letter : Char) : Run α :=
  fail ("No arg for -".toList ++ letter :: " option".toList)

/-- Takes the options of one word. Those in `withArgument` have an argument, behind them or in the
next word. -/
def takeLetters (plain withArgument : Octets) (rest : List Octets)
    (found : List (Char × Octets)) :
    Octets → Run (List (Char × Octets) × List Octets)
  | [] => return (found, rest)
  | letter :: letters => do
      if withArgument.contains letter then
        match letters, rest with
        | [], [] => refuseBareOption letter
        | [], argument :: rest => return ((letter, argument) :: found, rest)
        | letters, rest => return ((letter, letters) :: found, rest)
      else if plain.contains letter then
        takeLetters plain withArgument rest ((letter, []) :: found) letters
      else refuseOption letter

/-- Takes the options in front of the operands. `fuel` bounds the number of words. -/
def takeOptionsWithin (plain withArgument : Octets) :
    Nat → List (Char × Octets) → List Octets → Run (List (Char × Octets) × List Octets)
  | 0, found, words => return (found.reverse, words)
  | fuel + 1, found, words => do
      match words with
      | ['-', '-'] :: rest => return (found.reverse, rest)
      | ('-' :: letter :: letters) :: rest =>
          let (found, rest) ← takeLetters plain withArgument rest found (letter :: letters)
          takeOptionsWithin plain withArgument fuel found rest
      | words => return (found.reverse, words)

def takeOptions (plain withArgument : String) (words : List Octets) :
    Run (List (Char × Octets) × List Octets) :=
  takeOptionsWithin plain.toList withArgument.toList (words.length + 1) [] words

def takeNoOptions (words : List Octets) : Run (List Octets) :=
  return (← takeOptions "" "" words).2

/-! ### Showing -/

/-- A text between single quotes, with the single quotes in it between double ones. `fuel` bounds
the number of characters. -/
def singleQuotedWithin : Nat → Octets → Octets
  | 0, _ => []
  | fuel + 1, text =>
      let mark := Char.ofNat 0x27
      let plain := text.takeWhile (· != mark)
      let marks := (text.drop plain.length).takeWhile (· == mark)
      let rest := text.drop (plain.length + marks.length)
      let front := mark :: plain ++ [mark]
      if marks.isEmpty then front
      else
        let front := front ++ '"' :: marks ++ ['"']
        if rest.isEmpty then front else front ++ singleQuotedWithin fuel rest

def singleQuoted (text : Octets) : Octets :=
  singleQuotedWithin (text.length + 1) text

def showVariables (command : Octets) (isShown : Variable → Bool) : Run Unit := do
  let shown := (← get).bindings.filter fun entry => isShown entry.2
  let front := if command.isEmpty then [] else command ++ [' ']
  (shown.mergeSort fun left right => Octets.isAtMost left.1 right.1).forM fun (name, found) =>
    let value := match found.value with
      | some value => '=' :: singleQuoted value
      | none => []
    print (front ++ name ++ value ++ ['\n'])

/-! ### Options of the script -/

/-- Shows all options; `asCommands` tells that commands are shown that set them. -/
def showOptions (asCommands : Bool) : Run Unit := do
  let state ← get
  if !asCommands then
    print "Current option settings\n".toList
  optionNames.forM fun (name, _) =>
    let isSet := state.has name || state.undecided.contains name
    print (if asCommands then
        (if isSet then "set -o " else "set +o ").toList ++ name.toList ++ ['\n']
      else
        let padded := name.toList ++ List.replicate (16 - name.length) ' '
        padded ++ (if isSet then "on\n" else "off\n").toList)

def setNamedOption (isSet : Bool) (name : Octets) : Run Unit := do
  match optionNames.find? fun entry => entry.1.toList == name with
  | some (option, _) => setOption option isSet
  | none => fail ("Illegal option -o ".toList ++ name)

def setLetterOption (isSet : Bool) (letter : Char) : Run Unit := do
  match optionNames.find? fun entry => entry.2 == some letter with
  | some (option, _) => setOption option isSet
  | none => refuseOption letter

/-- Sets the options of one word; the value is the words that are left. -/
def setLetters (isSet : Bool) (rest : List Octets) : Octets → Run (List Octets)
  | [] => return rest
  | 'o' :: letters => do
      match rest with
      | [] =>
          showOptions (!isSet)
          setLetters isSet [] letters
      | name :: rest =>
          setNamedOption isSet name
          setLetters isSet rest letters
  | letter :: letters => do
      setLetterOption isSet letter
      setLetters isSet rest letters

/-- Does what the options ask for. There is no terminal, so that jobs cannot be controlled. -/
def applyOptions : Run Unit := do
  conversationSignals.forM applyTrap
  let state ← get
  if state.has "monitor" && state.level = 0 then
    warn "can't access tty; job control turned off".toList
    setOption "monitor" false

def setParameters (words : List Octets) : Run Unit :=
  modify fun state => { state with parameters := .ofWords words }

/-- Sets options and parameters. `fuel` bounds the number of words. -/
def setWithin : Nat → List Octets → Run Unit
  | 0, _ => return ()
  | fuel + 1, words => do
      match words with
      | [] => return ()
      | ['-'] :: rest =>
          setOption "xtrace" false
          setOption "verbose" false
          if !rest.isEmpty then
            setParameters rest
      | ['-', '-'] :: rest => setParameters rest
      | ('-' :: letters) :: rest => setWithin fuel (← setLetters true rest letters)
      | ('+' :: letters) :: rest => setWithin fuel (← setLetters false rest letters)
      | words => setParameters words

def setStatusOf (words : List Octets) : Run Int := do
  if words.isEmpty then
    showVariables [] fun found => found.value.isSome
  else
    setWithin (words.length + 1) words
    applyOptions
  return 0

def shiftStatus (words : List Octets) : Run Int := do
  let count ← match words with
    | [] => pure 1
    | word :: _ => wholeNumber word
  let parameters := (← get).parameters.words
  if parameters.length < count then fail "can't shift that many".toList
  else
    setParameters (parameters.drop count)
    return 0

/-! ### Variables -/

def splitAssignment (word : Octets) : Octets × Option Octets :=
  let name := word.takeWhile (· != '=')
  (name, if name.length < word.length then some (word.drop (name.length + 1)) else none)

def declare (exported readOnly : Bool) (word : Octets) : Run Unit := do
  let (name, value) := splitAssignment word
  match value with
  | some value =>
      checkName name
      assign name value exported
  | none =>
      if ((← get).bindings.lookup name).isNone then
        checkName name
  mark name exported readOnly

def declareStatus (command : Octets) (readOnly : Bool) (words : List Octets) : Run Int := do
  let (options, operands) ← takeOptions "p" "" words
  if options.isEmpty && !operands.isEmpty then
    operands.forM (declare (!readOnly) readOnly)
  else
    showVariables command fun found => if readOnly then found.readOnly else found.exported
  return 0

/-- Makes a variable local, or the options. A name that is none is found out only where it is given no
value. -/
def localize (exported : Bool) (word : Octets) : Run Unit := do
  if word == ['-'] then makeOptionsLocal
  else
    let (name, value) := splitAssignment word
    let known := (← get).bindings.lookup name
    if known.isNone && value.isNone then
      checkName name
    makeLocal name
    match value with
    | some value => assign name value exported
    | none =>
        if known.isNone then
          mark name exported false

def localStatus (words : List Octets) : Run Int := do
  if (← get).locals.isEmpty then fail "not in a function".toList
  else
    words.forM (localize false)
    return 0

def unsetStatus (words : List Octets) : Run Int := do
  let (options, operands) ← takeOptions "vf" "" words
  let last := options.getLast?.map Prod.fst
  operands.forM fun name =>
    if last == some 'f' then
      modify fun state =>
        { state with functions := state.functions.filter fun entry => entry.1 != name }
    else unset name
  return 0

/-! ### Aliases -/

def aliasRows : Nat := 39

def showAlias (entry : Octets × Octets) : Run Unit :=
  print (entry.1 ++ '=' :: singleQuoted entry.2 ++ ['\n'])

def complainOfAlias (command : String) (name : Octets) : Run Unit :=
  writeTo Fd.error (command.toList ++ ": ".toList ++ name ++ " not found\n".toList)

def setAlias (name text : Octets) : Run Unit :=
  modify fun state =>
    let aliases := if state.aliases.any fun entry => entry.1 == name then
        state.aliases.map fun entry => if entry.1 == name then (name, text) else entry
      else state.aliases ++ [(name, text)]
    { state with aliases }

/-- Shows an alias or sets it; the value is the status. -/
def aliasOperand (word : Octets) : Run Int := do
  let name := word.take 1 ++ (word.drop 1).takeWhile (· != '=')
  if name.length < word.length then
    setAlias name (word.drop (name.length + 1))
    return 0
  else
    match (← get).aliases.lookup word with
    | some text =>
        showAlias (word, text)
        return 0
    | none =>
        complainOfAlias "alias" word
        return 1

def aliasStatus (words : List Octets) : Run Int := do
  if words.isEmpty then
    (inRows aliasRows Prod.fst (← get).aliases).forM showAlias
  let statuses ← words.mapM aliasOperand
  return if statuses.all (· == 0) then 0 else 1

def unaliasStatus (words : List Octets) : Run Int := do
  let (options, operands) ← takeOptions "a" "" words
  if !options.isEmpty then
    modify fun state => { state with aliases := [] }
    return 0
  else
    let statuses ← operands.mapM fun name => do
      if ((← get).aliases.lookup name).isNone then
        complainOfAlias "unalias" name
        return 1
      else
        modify fun state =>
          { state with aliases := state.aliases.filter fun entry => entry.1 != name }
        return (0 : Int)
    return if statuses.all (· == 0) then 0 else 1

/-! ### Options of parameters -/

def nextLetters (parameters : Parameters) (operands : List Octets) :
    Option (Octets × Nat) :=
  let index := parameters.optionIndex
  let current := do
    let offset ← parameters.optionOffset
    let word ← if 1 < index then operands[index - 2]? else none
    if word.length ≤ offset then none else some (word.drop offset)
  match current with
  | some letters => some (letters, index)
  | none =>
      match operands[index - 1]? with
      | some ('-' :: letter :: letters) => some (letter :: letters, index + 1)
      | _ => none

/-- Whether a letter is among the options, and whether it has an argument. `fuel` bounds the number
of letters. -/
def optionKind? (letter : Char) : Octets → Option Bool
  | [] => none
  | [option] => if option == letter then some false else none
  | option :: ':' :: rest =>
      if option == letter then some true else optionKind? letter rest
  | option :: rest => if option == letter then some false else optionKind? letter rest

/-- What has been found out about the next option: the letter that is stored, the number of the
next operand, and the place in the last one, if letters are left in it. -/
structure OptionFound where
  letter : Char
  index : Nat
  offset : Option Nat

/-- Takes the next option of operands and sets its argument; nothing if there is none. -/
def takeParameterOption (options : Octets) (operands : List Octets) (letters : Octets)
    (index : Nat) : Run OptionFound := do
  let quiet := options.head? == some ':'
  let argument := "OPTARG".toList
  let letter := letters.headD '?'
  let rest := letters.tail
  let offset := ((operands[index - 2]?).map fun word => word.length - rest.length)
  match optionKind? letter options with
  | none =>
      if quiet then assign argument [letter] false
      else
        writeTo Fd.error ("Illegal option -".toList ++ letter :: ['\n'])
        unset argument
      return ⟨'?', index, offset⟩
  | some false =>
      assign argument [] false
      return ⟨letter, index, offset⟩
  | some true =>
      if !rest.isEmpty then
        assign argument rest false
        return ⟨letter, index, none⟩
      else
        match operands[index - 1]? with
        | some word =>
            assign argument word false
            return ⟨letter, index + 1, none⟩
        | none =>
            if quiet then
              assign argument [letter] false
              return ⟨':', index, none⟩
            else
              writeTo Fd.error ("No arg for -".toList ++ letter :: " option\n".toList)
              unset argument
              return ⟨'?', index, none⟩

def storeOption (name : Octets) (found : OptionFound) : Run Unit := do
  let words := (← get).parameters.words
  assign "OPTIND".toList (Octets.ofNumber found.index) false
  checkName name
  assign name [found.letter] false
  modify fun state => { state with parameters := ⟨words, found.index, found.offset⟩ }

def getoptsStatus (words : List Octets) : Run Int := do
  match ← takeNoOptions words with
  | options :: name :: others =>
      let parameters := (← get).parameters
      let operands := if others.isEmpty then parameters.words else others
      let parameters := if operands.length + 1 < parameters.optionIndex then
          Parameters.ofWords parameters.words
        else parameters
      match nextLetters parameters operands with
      | none =>
          storeOption name ⟨'?', parameters.optionIndex, none⟩
          return 1
      | some (['-'], index) =>
          if index != parameters.optionIndex then
            storeOption name ⟨'?', index, none⟩
            return 1
          else
            storeOption name (← takeParameterOption options operands ['-'] index)
            return 0
      | some (letters, index) =>
          storeOption name (← takeParameterOption options operands letters index)
          return 0
  | _ => fail "Usage: getopts optstring var [arg...]".toList

end PipelineShell.Script

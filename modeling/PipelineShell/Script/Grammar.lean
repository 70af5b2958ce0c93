import PipelineShell.Script.Source

/-!
The grammar of scripts. Commands are read one complete line at a time, so that a line takes effect
before the next one is read; what is wrong with a line is found only then.
-/

namespace PipelineShell.Script

/-- What is to be read. -/
inductive Goal where
  | line
  /-- Commands up to a token that ends them; there has to be one. -/
  | commands
  | anyCommands
  | command
deriving DecidableEq, Repr

def reservedNames : List String :=
  [".", ":", "break", "continue", "eval", "exec", "exit", "export", "local", "readonly", "return",
    "set", "shift", "times", "trap", "unset"]

/-! ### Tokens -/

def refuseToken {α : Type} (expected : Option Token) : Parse α := do
  let shown := (← get).last.shown ++ " unexpected"
  complainSyntax (match expected with
    | none => shown
    | some token => shown ++ " (expecting " ++ token.shown ++ ")")

def pushBack : Parse Unit :=
  modify fun reader => { reader with pushed := true }

def look (checks : Checks) : Parse Unit :=
  modify fun reader => { reader with checks }

def readSign (first : Char) (fd : Option Nat) : Parse Token := do
  let next ← nextJoined
  let sign := fun (kind : RedirectionKind) (default : Nat) =>
    (return .redirection kind (fd.getD default) false : Parse Token)
  if first == '>' then
    match next with
    | some '>' => sign .append 1
    | some '|' => sign .overwrite 1
    | some '&' => sign .copy 1
    | _ =>
        unread next
        sign .output 1
  else
    match next with
    | some '<' =>
        let behind ← nextJoined
        let stripping := behind == some '-'
        if !stripping then
          unread behind
        return .redirection (.document 0) (fd.getD 0) stripping
    | some '&' => sign .copy 0
    | some '>' => sign .both 0
    | _ =>
        unread next
        sign .input 0

def signNumber? : Word → Option (Option Nat)
  | [] => some none
  | [.character false digit] => if digit.isDigit then some (some (digit.toNat - 48)) else none
  | _ => none

def readWordToken (words : WordReader) : Parse Token := do
  let parts ← readParts words wordDepth .word
  let word := parts.found.reverse
  match ← nextCharacter with
  | none => return .word word parts.quoted
  | some next =>
      match signNumber? word with
      | some fd =>
          if (next == '>' || next == '<') && !parts.quoted then readSign next fd
          else
            unread (some next)
            return .word word parts.quoted
      | none =>
          unread (some next)
          return .word word parts.quoted

def passComment : Parse Unit :=
  parseLoop () fun () => do
    match ← nextCharacter with
    | none => return .inr ()
    | some '\n' =>
        unread (some '\n')
        return .inr ()
    | some _ => return .inl ()

def passIf (character : Char) : Parse Bool := do
  let next ← nextJoined
  if next == some character then return true
  else
    unread next
    return false

def scanToken (words : WordReader) : Parse Token :=
  parseLoop () fun () => do
    match ← nextJoined with
    | none => return .inr .endOfFile
    | some ' ' => return .inl ()
    | some '\t' => return .inl ()
    | some '#' =>
        passComment
        return .inl ()
    | some '\n' =>
        endLine
        return .inr .newline
    | some '&' => return .inr (if ← passIf '&' then .doubleAmpersand else .ampersand)
    | some '|' => return .inr (if ← passIf '|' then .doubleBar else .bar)
    | some ';' => return .inr (if ← passIf ';' then .doubleSemicolon else .semicolon)
    | some '(' => return .inr .openParenthesis
    | some ')' => return .inr .closeParenthesis
    | character =>
        unread character
        return .inr (← readWordToken words)

def takeToken (words : WordReader) : Parse Token := do
  if (← get).pushed then
    modify fun reader => { reader with pushed := false }
    return (← get).last
  else
    promptIfDue
    let token ← scanToken words
    modify fun reader =>
      let word := match token with
        | .word word _ => word
        | _ => reader.word
      { reader with last := token, word }
    return token

def readDocuments (words : WordReader) : Parse Unit := do
  let announced := (← get).announced
  modify fun reader => { reader with announced := [] }
  announced.forM fun document => do
    promptIfDue
    let word ← if document.literal then readLiteral document.delimiter
      else readDocument words document.delimiter
    modify fun reader => { reader with documents := (document.number, word) :: reader.documents }

def Reader.alias? (reader : Reader) (name : Octets) : Option Octets :=
  if reader.busy.any fun entry => entry.1 == name then none else reader.aliases.lookup name

def Reader.enterAlias (reader : Reader) (name text : Octets) : Reader :=
  let blank := text.getLast? == some ' ' || text.getLast? == some '\t'
  if text.isEmpty then reader
  else { reader with
    text := text ++ aliasEnd :: reader.text, busy := (name, blank) :: reader.busy }

def readToken (words : WordReader) : Parse Token := do
  let wanted := (← get).checks
  parseLoop wanted fun wanted => do
    let token ← takeToken words
    match token with
    | .newline =>
        if wanted.lines then
          readDocuments words
          look .none
          return .inl wanted
        else
          look .none
          return .inr token
    | .word word quoted =>
        let found := (← get).checks
        let wanted := { wanted with
          keywords := wanted.keywords || found.keywords
          aliases := wanted.aliases || found.aliases }
        look .none
        match if quoted then none else plainText? word with
        | none => return .inr token
        | some text =>
            match if wanted.keywords then Keyword.ofText? text else none with
            | some which =>
                modify fun reader => { reader with last := .keyword which }
                return .inr (.keyword which)
            | none =>
                let reader ← get
                match if wanted.aliases then reader.alias? text else none with
                | some value =>
                    modify fun reader => reader.enterAlias text value
                    return .inl wanted
                | none => return .inr token
    | token =>
        look .none
        return .inr token

/-! ### Redirections -/

def delimiterText (word : Word) : Octets :=
  word.filterMap fun
    | .character _ character => some character
    | _ => none

def readTarget (words : WordReader) (kind : RedirectionKind) (fd : Nat) (stripping : Bool) :
    Parse Redirection := do
  match kind with
  | .document _ =>
      look { Checks.none with delimiter := true }
      match ← readToken words with
      | .word word quoted =>
          let number := (← get).nextDocument
          let announced : Announced := ⟨number, ⟨delimiterText word, stripping⟩, quoted⟩
          modify fun reader =>
            { reader with nextDocument := number + 1, announced := reader.announced ++ [announced] }
          return .mk (.document number) fd []
      | _ => refuseToken none
  | kind =>
      match ← readToken words with
      | .word word _ => return .mk kind fd word
      | _ => refuseToken none

def readRedirections (words : WordReader) : Parse (List Redirection) :=
  parseLoop ([] : List Redirection) fun found => do
    match ← readToken words with
    | .redirection kind fd stripping =>
        return .inl ((← readTarget words kind fd stripping) :: found)
    | _ =>
        pushBack
        return .inr found.reverse

/-! ### Commands -/

/-- Reading of what stands inside commands. -/
structure Inner where
  words : WordReader
  read : Goal → Parse (Option Command)

def expectKeyword (inner : Inner) (expected : Keyword) : Parse Unit := do
  match ← readToken inner.words with
  | .keyword which => if which == expected then return () else refuseToken (some (.keyword expected))
  | _ => refuseToken (some (.keyword expected))

def readCommand (inner : Inner) : Parse Command := do
  match ← inner.read .command with
  | some command => return command
  | none => refuseToken none

/-- What has been read of a simple command. -/
structure Simple where
  assignments : List Word
  words : List Word
  redirections : List Redirection

def readFunction (inner : Inner) (name : Word) : Parse Command := do
  match ← readToken inner.words with
  | .closeParenthesis => pure ()
  | _ => refuseToken (some .closeParenthesis)
  match plainText? name with
  | some text =>
      if !isName text || reservedNames.any fun reserved => reserved.toList == text then
        complainSyntax "Bad function name"
      else
        look .laterCommand
        let line := (← get).line
        return .function line text (← readCommand inner)
  | none => complainSyntax "Bad function name"

def readSimple (inner : Inner) : Parse Command := do
  let line := (← get).line
  parseLoop (⟨[], [], []⟩ : Simple) fun found => do
    look { Checks.none with aliases := found.words.isEmpty }
    match ← readToken inner.words with
    | .word word _ =>
        if found.words.isEmpty && (assignment? word).isSome then
          return .inl { found with assignments := word :: found.assignments }
        else return .inl { found with words := word :: found.words }
    | .redirection kind fd stripping =>
        let redirection ← readTarget inner.words kind fd stripping
        return .inl { found with redirections := redirection :: found.redirections }
    | token =>
        match token, found with
        | .openParenthesis, ⟨[], [name], []⟩ => return .inr (← readFunction inner name)
        | _, _ =>
            pushBack
            return .inr (.simple line found.assignments.reverse found.words.reverse
              found.redirections.reverse)

def readConditional (inner : Inner) : Nat → Parse Command
  | 0 => throw .unfinished
  | fuel + 1 => do
      let test ← inner.read .commands
      expectKeyword inner .then
      let body ← inner.read .commands
      match ← readToken inner.words with
      | .keyword .elif =>
          let rest ← readConditional inner fuel
          return .conditional test body (some rest)
      | .keyword .else => return .conditional test body (← inner.read .commands)
      | _ =>
          pushBack
          return .conditional test body none

def readLoop (inner : Inner) (inverted : Bool) : Parse Command := do
  let test ← inner.read .commands
  expectKeyword inner .do
  return .loop inverted test (← inner.read .commands)

def readWords (inner : Inner) : Parse (List Word) :=
  parseLoop ([] : List Word) fun found => do
    match ← readToken inner.words with
    | .word word _ => return .inl (word :: found)
    | _ => return .inr found.reverse

def allParameters : Word :=
  [.mark, .parameter true ['@'] .value false [], .mark]

def readIteration (inner : Inner) (line : Nat) : Parse Command := do
  match ← readToken inner.words with
  | .word word quoted =>
      match if quoted then none else plainText? word with
      | some name =>
          if !isName name then complainSyntax "Bad for loop variable"
          else
            look .laterCommand
            let words ← match ← readToken inner.words with
              | .keyword .in => do
                  let words ← readWords inner
                  match (← get).last with
                  | .newline => pure words
                  | .semicolon => pure words
                  | _ => refuseToken none
              | .semicolon => pure [allParameters]
              | _ => do
                  pushBack
                  pure [allParameters]
            look .laterCommand
            expectKeyword inner .do
            return .iteration line name words (← inner.read .commands)
      | none => complainSyntax "Bad for loop variable"
  | _ => complainSyntax "Bad for loop variable"

/-- Reads the patterns of a clause, the first of which is the last word. Keywords are patterns too,
and in front of any other token the last word is one again. -/
def readPatterns (inner : Inner) : Parse (List Word) :=
  parseLoop ([] : List Word) fun found => do
    let word := (← get).word
    match ← readToken inner.words with
    | .bar =>
        let _ ← readToken inner.words
        return .inl (word :: found)
    | .closeParenthesis => return .inr (word :: found).reverse
    | _ => refuseToken (some .closeParenthesis)

def readClauses (inner : Inner) : Parse (List Clause) :=
  parseLoop ([] : List Clause) fun found => do
    look { Checks.none with lines := true, keywords := true }
    match ← readToken inner.words with
    | .keyword .esac => return .inr found.reverse
    | token =>
        match token with
        | .openParenthesis => let _ ← readToken inner.words
        | _ => pure ()
        let patterns ← readPatterns inner
        let body ← inner.read .anyCommands
        let found := .mk patterns body :: found
        look { Checks.none with lines := true, keywords := true }
        match ← readToken inner.words with
        | .keyword .esac => return .inr found.reverse
        | .doubleSemicolon => return .inl found
        | _ => refuseToken (some .doubleSemicolon)

def readChoice (inner : Inner) (line : Nat) : Parse Command := do
  match ← readToken inner.words with
  | .word word _ =>
      look .laterCommand
      expectKeyword inner .in
      return .choice line word (← readClauses inner)
  | _ => refuseToken (some (.word [] false))

def withRedirections (line : Nat) (command : Option Command) (redirections : List Redirection) :
    Option Command :=
  if redirections.isEmpty then command
  else match command with
    | some (.subshell place body _) => some (.subshell place body redirections)
    | command => some (.redirected line command redirections)

def finishCompound (inner : Inner) (line : Nat) (command : Option Command) :
    Parse (Option Command) := do
  look .command
  return withRedirections line command (← readRedirections inner.words)

def commandOf (inner : Inner) : Parse (Option Command) := do
  let line := (← get).line
  let enclosed := fun (command : Option Command) (expected : Keyword) => do
    expectKeyword inner expected
    finishCompound inner line command
  match ← readToken inner.words with
  | .keyword .if => enclosed (some (← readConditional inner wordDepth)) .fi
  | .keyword .while => enclosed (some (← readLoop inner false)) .done
  | .keyword .until => enclosed (some (← readLoop inner true)) .done
  | .keyword .for => enclosed (some (← readIteration inner line)) .done
  | .keyword .opening => enclosed (← inner.read .commands) .closing
  | .keyword .case => finishCompound inner line (some (← readChoice inner line))
  | .openParenthesis =>
      let body ← inner.read .commands
      match ← readToken inner.words with
      | .closeParenthesis => finishCompound inner line (some (.subshell line body []))
      | _ => refuseToken (some .closeParenthesis)
  | .word _ _ =>
      pushBack
      return some (← readSimple inner)
  | .redirection _ _ _ =>
      pushBack
      return some (← readSimple inner)
  | _ => refuseToken none

def readPipeline (inner : Inner) : Parse Command := do
  let negated ← match ← readToken inner.words with
    | .keyword .not => do
        look .command
        pure true
    | _ => do
        pushBack
        pure false
  let first ← readCommand inner
  let commands ← parseLoop [first] fun found => do
    match ← readToken inner.words with
    | .bar =>
        look .laterCommand
        return .inl ((← readCommand inner) :: found)
    | _ =>
        pushBack
        return .inr found.reverse
  let command := match commands with
    | [command] => command
    | commands => .pipeline commands false
  return if negated then .negated command else command

def readGated (inner : Inner) : Parse Command := do
  let first ← readPipeline inner
  parseLoop first fun found => do
    match ← readToken inner.words with
    | .doubleAmpersand =>
        look .laterCommand
        return .inl (.both found (← readPipeline inner))
    | .doubleBar =>
        look .laterCommand
        return .inl (.either found (← readPipeline inner))
    | _ =>
        pushBack
        return .inr found

def endsCommands : Token → Bool
  | .endOfFile => true
  | .closeParenthesis => true
  | .doubleSemicolon => true
  | .keyword which =>
      [Keyword.do, .done, .elif, .else, .esac, .fi, .then, .closing].contains which
  | _ => false

def inBackground : Command → Command
  | .pipeline commands _ => .pipeline commands true
  | .redirected line body redirections => .background line body redirections
  | command => .background 0 (some command) []

/-- Reads a list of commands; `goal` tells where it may end. -/
def listOf (inner : Inner) (goal : Goal) : Parse (Option Command) := do
  let oneLine := goal == .line
  parseLoop ((none : Option Command), goal == .anyCommands) fun (found, mayEnd) => do
    look (if oneLine then .command else .laterCommand)
    let endAll := fun (found : Option Command) => do
      readDocuments inner.words
      modify fun reader => { reader with pushed := true, last := .endOfFile }
      return .inr found
    match ← readToken inner.words with
    | .newline =>
        readDocuments inner.words
        return .inr found
    | .endOfFile => endAll found
    | token =>
        pushBack
        if !oneLine && mayEnd && endsCommands token then return .inr found
        else
          let command ← readGated inner
          let behind ← readToken inner.words
          let command := match behind with
            | .ampersand => inBackground command
            | _ => command
          let found := some (match found with
            | none => command
            | some before => .sequence before command)
          match behind with
          | .endOfFile => endAll found
          | .newline =>
              pushBack
              return .inl (found, true)
          | .ampersand => return .inl (found, true)
          | .semicolon => return .inl (found, true)
          | _ =>
              if oneLine then refuseToken none
              else
                pushBack
                return .inr found

/-- Reads what is to be read. `fuel` bounds how deep commands stand in commands. -/
def parseGoal : Nat → Goal → Parse (Option Command)
  | 0, _ => complainSyntax "too deep"
  | fuel + 1, goal =>
      let words : WordReader :=
        ⟨none, parseGoal fuel .anyCommands, closeSubstitution fuel⟩
      let inner : Inner := ⟨words, parseGoal fuel⟩
      match goal with
      | .command => commandOf inner
      | goal => listOf inner goal
where
  closeSubstitution (_ : Nat) : Parse Unit := do
    match (← get).last, (← get).pushed with
    | .closeParenthesis, true => modify fun reader => { reader with pushed := false }
    | _, _ => refuseToken (some .closeParenthesis)

def commandDepth : Nat := 100000

/-- Reads the commands of one line. There are none on a blank line, and at the end of the
script. -/
def parseLine : Parse (Option Command) :=
  parseGoal commandDepth .line

def parseText : Parse Word := do
  let nothing : Delimiter := ⟨[Char.ofNat 0], false⟩
  let words : WordReader :=
    ⟨some nothing, parseGoal commandDepth .anyCommands, parseGoal.closeSubstitution commandDepth⟩
  let parts ← readParts words wordDepth .document
  return parts.found.reverse

def Reader.atEnd (reader : Reader) : Bool :=
  reader.pushed && match reader.last with
    | .endOfFile => true
    | _ => false

/-- A reader of a text; `ended` tells that nothing stands behind it. -/
def Reader.ofText (text : Octets) (ended : Bool) (aliases : List (Octets × Octets))
    (nextDocument : Nat) : Reader :=
  ⟨text, ended, 1, aliases, [], false, .newline, [], .none, [], [], nextDocument, false, false,
    0⟩

end PipelineShell.Script

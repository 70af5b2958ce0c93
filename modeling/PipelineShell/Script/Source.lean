import PipelineShell.Script.Tree

/-!
Scripts as they are read, character by character. What has not been read may be only the front of
what there is: a reader that comes to the end of the front asks for more, and reading starts again
from the command it was at. A backslash in front of a line feed joins two lines nearly everywhere.
-/

namespace PipelineShell.Script

/-- A word of the language. -/
inductive Keyword where
  | not | case | do | done | elif | else | esac | fi | for | if | in | then | until | while
  | opening | closing
deriving DecidableEq, Repr

def Keyword.spelling : Keyword → String
  | .not => "!"
  | .case => "case"
  | .do => "do"
  | .done => "done"
  | .elif => "elif"
  | .else => "else"
  | .esac => "esac"
  | .fi => "fi"
  | .for => "for"
  | .if => "if"
  | .in => "in"
  | .then => "then"
  | .until => "until"
  | .while => "while"
  | .opening => "\x7b"
  | .closing => "\x7d"

def Keyword.all : List Keyword :=
  [.not, .case, .do, .done, .elif, .else, .esac, .fi, .for, .if, .in, .then, .until, .while,
    .opening, .closing]

def Keyword.ofText? (text : Octets) : Option Keyword :=
  Keyword.all.find? fun keyword => keyword.spelling.toList == text

/-- What a script is made of. -/
inductive Token where
  | endOfFile
  | newline
  | semicolon
  | doubleSemicolon
  | ampersand
  | doubleAmpersand
  | bar
  | doubleBar
  | openParenthesis
  | closeParenthesis
  /-- The sign of a redirection; `stripping` tells that a document is read without tabs in front
  of its lines. -/
  | redirection (kind : RedirectionKind) (fd : Nat) (stripping : Bool)
  | word (word : Word) (quoted : Bool)
  | keyword (keyword : Keyword)

def Token.shown : Token → String
  | .endOfFile => "end of file"
  | .newline => "newline"
  | .semicolon => "\";\""
  | .doubleSemicolon => "\";;\""
  | .ampersand => "\"&\""
  | .doubleAmpersand => "\"&&\""
  | .bar => "\"|\""
  | .doubleBar => "\"||\""
  | .openParenthesis => "\"(\""
  | .closeParenthesis => "\")\""
  | .redirection _ _ _ => "redirection"
  | .word _ _ => "word"
  | .keyword which => "\"" ++ which.spelling ++ "\""

/-- The end of a document. -/
structure Delimiter where
  text : Octets
  stripping : Bool
deriving DecidableEq, Repr

/-- A document that has been announced and not been read. -/
structure Announced where
  number : Nat
  delimiter : Delimiter
  literal : Bool
deriving DecidableEq, Repr

/-- What a reader looks for in the next token. -/
structure Checks where
  lines : Bool
  keywords : Bool
  aliases : Bool
  delimiter : Bool
deriving DecidableEq, Repr

def Checks.none : Checks :=
  ⟨false, false, false, false⟩

def Checks.command : Checks :=
  ⟨false, true, true, false⟩

def Checks.laterCommand : Checks :=
  ⟨true, true, true, false⟩

/-- A reader of a script. -/
structure Reader where
  /-- What has not been read. The texts of aliases are in it, with a mark behind each. -/
  text : Octets
  ended : Bool
  line : Nat
  aliases : List (Octets × Octets)
  busy : List (Octets × Bool)
  pushed : Bool
  last : Token
  word : Word
  checks : Checks
  announced : List Announced
  documents : List (Nat × Word)
  nextDocument : Nat
  prompting : Bool
  due : Bool
  prompts : Nat

/-- Why a command cannot be read. -/
inductive Obstacle where
  | unfinished
  | fault (line prompts : Nat) (text : Octets)
deriving DecidableEq, Repr

abbrev Parse := StateT Reader (Except Obstacle)

def aliasEnd : Char :=
  Char.ofNat 0x100

def complainSyntax {α : Type} (text : String) : Parse α := do
  let reader ← get
  throw (.fault reader.line reader.prompts ("Syntax error: " ++ text).toList)

def parseEndurance : Nat := 1000000000000

def parseWithin {σ α : Type} (step : σ → Parse (σ ⊕ α)) : Nat → σ → Parse α
  | 0, _ => throw .unfinished
  | rounds + 1, state => do
      match ← step state with
      | .inl state => parseWithin step rounds state
      | .inr value => return value

def parseLoop {σ α : Type} (start : σ) (step : σ → Parse (σ ⊕ α)) : Parse α :=
  parseWithin step parseEndurance start

/-! ### Characters -/

/-- Passes over the marks behind aliases. The word behind an alias that ends in a blank may be one
too. -/
def passMarks : Octets → Reader → Reader
  | character :: rest, reader =>
      if character == aliasEnd then
        let blank := (reader.busy.head?.map Prod.snd).getD false
        let checks := if blank then { reader.checks with aliases := true } else reader.checks
        passMarks rest { reader with text := rest, busy := reader.busy.tail, checks }
      else { reader with text := character :: rest }
  | [], reader => { reader with text := [] }

/-- The next character as it stands; nothing at the end. -/
def nextCharacter : Parse (Option Char) := do
  modify fun reader => passMarks reader.text reader
  let reader ← get
  match reader.text with
  | [] => if reader.ended then return none else throw .unfinished
  | character :: rest =>
      set { reader with text := rest }
      return some character

def unread (character : Option Char) : Parse Unit :=
  modify fun reader => { reader with text := character.toList ++ reader.text }

def countLine : Parse Unit :=
  modify fun reader => { reader with
    line := reader.line + 1
    due := false
    prompts := if reader.prompting then reader.prompts + 1 else reader.prompts }

/-- Counts a line. The next one is prompted for once it is needed. -/
def endLine : Parse Unit :=
  modify fun reader => { reader with line := reader.line + 1, due := reader.prompting }

def promptIfDue : Parse Unit :=
  modify fun reader =>
    if reader.due then { reader with due := false, prompts := reader.prompts + 1 } else reader

def nextJoined : Parse (Option Char) :=
  parseLoop () fun () => do
    match ← nextCharacter with
    | some '\\' =>
        match ← nextCharacter with
        | some '\n' =>
            countLine
            return .inl ()
        | character =>
            unread character
            return .inr (some '\\')
    | character => return .inr character

/-! ### Documents -/

def behindDelimiter? (ended : Bool) : Octets → Octets → Except Obstacle (Option Octets)
  | [], [] => if ended then .ok (some []) else .error .unfinished
  | [], character :: rest => .ok (if character == '\n' then some rest else none)
  | _ :: _, [] => if ended then .ok none else .error .unfinished
  | expected :: delimiter, character :: rest =>
      if expected == character then behindDelimiter? ended delimiter rest else .ok none

/-- Passes over the tabs in front of a line, and over the line if it is the delimiter; the value
tells whether it is. -/
def passDelimiter (delimiter : Delimiter) : Parse Bool := do
  let reader ← get
  let text := if delimiter.stripping then reader.text.dropWhile (· == '\t') else reader.text
  if text.isEmpty && !reader.ended then throw .unfinished
  match ← behindDelimiter? reader.ended delimiter.text text with
  | some rest =>
      set { reader with text := rest }
      endLine
      return true
  | none =>
      set { reader with text }
      return false

def readLiteral (delimiter : Delimiter) : Parse Word :=
  parseLoop ([] : Word) fun found => do
    if ← passDelimiter delimiter then return .inr found.reverse
    else
      parseLoop found fun found => do
        match ← nextCharacter with
        | none => return .inr (.inr found.reverse)
        | some '\n' =>
            countLine
            return .inr (.inl (.character true '\n' :: found))
        | some character => return .inl (.character true character :: found)

/-! ### Words -/

/-- What ends a part of a word. -/
inductive Closing where
  | word
  /-- A double quote; `inBraces` tells whether braces are open around the quotes. -/
  | quote (inBraces : Bool)
  | brace (double : Bool)
  | arithmetic
  | document
deriving DecidableEq, Repr

def Closing.isDouble : Closing → Bool
  | .word => false
  | .quote _ => true
  | .brace double => double
  | .arithmetic => true
  | .document => true

/-- What a word is read with: the document it stands in, if it does, and a way to read commands. -/
structure WordReader where
  document : Option Delimiter
  commands : Parse (Option Command)
  closeCommands : Parse Unit

def missing (reader : WordReader) : Closing → String
  | .arithmetic => "Missing '))'"
  | .brace false => "Missing '\x7d'"
  | .brace true =>
      if reader.document.isSome then "Missing '\x7d'" else "Unterminated quoted string"
  | _ => "Unterminated quoted string"

def endsWord (character : Char) : Bool :=
  "\n\t <>();&|".toList.contains character

def isSpecial (character : Char) : Bool :=
  "#?$!-*@".toList.contains character || character.isDigit

def readSingle (found : Word) : Parse Word :=
  parseLoop found fun found => do
    match ← nextCharacter with
    | none => complainSyntax "Unterminated quoted string"
    | some character =>
        if character == Char.ofNat 0x27 then return .inr found
        else
          if character == '\n' then
            countLine
          return .inl (.character true character :: found)

def readName (isInside : Char → Bool) (first : Char) : Parse (Octets × Option Char) :=
  parseLoop [first] fun found => do
    match ← nextJoined with
    | some character =>
        if isInside character then return .inl (character :: found)
        else return .inr (found.reverse, some character)
    | none => return .inr (found.reverse, none)

def inText {α : Type} (text : Octets) (read : Parse α) : Parse α := do
  let outer ← get
  set { outer with text, ended := true, line := 1, busy := [], pushed := false
                   prompting := false }
  let value ← read
  modify fun inner =>
    { inner with text := outer.text, ended := outer.ended, line := outer.line
                 busy := outer.busy, pushed := false, prompting := outer.prompting }
  return value

/-- Reads the text between back quotes; `double` tells whether it stands between double quotes. -/
def readBackquoted (double : Bool) : Parse Octets :=
  parseLoop ([] : Octets) fun found => do
    promptIfDue
    match ← nextJoined with
    | none => complainSyntax "EOF in backquote substitution"
    | some '\\' =>
        match ← nextCharacter with
        | none => return .inl ('\\' :: found)
        | some character =>
            let kept := character == '\\' || character == Char.ofNat 0x60 || character == '$'
              || (double && character == '"')
            return .inl (character :: if kept then found else '\\' :: found)
    | some character =>
        if character == Char.ofNat 0x60 then return .inr found.reverse
        else
          if character == '\n' then
            endLine
          return .inl (character :: found)

def readInner {α : Type} (read : Parse α) : Parse α := do
  let outer := (← get).announced
  modify fun reader => { reader with announced := [] }
  let value ← read
  modify fun reader => { reader with announced := outer }
  return value

def readSubstitution (reader : WordReader) : Parse (Option Command) :=
  readInner do
    let command ← reader.commands
    reader.closeCommands
    return command

def readOldSubstitution (reader : WordReader) (double : Bool) : Parse (Option Command) := do
  let text ← readBackquoted double
  readInner (inText text reader.commands)

/-- What stands behind the dollar sign of a parameter: its name and its use. -/
structure ParameterHead where
  name : Octets
  use : Use
  orEmpty : Bool
  hasWord : Bool

/-- Reads the use of a parameter, behind its name; `next` is the first character. -/
def readUse (name : Octets) (next : Option Char) : Parse ParameterHead := do
  let (orEmpty, next) ← if next == some ':' then do pure (true, ← nextJoined)
    else pure (false, next)
  let doubled := fun (character : Char) => do
    let behind ← nextJoined
    if behind == some character then return true
    else
      unread behind
      return false
  match next with
  | some '-' => return ⟨name, .default, orEmpty, true⟩
  | some '+' => return ⟨name, .alternative, orEmpty, true⟩
  | some '?' => return ⟨name, .demand, orEmpty, true⟩
  | some '=' => return ⟨name, .assign, orEmpty, true⟩
  | some '%' =>
      if orEmpty then return ⟨name, .wrong, true, true⟩
      else return ⟨name, .cutEnd (← doubled '%'), false, true⟩
  | some '#' =>
      if orEmpty then return ⟨name, .wrong, true, true⟩
      else return ⟨name, .cutStart (← doubled '#'), false, true⟩
  | some character =>
      if character.toNat == 0x7d then return ⟨name, .value, orEmpty, orEmpty⟩
      else return ⟨name, .wrong, orEmpty, true⟩
  | none => return ⟨name, .wrong, orEmpty, true⟩

/-- Reads the length of a parameter, behind the number sign, of which `next` is the first
character; nothing if the sign does not ask for a length. -/
def readLength? (next : Option Char) : Parse (Option ParameterHead) := do
  let close := fun (name : Octets) (behind : Option Char) => do
    unread behind
    return some ⟨name, if behind == some (Char.ofNat 0x7d) then .length else .wrong, false, true⟩
  match next with
  | some first =>
      if isInName first then
        let isInside := if first.isDigit then Char.isDigit else isInName
        let (name, behind) ← readName isInside first
        close name behind
      else
        let behind ← nextJoined
        if next == some (Char.ofNat 0x7d) || behind != some (Char.ofNat 0x7d) then
          unread behind
          return none
        else if isSpecial first then close [first] behind
        else
          unread behind
          return some ⟨[first], .wrong, false, true⟩
  | none => return none

def readBraced : Parse ParameterHead := do
  match ← nextJoined with
  | some first =>
      if startsName first then
        let (name, next) ← readName isInName first
        readUse name next
      else if first.isDigit then
        let (name, next) ← readName Char.isDigit first
        readUse name next
      else if first.toNat == 0x7d then
        unread (some first)
        return ⟨[], .wrong, false, true⟩
      else
        let next ← nextJoined
        let length ← if first == '#' then readLength? next else pure none
        match length with
        | some head => return head
        | none =>
            if isSpecial first then readUse [first] next
            else
              unread next
              return ⟨[first], .wrong, false, true⟩
  | none => return ⟨[], .wrong, false, true⟩

def readBare (first : Char) : Parse ParameterHead := do
  if startsName first then
    let (name, next) ← readName isInName first
    unread next
    return ⟨name, .value, false, false⟩
  else return ⟨[first], .value, false, false⟩

/-- What ends the word of a parameter. Patterns are read as if they were not quoted. -/
def wordClosing (double : Bool) : Use → Closing
  | .cutEnd _ => .brace false
  | .cutStart _ => .brace false
  | _ => .brace double

/-- The state of reading the parts of a word. -/
structure Parts where
  found : Word
  inner : Bool
  depth : Nat
  quoted : Bool

def Parts.start : Parts :=
  ⟨[], false, 0, false⟩

def Parts.add (parts : Parts) (part : Part) : Parts :=
  { parts with found := part :: parts.found }

/-- What stands behind a backslash; `double` tells whether the text is as between double quotes,
where the backslash stays in front of most characters. -/
def afterBackslash (parts : Parts) (reader : WordReader) (closing : Closing) : Parse Parts := do
  match ← nextCharacter with
  | none => return parts.add (.character true '\\')
  | some character =>
      let inBraces := match closing with
        | .brace _ => true
        | .quote inBraces => inBraces
        | _ => false
      let loses := !closing.isDouble || character == '\\' || character == Char.ofNat 0x60
        || character == '$' || (character == '"' && (reader.document.isNone || inBraces))
        || (character.toNat == 0x7d && inBraces)
      let parts := if loses then { parts with quoted := true }
        else parts.add (.character true '\\')
      return parts.add (.character true character)

/-- Reads what stands behind a dollar sign; `readInside` reads what stands inside it. -/
def readDollar (reader : WordReader) (readInside : Closing → Parse Parts) (quoted : Bool)
    (closing : Closing) : Parse Part := do
  let next ← nextJoined
  let delimiter := (← get).checks.delimiter
  match next with
  | some '(' =>
      if delimiter then
        unread next
        return .character quoted '$'
      else
        let behind ← nextJoined
        if behind == some '(' then
          let inside ← readInside .arithmetic
          return .arithmetic quoted inside.found.reverse
        else
          unread behind
          return .substitution quoted (← readSubstitution reader)
  | some character =>
      let braced := character.toNat == 0x7b
      if delimiter || !(braced || startsName character || isSpecial character) then
        unread next
        return .character quoted '$'
      else
        let head ← if braced then readBraced else readBare character
        if head.hasWord then
          let inside ← readInside (wordClosing closing.isDouble head.use)
          return .parameter quoted head.name head.use head.orEmpty inside.found.reverse
        else return .parameter quoted head.name head.use head.orEmpty []
  | none => return .character quoted '$'

/-- Reads the parts of a word. `fuel` bounds how deep words stand in words. -/
def readParts (reader : WordReader) : Nat → Closing → Parse Parts
  | 0, _ => throw .unfinished
  | fuel + 1, closing =>
      parseLoop Parts.start fun parts => do
        let double := closing.isDouble
        let quotedHere := double && closing != .arithmetic
        match ← nextJoined with
        | none =>
            match closing with
            | .word => return .inr parts
            | .document => return .inr parts
            | closing => complainSyntax (missing reader closing)
        | some character =>
            if closing == .word && endsWord character then
              unread (some character)
              return .inr parts
            else if character == '\n' then
              countLine
              let parts := parts.add (.character quotedHere character)
              match reader.document with
              | none => return .inl parts
              | some delimiter =>
                  if ← passDelimiter delimiter then
                    if closing == .document then return .inr parts
                    else complainSyntax (missing reader closing)
                  else return .inl parts
            else if character == '\\' then
              return .inl (← afterBackslash parts reader closing)
            else if character == '$' then
              return .inl (parts.add (← readDollar reader (readParts reader fuel) quotedHere closing))
            else if character.toNat == 0x60 then
              if (← get).checks.delimiter then
                return .inl (parts.add (.character quotedHere character))
              else
                let command ← readOldSubstitution reader double
                return .inl (parts.add (.substitution quotedHere command))
            else if character.toNat == 0x27 && !double then
              let found ← readSingle (.mark :: parts.found)
              return .inl { parts with found := .mark :: found, quoted := true }
            else if character == '"' && !double then
              let inside ← readParts reader fuel (.quote (closing != .word))
              return .inl { parts with
                found := .mark :: (inside.found ++ .mark :: parts.found), quoted := true }
            else
              match closing, character with
              | .quote _, '"' => return .inr parts
              | .brace true, '"' =>
                  return .inl { parts.add .mark with inner := !parts.inner, quoted := true }
              | .brace _, character =>
                  if character.toNat == 0x7d && !parts.inner then return .inr parts
                  else return .inl (parts.add (.character quotedHere character))
              | .arithmetic, '(' =>
                  return .inl { parts.add (.character false '(') with depth := parts.depth + 1 }
              | .arithmetic, ')' =>
                  if 0 < parts.depth then
                    return .inl { parts.add (.character false ')') with depth := parts.depth - 1 }
                  else
                    let next ← nextJoined
                    if next == some ')' then return .inr parts
                    else
                      unread next
                      return .inl (parts.add (.character false ')'))
              | _, character => return .inl (parts.add (.character quotedHere character))
def wordDepth : Nat := 100000

def readDocument (reader : WordReader) (delimiter : Delimiter) : Parse Word := do
  if ← passDelimiter delimiter then return []
  else
    let parts ← readParts { reader with document := some delimiter } wordDepth .document
    return parts.found.reverse

end PipelineShell.Script

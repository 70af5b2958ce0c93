import PipelineShell.Host.Layout
import PipelineShell.Script.Arithmetic
import PipelineShell.Script.Interpreter
import PipelineShell.Script.Pattern

/-!
Words become texts: parameters, substitutions and expressions are replaced by what they stand for.
What comes out of an unquoted replacement is split into fields, and a field that is a pattern
becomes the names of the files that it matches.
-/

namespace PipelineShell.Script

/-! ### Fields -/

/-- A piece of an expanded word. -/
inductive Cell where
  | glyph (glyph : Glyph)
  | mark
  | boundary
deriving DecidableEq, Repr

/-- Where cells may be split. -/
inductive Splitting where
  | nowhere
  | fields
  | boundaries
deriving DecidableEq, Repr

/-- Cells that are split in the same way. -/
structure Chunk where
  cells : List Cell
  splitting : Splitting
deriving DecidableEq, Repr

def cellsOf (quoted : Bool) (text : Octets) : List Cell :=
  text.map fun character => .glyph ⟨quoted, character⟩

def glyphsOf (cells : List Cell) : List Glyph :=
  cells.filterMap fun
    | .glyph glyph => some glyph
    | _ => none

def chunkGlyphs (chunks : List Chunk) : List Glyph :=
  chunks.flatMap fun chunk => glyphsOf chunk.cells

def chunkText (chunks : List Chunk) : Octets :=
  Glyph.text (chunkGlyphs chunks)

/-- Where the splitting of a word stands. -/
structure Splitter where
  fields : List (List Cell)
  current : List Cell
  behindBlank : Bool
  afterWords : Bool
deriving DecidableEq, Repr

def Splitter.close (splitter : Splitter) : Splitter :=
  { splitter with fields := splitter.current.reverse :: splitter.fields, current := [] }

def Cell.separates (separators : Octets) (onlyBoundaries : Bool) : Cell → Bool
  | .glyph written => !onlyBoundaries && separators.contains written.character
  | .mark => false
  | .boundary => true

def Cell.isBlank : Cell → Bool
  | .glyph written => standardSeparators.contains written.character
  | .mark => false
  | .boundary => true

def Splitter.separate (blank joins : Bool) (splitter : Splitter) : Splitter :=
  if splitter.behindBlank then
    if blank then splitter else { splitter with behindBlank := false }
  else if splitter.current.isEmpty && blank && joins then splitter
  else { splitter.close with behindBlank := blank && joins }

def Splitter.step (separators : Octets) (onlyBoundaries afterWords : Bool) (splitter : Splitter)
    (cell : Cell) : Splitter :=
  if cell.separates separators onlyBoundaries then
    splitter.separate cell.isBlank !(afterWords || onlyBoundaries)
  else { splitter with current := cell :: splitter.current, behindBlank := false }

def Splitter.take (separators : Octets) (splitter : Splitter) (chunk : Chunk) : Splitter :=
  match chunk.splitting with
  | .nowhere => { splitter with current := chunk.cells.reverse ++ splitter.current }
  | splitting =>
      let onlyBoundaries := splitting = .boundaries
      let start := { splitter with behindBlank := false, afterWords := onlyBoundaries }
      chunk.cells.foldl (Splitter.step separators onlyBoundaries splitter.afterWords) start

def splitFields (separators : Octets) (chunks : List Chunk) : List (List Cell) :=
  let splitter := chunks.foldl (Splitter.take separators) ⟨[], [], false, false⟩
  let last := if splitter.current.isEmpty && !splitter.afterWords then splitter
    else splitter.close
  last.fields.reverse

/-! ### Names of files -/

/-- The names that a pattern matches behind a path. `fuel` bounds the number of names in the
pattern. -/
def matchingPaths (path : Octets) : Nat → List Glyph → Run (List Octets)
  | 0, _ => return []
  | fuel + 1, glyphs => do
      match splitPattern? (glyphs.length + 1) glyphs with
      | none =>
          if path.isEmpty then return []
          else
            let found := path ++ Glyph.text glyphs
            match ← ask (.lookAt found false) with
            | .ok _ => return [found]
            | .error _ => return []
      | some (front, name, rest) =>
          let directory := path ++ Glyph.text front
          match ← ask (.names (if directory.isEmpty then ['.'] else directory)) with
          | .error _ => return []
          | .ok names =>
              let found := (['.'] :: ['.', '.'] :: names).filter (matchesName name)
              match rest with
              | none => return found.map (directory ++ ·)
              | some rest =>
                  return (← found.mapM fun name =>
                    matchingPaths (directory ++ name ++ ['/']) fuel rest).flatten

def pathsOf (field : List Cell) : Run (List Octets) := do
  let glyphs := glyphsOf field
  let pattern := resolveBackslashes glyphs
  if (← has "noglob") || !holdsPattern pattern then return [Glyph.text glyphs]
  else
    let paths ← matchingPaths [] (pattern.length + 1) pattern
    if paths.isEmpty then return [Glyph.text glyphs]
    else return paths.mergeSort Octets.isAtMost

/-! ### Parameters -/

/-- How a word is expanded. -/
structure Manner where
  full : Bool
  quoted : Bool
  splitsText : Bool
  tilde : Bool
  tildes : Bool
deriving DecidableEq, Repr

def Manner.operand : Manner :=
  ⟨true, false, false, true, false⟩

def Manner.plain : Manner :=
  ⟨false, false, false, true, false⟩

def Manner.value : Manner :=
  ⟨false, false, false, true, true⟩

def Manner.expression : Manner :=
  ⟨false, false, false, false, false⟩

def Manner.document : Manner :=
  ⟨false, true, false, false, false⟩

def betweenParameters (state : Interpreter) (full quoted : Bool) (name : Octets) : List Cell :=
  if name == ['@'] && quoted && full then [.boundary]
  else if quoted || !full then
    cellsOf quoted (match state.value? "IFS".toList with
      | some separators => separators.take 1
      | none => [' '])
  else if (state.value? "IFS".toList).isSome then [.boundary]
  else cellsOf false [' ']

def joinCells (quoted : Bool) (between : List Cell) : List Octets → List Cell
  | [] => []
  | [word] => cellsOf quoted word
  | word :: rest => cellsOf quoted word ++ between ++ joinCells quoted between rest

def Interpreter.optionLetters (state : Interpreter) : Octets :=
  (optionNames.filterMap fun (name, letter) => if state.has name then letter else none).reverse

def parameterCells (full quoted : Bool) (name : Octets) : Run (Option (List Cell)) := do
  let state ← get
  let number := fun (value : Int) => some (cellsOf quoted (Octets.ofNumber value))
  match name with
  | ['$'] => return number state.root.number
  | ['?'] => return number state.status
  | ['#'] => return number state.parameters.words.length
  | ['!'] => return state.lastBackground.bind fun pid => number pid.number
  | ['-'] => return some (cellsOf quoted state.optionLetters)
  | _ =>
      if name == ['@'] || name == ['*'] then
        return some (joinCells quoted (betweenParameters state full quoted name)
          state.parameters.words)
      else if name.all Char.isDigit then
        let place := Numeral.valueOf 10 name
        let found := if place = 0 then some state.name else state.parameters.words[place - 1]?
        return found.map (cellsOf quoted)
      else return (state.value? name).map (cellsOf quoted)

def parameterSplitting (state : Interpreter) (full quoted : Bool) (name : Octets) : Splitting :=
  if !full then .nowhere
  else if !quoted then .fields
  else if name == ['@'] && !state.parameters.words.isEmpty then .boundaries
  else .nowhere

def textsOf (cells : List Cell) : List Octets :=
  let (first, rest) := cells.foldr (fun cell (first, rest) =>
    match cell with
    | .glyph glyph => (glyph.character :: first, rest)
    | .mark => (first, rest)
    | .boundary => ([], first :: rest)) (([], []) : Octets × List Octets)
  first :: rest

/-! ### Words -/

def homeOf (state : Interpreter) (user : Octets) : Option Octets :=
  if user.isEmpty then state.value? "HOME".toList
  else (Host.homeDirectory? user).map String.toList

/-- The name behind a tilde, and the parts behind the name; nothing if it is not plain. -/
def tildeName? (tildes : Bool) : List Part → Option (Octets × List Part)
  | [] => some ([], [])
  | .character false character :: rest =>
      if character == '/' || (tildes && character == ':') then
        some ([], .character false character :: rest)
      else (tildeName? tildes rest).map fun (name, behind) => (character :: name, behind)
  | _ => none

def tildeFront? (state : Interpreter) (tildes : Bool) : List Part → Option (Octets × List Part)
  | .character false '~' :: rest => do
      let (name, behind) ← tildeName? tildes rest
      return (← homeOf state name, behind)
  | _ => none

def plainFront : List Part → Octets × List Part
  | .character false character :: rest =>
      let (text, behind) := plainFront rest
      (character :: text, behind)
  | parts => ([], parts)

def plainFrontToColon : List Part → Octets × List Part
  | .character false character :: rest =>
      if character == ':' then ([character], rest)
      else
        let (text, behind) := plainFrontToColon rest
        (character :: text, behind)
  | parts => ([], parts)

/-- How to expand what stands inside words. -/
structure Expander where
  substitute : Option Command → Run Octets

def overflowSignal : Nat := 8

def refuseExpression {α : Type} (text : Octets) : Arithmetic.Fault → Run α
  | .expression fault =>
      fail ("arithmetic expression: ".toList ++ fault.toList ++ ": \"".toList ++ text ++ ['"'])
  | .notNumber value => refuseNumber value
  | .overflow => do
      ask (.die (.killed overflowSignal))
      stop .error

def expressionVariables : Arithmetic.Variables Run :=
  ⟨fun name => return (← get).value? name, fun name value => assign name value false⟩

def evaluateExpression (text : Octets) : Run Octets := do
  match ← Arithmetic.evaluate expressionVariables text with
  | .error fault => refuseExpression text fault
  | .ok value => return Octets.ofNumber value.toInt

def notSet (name : Octets) : Octets :=
  name ++ ": parameter not set".toList

/-- What comes of expanding parts. -/
structure Expanded where
  chunks : List Chunk
  left : List (List Part)

/-- Expands the parts of a word. `fuel` bounds how deep words stand in words. A parameter that is
used as it is and has a word all the same ends what stands around it at the end of that word. -/
def expandParts (expander : Expander) : Nat → Manner → List Part → Run Expanded
  | 0, _, _ => fail "too deep".toList
  | fuel + 1, manner, parts => do
      let expandInside := expandParts expander fuel
      let (start, parts) ← tilded manner parts
      loop (start, parts, ([] : List (List Part))) fun (found, parts, left) => do
        match parts with
        | [] => return .inr ⟨found.reverse, left⟩
        | .mark :: .parameter true ['@'] .value false [] :: .mark :: rest =>
            let chunk ← plainParameter manner true ['@']
            return .inl (chunk :: found, rest, left)
        | .mark :: rest => return .inl (⟨[.mark], .nowhere⟩ :: found, rest, left)
        | .character false character :: rest =>
            if manner.tildes then
              let (text, rest) := plainFrontToColon (.character false character :: rest)
              let chunk : Chunk := ⟨cellsOf false text, .nowhere⟩
              if text.getLast? == some ':' then
                let (more, rest) ← tilded { manner with tilde := true } rest
                return .inl (more ++ chunk :: found, rest, left)
              else return .inl (chunk :: found, rest, left)
            else
              let (text, rest) := plainFront (.character false character :: rest)
              let splits := manner.splitsText && !manner.quoted && manner.full
              return .inl
                (⟨cellsOf false text, if splits then .fields else .nowhere⟩ :: found, rest, left)
        | .character true character :: rest =>
            return .inl (⟨cellsOf true [character], .nowhere⟩ :: found, rest, left)
        | .substitution quoted command :: rest =>
            let quoted := quoted || manner.quoted
            let text ← expander.substitute command
            return .inl (replaced manner quoted text :: found, rest, left)
        | .arithmetic quoted word :: rest =>
            let quoted := quoted || manner.quoted
            let text := chunkText (← expandInside .expression word).chunks
            return .inl (replaced manner quoted (← evaluateExpression text) :: found, rest, left)
        | .parameter quoted name .value true word :: rest =>
            let chunk ← plainParameter manner (quoted || manner.quoted) name
            if chunk.cells.isEmpty && (← has "nounset") then fail (notSet name)
            return .inl (chunk :: found, word, rest :: left)
        | .parameter quoted name use orEmpty word :: rest =>
            let quoted := quoted || manner.quoted
            let expanded ← expandParameter expandInside manner quoted name use orEmpty word
            let found := expanded.chunks.reverse ++ found
            match expanded.left with
            | [] => return .inl (found, rest, left)
            | parts :: others => return .inl (found, parts, others ++ rest :: left)
where
  tilded (manner : Manner) (parts : List Part) : Run (List Chunk × List Part) := do
    let state ← get
    let front := if manner.tilde then tildeFront? state manner.tildes parts else none
    match front with
    | some (home, rest) => return ([⟨cellsOf true home, .nowhere⟩], rest)
    | none => return ([], parts)
  replaced (manner : Manner) (quoted : Bool) (text : Octets) : Chunk :=
    ⟨cellsOf quoted text, if quoted || !manner.full then .nowhere else .fields⟩
  plainParameter (manner : Manner) (quoted : Bool) (name : Octets) : Run Chunk := do
    match ← parameterCells manner.full quoted name with
    | some cells =>
        return ⟨cells, parameterSplitting (← get) manner.full quoted name⟩
    | none =>
        if ← has "nounset" then fail (notSet name)
        else return ⟨[], parameterSplitting (← get) manner.full quoted name⟩
  expandParameter (expandInside : Manner → List Part → Run Expanded) (manner : Manner)
      (quoted : Bool) (name : Octets) (use : Use) (orEmpty : Bool) (word : List Part) :
      Run Expanded := do
    let instead := expandInside ⟨manner.full, quoted, true, true, false⟩ word
    let cells ← parameterCells manner.full quoted name
    let isSet := match cells with
      | none => false
      | some cells => !(orEmpty && cells.isEmpty)
    let cutWith := fun (cut : List Glyph → List Octets → List Octets) => do
      let chunk ← plainParameter manner quoted name
      if cells.isNone then return ⟨[chunk], []⟩
      else
        let expanded ← expandInside .plain word
        let texts := cut (chunkGlyphs expanded.chunks) (textsOf chunk.cells)
        let cells := joinCells quoted [.boundary] texts
        return (⟨[⟨cells, chunk.splitting⟩], expanded.left⟩ : Expanded)
    let itself := do
      return ⟨[← plainParameter manner quoted name], []⟩
    match use with
    | .wrong => fail "Bad substitution".toList
    | .value => itself
    | .length =>
        if cells.isNone && (← has "nounset") then fail (notSet name)
        else
          let size := (cells.getD []).length
          return ⟨[replaced manner quoted (Octets.ofNumber size)], []⟩
    | .default => if isSet then itself else instead
    | .alternative => if isSet then instead else return ⟨[], []⟩
    | .assign =>
        if isSet then itself
        else
          let expanded ← expandInside .plain word
          checkName name
          assign name (chunkText expanded.chunks) false
          return ⟨[← plainParameter manner quoted name], expanded.left⟩
    | .demand =>
        if isSet then itself
        else
          let expanded ← expandInside .plain word
          if word.isEmpty then
            fail (notSet name ++ if orEmpty then " or null".toList else [])
          else fail (name ++ ": ".toList ++ chunkText expanded.chunks)
    | .cutEnd longest => cutWith (cutTextsEnd longest)
    | .cutStart longest => cutWith (cutTextsStart longest)

def expansionDepth : Nat := 100000

def expandWord (expander : Expander) (manner : Manner) (word : Word) : Run (List Chunk) :=
  return (← expandParts expander expansionDepth manner word).chunks

def expandText (expander : Expander) (manner : Manner) (word : Word) : Run Octets :=
  return chunkText (← expandWord expander manner word)

def expandPattern (expander : Expander) (word : Word) : Run (List Glyph) :=
  return chunkGlyphs (← expandWord expander .plain word)

def expandOperand (expander : Expander) (word : Word) : Run (List Octets) := do
  let chunks ← expandWord expander .operand word
  let fields := splitFields (← get).separators chunks
  return (← fields.mapM pathsOf).flatten

def expandOperands (expander : Expander) (words : List Word) : Run (List Octets) :=
  return (← words.mapM (expandOperand expander)).flatten

end PipelineShell.Script

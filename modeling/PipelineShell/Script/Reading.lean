import PipelineShell.Script.Settings

/-!
The builtin that reads a line into variables. A backslash quotes the next character, or joins two
lines. The last variable gets all that is left of the line.
-/

namespace PipelineShell.Script

/-- A line that has been read, the last character in front. -/
structure LineRead where
  glyphs : List (Bool × Char)
  escaping : Bool

/-- Reads a line byte by byte; the value tells whether it is complete. -/
def readLine (raw : Bool) : Run (List (Bool × Char) × Bool) :=
  loop (⟨[], false⟩ : LineRead) fun line => do
    match ← ask (.read Fd.input 1) with
    | .error .interrupted =>
        checkSignals
        if (← get).pending.isEmpty then return .inl line
        else return .inr (line.glyphs.reverse, false)
    | .error _ => return .inr (line.glyphs.reverse, false)
    | .ok content =>
        match Octets.ofContent content with
        | [] => return .inr (line.glyphs.reverse, false)
        | character :: _ =>
            if character == Char.ofNat 0 then return .inl line
            else if line.escaping then
              if character == '\n' then return .inl ⟨line.glyphs, false⟩
              else return .inl ⟨(true, character) :: line.glyphs, false⟩
            else if character == '\\' && !raw then return .inl { line with escaping := true }
            else if character == '\n' then return .inr (line.glyphs.reverse, true)
            else return .inl ⟨(false, character) :: line.glyphs, false⟩

def separates (separators : Octets) (glyph : Bool × Char) : Bool :=
  !glyph.1 && separators.contains glyph.2

def isGap (separators : Octets) (glyph : Bool × Char) : Bool :=
  separates separators glyph && standardSeparators.contains glyph.2

def firstField (separators : Octets) (line : List (Bool × Char)) :
    List (Bool × Char) × List (Bool × Char) :=
  let field := line.takeWhile fun glyph => !separates separators glyph
  let behind := (line.drop field.length).dropWhile (isGap separators)
  match behind with
  | glyph :: rest =>
      if separates separators glyph then (field, rest.dropWhile (isGap separators))
      else (field, behind)
  | [] => (field, [])

/-- Where the end of the last field stands. -/
inductive LastStage where
  | field
  | blanks
  | separator
  | later
deriving DecidableEq, Repr

/-- The next stage, and whether the last field may end in front of the character. Characters that
are quoted change nothing. -/
def LastStage.step (stage : LastStage) (isSeparator isBlank : Bool) : LastStage × Bool :=
  match stage with
  | .field =>
      if !isSeparator then (.field, false)
      else if isBlank then (.blanks, true) else (.separator, true)
  | .blanks =>
      if isBlank then (.blanks, true)
      else if isSeparator then (.separator, true) else (.later, false)
  | .separator => if isBlank then (.separator, true) else (.later, false)
  | .later => (.later, isBlank)

def lastEnd (separators : Octets) (line : List (Bool × Char)) : Option Nat :=
  let step := fun (found : LastStage × Option Nat) (entry : (Bool × Char) × Nat) =>
    let (stage, place) := found
    let (glyph, index) := entry
    if glyph.1 then found
    else
      let (stage, mayEnd) := stage.step (separates separators glyph) (isGap separators glyph)
      (stage, if mayEnd then place.or (some index) else none)
  (line.zipIdx.foldl step (.field, none)).2

def fieldsFor (separators : Octets) : Nat → List (Bool × Char) → List (List (Bool × Char))
  | 0, _ => []
  | 1, line => [line.take ((lastEnd separators line).getD line.length)]
  | count + 1, line =>
      if line.isEmpty then []
      else
        let (field, behind) := firstField separators line
        field :: fieldsFor separators count behind

/-- Gives variables the fields of a line; those for which there is none become empty. -/
def assignFields : List Octets → List Octets → Run Unit
  | [], _ => return ()
  | name :: names, fields => do
      checkName name
      assign name (fields.headD []) false
      assignFields names fields.tail

def readStatus (words : List Octets) : Run Int := do
  let (options, names) ← takeOptions "r" "p" words
  if names.isEmpty then fail "arg count".toList
  else
    let raw := options.any fun option => option.1 == 'r'
    let (line, complete) ← readLine raw
    let separators := (← get).separators
    let fields := fieldsFor separators names.length (line.dropWhile (isGap separators))
    assignFields names (fields.map fun field => field.map Prod.snd)
    return if complete then 0 else 1

end PipelineShell.Script

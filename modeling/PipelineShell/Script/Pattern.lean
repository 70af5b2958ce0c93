import PipelineShell.Text.Numeral

/-!
Patterns: a star stands for any text, a question mark for any character, and brackets for one of
the characters between them. What is quoted stands for itself, as does a character behind a
backslash. Of the brackets only those mean something that are closed.
-/

namespace PipelineShell.Script

/-- A character of a pattern. -/
structure Glyph where
  quoted : Bool
  character : Char
deriving DecidableEq, Repr

def Glyph.ofOctets (text : Octets) : List Glyph :=
  text.map (⟨false, ·⟩)

def Glyph.text (glyphs : List Glyph) : Octets :=
  glyphs.map Glyph.character

def Glyph.isSign (glyph : Glyph) (character : Char) : Bool :=
  !glyph.quoted && glyph.character == character

/-- The glyphs with those behind a backslash quoted, and the backslash gone. What has been done
stands in `found`, the last first. -/
def resolveBehind (found : List Glyph) : List Glyph → List Glyph
  | ⟨false, '\\'⟩ :: next :: rest => resolveBehind (⟨true, next.character⟩ :: found) rest
  | glyph :: rest => resolveBehind (glyph :: found) rest
  | [] => found.reverse

def resolveBackslashes (glyphs : List Glyph) : List Glyph :=
  resolveBehind [] glyphs

def characterClasses : List (String × (Char → Bool)) :=
  [("alnum", Char.isAlphanum), ("cntrl", fun c => c.toNat < 32 || c.toNat == 127),
    ("lower", Char.isLower), ("space", Numeral.isSpace), ("alpha", Char.isAlpha),
    ("digit", Char.isDigit), ("print", fun c => 32 ≤ c.toNat && c.toNat < 127),
    ("upper", Char.isUpper), ("blank", fun c => c == ' ' || c == '\t'),
    ("graph", fun c => 32 < c.toNat && c.toNat < 127),
    ("punct", fun c => 32 < c.toNat && c.toNat < 127 && !c.isAlphanum),
    ("xdigit", Numeral.isDigitOf 16)]

def namedClass? (glyphs : List Glyph) : Option ((Char → Bool) × List Glyph) :=
  characterClasses.findSome? fun (name, isMember) =>
    let spelled := Glyph.ofOctets (':' :: name.toList ++ [':', ']'])
    if spelled.isPrefixOf glyphs then some (isMember, glyphs.drop spelled.length) else none

def rank (character : Char) : Int :=
  if character.toNat < 128 then character.toNat else (character.toNat : Int) - 256

/-- Whether a character is one of those between brackets, of which the first glyph has been taken,
and what stands behind the brackets; nothing if they are not closed. `fuel` bounds the number of
glyphs. -/
def inBracketsWithin (character : Char) (found : Bool) :
    Nat → Glyph → List Glyph → Option (Bool × List Glyph)
  | 0, _, _ => none
  | fuel + 1, glyph, rest =>
      let goOn := fun (found : Bool) (rest : List Glyph) =>
        match rest with
        | [] => none
        | next :: behind =>
            if next.isSign ']' then some (found, behind)
            else inBracketsWithin character found fuel next behind
      match if glyph.isSign '[' then namedClass? rest else none with
      | some (isMember, rest) => goOn (found || isMember character) rest
      | none =>
          match rest with
          | dash :: last :: behind =>
              if dash.isSign '-' && !last.isSign ']' then
                goOn (found || (rank glyph.character ≤ rank character
                  && rank character ≤ rank last.character)) behind
              else goOn (found || character == glyph.character) rest
          | rest => goOn (found || character == glyph.character) rest

/-- Whether a character is one of those between brackets, and what stands behind the brackets;
nothing if they are not closed. -/
def inBrackets? (character : Char) (glyphs : List Glyph) : Option (Bool × List Glyph) :=
  let (inverted, glyphs) := match glyphs with
    | first :: rest => if first.isSign '!' then (true, rest) else (false, first :: rest)
    | [] => (false, [])
  match glyphs with
  | [] => none
  | first :: rest =>
      (inBracketsWithin character false glyphs.length first rest).map fun (found, behind) =>
        (found != inverted, behind)

/-- A piece of a pattern. -/
inductive Piece where
  | anything
  | one (accepts : Char → Bool)

/-- The pieces of a pattern without backslashes, put in front of those found, the last first.
`fuel` bounds the number of glyphs. -/
def piecesWithin : Nat → List Piece → List Glyph → List Piece
  | 0, found, _ => found
  | _ + 1, found, [] => found
  | fuel + 1, found, glyph :: rest =>
      if glyph.isSign '*' then piecesWithin fuel (.anything :: found) rest
      else if glyph.isSign '?' then piecesWithin fuel (.one (fun _ => true) :: found) rest
      else match if glyph.isSign '[' then inBrackets? ' ' rest else none with
        | some (_, behind) =>
            let accepts := fun character => (inBrackets? character rest).any Prod.fst
            piecesWithin fuel (.one accepts :: found) behind
        | none => piecesWithin fuel (.one (glyph.character == ·) :: found) rest

def piecesOf (pattern : List Glyph) : List Piece :=
  let glyphs := resolveBackslashes pattern
  piecesWithin glyphs.length [] glyphs

def endsOf (text : Octets) : List Octets :=
  text.foldr (fun character ends => (character :: ends.headD []) :: ends) [[]]

/-- What may be left of some texts behind a piece. All are ends of one text, and are kept in the
order of their lengths, the longest first. -/
def restsBehind (rests : List Octets) : Piece → List Octets
  | .anything => (rests.head?.map endsOf).getD []
  | .one accepts => rests.filterMap fun
      | character :: rest => if accepts character then some rest else none
      | [] => none

def leftBy (pieces : List Piece) (text : Octets) : List Octets :=
  pieces.foldl restsBehind [text]

def isMatch (pattern : List Glyph) (text : Octets) : Bool :=
  (leftBy (piecesOf pattern).reverse text).any List.isEmpty

def cutPieces? (longest : Bool) (pieces : List Piece) (text : Octets) : Option Octets :=
  let rests := leftBy pieces text
  if longest then rests.getLast? else rests.head?

def cutStart? (longest : Bool) (pattern : List Glyph) (text : Octets) : Option Octets :=
  cutPieces? longest (piecesOf pattern).reverse text

/-- The text without the end that a pattern matches, if it matches any: the pieces are taken from
the back. -/
def cutEnd? (longest : Bool) (pattern : List Glyph) (text : Octets) : Option Octets :=
  (cutPieces? longest (piecesOf pattern) text.reverse).map List.reverse

/-- Texts one behind another without the start that a pattern matches. It matches in the first text
alone; if the longest start is all of that, nothing is left of the others either. -/
def cutTextsStart (longest : Bool) (pattern : List Glyph) : List Octets → List Octets
  | [] => []
  | text :: rest =>
      match cutStart? longest pattern text with
      | some [] => if longest then [[]] else [] :: rest
      | some left => left :: rest
      | none => text :: rest

/-- Texts one behind another without the shortest end that a pattern matches, if it matches any: it
begins in the last text where it matches, and what is behind that text goes with it. -/
def cutShortestEnd? (pattern : List Glyph) : List Octets → Option (List Octets)
  | [] => none
  | text :: rest =>
      match cutShortestEnd? pattern rest with
      | some left => some (text :: left)
      | none => (cutEnd? false pattern text).map fun left => [left]

/-- Texts one behind another without the end that a pattern matches. The longest end begins in the
first text. -/
def cutTextsEnd (longest : Bool) (pattern : List Glyph) (texts : List Octets) : List Octets :=
  if longest then
    match texts with
    | [] => []
    | text :: rest => ((cutEnd? true pattern text).map fun left => [left]).getD (text :: rest)
  else (cutShortestEnd? pattern texts).getD texts

/-! ### Names of files -/

def isClosed : List Glyph → Bool
  | [] => false
  | glyph :: rest =>
      let rest := if glyph.isSign '!' then rest else glyph :: rest
      closedBehind rest
where
  closedBehind : List Glyph → Bool
    | [] => false
    | glyph :: rest =>
        if glyph.character == '/' then false
        else match rest with
          | next :: _ => next.isSign ']' || closedBehind rest
          | [] => false

def holdsPattern : List Glyph → Bool
  | [] => false
  | glyph :: rest =>
      glyph.isSign '*' || glyph.isSign '?' || (glyph.isSign '[' && isClosed rest)
        || holdsPattern rest

def untilSlash (glyphs : List Glyph) : List Glyph × List Glyph :=
  let front := glyphs.takeWhile fun glyph => glyph.character != '/'
  (front, (glyphs.drop front.length).drop 1)

/-- The glyphs in front of the name that is the first to hold a pattern, that name, and what
stands behind its slash; nothing if none does. `fuel` bounds the number of names. -/
def splitPattern? : Nat → List Glyph → Option (List Glyph × List Glyph × Option (List Glyph))
  | 0, _ => none
  | fuel + 1, glyphs =>
      let (name, behind) := untilSlash glyphs
      let hasSlash := name.length < glyphs.length
      if holdsPattern name then some ([], name, if hasSlash then some behind else none)
      else if !hasSlash then none
      else
        (splitPattern? fuel behind).map fun (front, name, rest) =>
          (glyphs.take (glyphs.length - behind.length) ++ front, name, rest)

/-- Whether a pattern for names matches one. A dot in front has to be written. -/
def matchesName (pattern : List Glyph) (name : Octets) : Bool :=
  let dotted := match pattern with
    | first :: _ => first.character == '.'
    | [] => false
  (dotted || name.head? != some '.') && isMatch pattern name

end PipelineShell.Script

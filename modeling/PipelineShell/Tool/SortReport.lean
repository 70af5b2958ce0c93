import PipelineShell.Tool.SortRequest

/-!
What is told about keys when it is asked how lines are sorted: remarks on keys that may not be what
is wanted, and marks below each line under the parts that its keys are.
-/

namespace PipelineShell.Tool

/-! ### Remarks -/

def remarked (text : String) : String :=
  "'" ++ text ++ "'"

namespace SortKey

def isEmptyAlways (key : SortKey) : Bool :=
  match key.firstField, key.lastField with
  | some first, some last => last < first
  | _, _ => false

def oldFormRemark? (key : SortKey) : Option String :=
  if !key.isOld then none
  else
    let first := key.firstField.getD 0
    let (oldEnd, newEnd) := match key.lastField with
      | none => ("", "")
      | some last => (" -" ++ toString (last + 1), "," ++ toString (last + 1))
    some ("obsolescent key " ++ remarked ("+" ++ toString first ++ oldEnd) ++ " used; consider "
      ++ remarked ("-k " ++ toString (first + 1) ++ newEnd) ++ " instead")

def hasLeadingBlanks (key : SortKey) : Bool :=
  let order := key.order
  let skipsAnyway := order.isNumeric || order.month
  let isInFirstField := key.lastField == some 0 && key.lastCharacters != 0
  !key.isEmptyAlways && !isInFirstField
    && ((!order.skipAtStart && !skipsAnyway) || (!order.skipAtStart && key.firstCharacter != 0)
      || (!order.skipAtEnd && key.lastCharacters != 0))

def isNumberAcrossFields (key : SortKey) : Bool :=
  let first := max 1 ((key.firstField.map (· + 1)).getD 0)
  key.order.isNumeric && match key.lastField with
    | none => true
    | some last => first < last + 1

/-- The remarks on a key of a number; `isOnly` tells that it stands for the whole request. -/
def remarks (key : SortKey) (isOnly : Bool) (separator : Option Char) (number : Nat) :
    List String :=
  let named := "key " ++ toString number
  key.oldFormRemark?.toList
    ++ (if key.isEmptyAlways then [named ++ " has zero width and will be ignored"] else [])
    ++ (if !isOnly && separator.isNone && key.hasLeadingBlanks then
        ["leading blanks are significant in " ++ named ++ "; consider also specifying 'b'"]
      else [])
    ++ (if !isOnly && key.isNumberAcrossFields then
        [named ++ " is numeric and spans multiple fields"]
      else [])

end SortKey

namespace SortOrder

def without (order other : SortOrder) : SortOrder where
  skipAtStart := order.skipAtStart && !other.skipAtStart
  skipAtEnd := order.skipAtEnd && !other.skipAtEnd
  disregard := if order.disregard = other.disregard then .nothing else order.disregard
  folded := order.folded && !other.folded
  numeric := order.numeric && !other.numeric
  general := order.general && !other.general
  human := order.human && !other.human
  month := order.month && !other.month
  random := order.random && !other.random
  version := order.version && !other.version
  reverse := order.reverse && !other.reverse

def allLetters (order : SortOrder) : String :=
  let chosen := fun (isChosen : Bool) (letter : String) => if isChosen then letter else ""
  chosen (order.skipAtStart || order.skipAtEnd) "b" ++ chosen (order.disregard = .marks) "d"
    ++ chosen order.folded "f" ++ chosen order.general "g" ++ chosen order.human "h"
    ++ chosen (order.disregard = .unprinted) "i" ++ chosen order.month "M"
    ++ chosen order.numeric "n" ++ chosen order.random "R" ++ chosen order.reverse "r"
    ++ chosen order.version "V"

end SortOrder

namespace SortRequest

def isOnlyKey (request : SortRequest) : Bool :=
  request.keys.isEmpty

def numberRemarks (request : SortRequest) : List String :=
  let keys := request.activeKeys
  let across := if request.isOnlyKey then [] else keys.filter SortKey.isNumberAcrossFields
  let generalAcross := across.any fun key => key.order.general
  let remark := fun (mark : String) (what : String) =>
    ["field separator " ++ remarked mark ++ " is treated as a " ++ what ++ " in numbers"]
  let point := !across.isEmpty && request.separator == some '.'
  let signs :=
    if point then remark "." "decimal point"
    else if !across.isEmpty && request.separator == some '-' then remark "-" "minus sign"
    else if generalAcross && request.separator == some '+' then remark "+" "plus sign"
    else []
  signs ++ if !point && keys.any fun key => key.order.isNumeric then
      ["numbers use '.' as a decimal point in this locale"]
    else []

def idleRemarks (request : SortRequest) : List String :=
  let idle := request.activeKeys.foldl (fun order key => order.without key.order) request.order
  let settled := request.stable || request.unique
  let hasKeys := !request.activeKeys.isEmpty
  let ignored :=
    if !idle.isPlain || (idle.reverse && settled && hasKeys) then
      let letters := { idle with reverse := idle.reverse && settled }.allLetters
      [(if letters.length = 1 then "option '-" ++ letters ++ "' is" else
        "options '-" ++ letters ++ "' are") ++ " ignored"]
    else []
  ignored ++ if idle.reverse && !settled && hasKeys then
      ["option '-r' only applies to last-resort comparison"]
    else []

def remarks (request : SortRequest) : List Octets :=
  let keys := request.activeKeys.zipIdx.flatMap fun (key, place) =>
    key.remarks request.isOnlyKey request.separator (place + 1)
  (("text ordering performed using simple byte comparison" :: keys) ++ request.numberRemarks
    ++ request.idleRemarks).map String.toList

end SortRequest

/-! ### Marks -/

/-- How many characters in front of a text belong to its number, or to what else the order reads
there. -/
def SortOrder.widthRead (order : SortOrder) (text : Octets) : Nat :=
  if order.month then if monthNumber text = 0 then 0 else 3
  else if order.general then
    match Floating.read? .extended text with
    | some (_, rest) => text.length - rest.length
    | none => 0
  else if order.numeric || order.human then
    let sign := if text.head? == some '-' then 1 else 0
    let digits := (text.drop sign).takeWhile Char.isDigit
    let behind := text.drop (sign + digits.length)
    let (part, rest) := match behind with
      | '.' :: rest => ('.' :: rest.takeWhile Char.isDigit, rest.dropWhile Char.isDigit)
      | rest => ([], rest)
    if digits.isEmpty && part.length ≤ 1 then 0
    else
      let unit := order.human && rest.head?.any fun letter => "KMGTPEZYk".toList.contains letter
      sign + digits.length + part.length + unit.toNat
  else text.length

def SortKey.extent (key : SortKey) (separator : Option Char) (line : Octets) : Nat × Nat :=
  let size := line.length
  let start := if key.firstField.isNone then 0
    else size - (key.fromStart separator line).length
  let finish := if key.lastField.isNone then size else size - (key.behind separator line).length
  let order := key.order
  if (order.skipAtStart && key.firstField.isNone) || order.month || order.isNumeric then
    if finish < start then (size - ((line.drop start).dropWhile isFieldBlank).length, 0)
    else
      let text := ((line.drop start).take (finish - start)).dropWhile isFieldBlank
      (finish - text.length, order.widthRead text)
  else (start, finish - start)

def shownWidth (text : Octets) : Nat :=
  text.countP fun character => character == '\t' || !(character < ' ' || character == '\x7f')

def marksBelow (line : Octets) (start size : Nat) : Octets :=
  let width := shownWidth ((line.drop start).take size)
  List.replicate (shownWidth (line.take start)) ' '
    ++ if width = 0 then "^ no match for key\n".toList
      else List.replicate width '_' ++ ['\n']

def explained (request : SortRequest) (line : Octets) : Octets :=
  let keys := request.activeKeys
  let shown := line.map fun character => if character == '\t' then '>' else character
  let below := keys.flatMap fun key =>
    let (start, size) := key.extent request.separator line
    marksBelow line start size
  let whole := if keys.isEmpty || !(request.unique || request.stable) then
      marksBelow line 0 line.length
    else []
  shown ++ ['\n'] ++ below ++ whole

end PipelineShell.Tool

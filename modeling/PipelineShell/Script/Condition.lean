import PipelineShell.Script.Interpreter

/-!
Conditions: what the words of a test say about files, texts and numbers. A word that could be an
operator is taken for one, unless what stands around it says otherwise; three words with an
operator for two operands in the middle are always that.
-/

namespace PipelineShell.Script

namespace Condition

/-- What an operator is applied to. -/
inductive Arity where
  | one
  | two
  | not
  | and
  | or
  | opening
  | closing
deriving DecidableEq, Repr

def unaryOperators : List String :=
  ["-r", "-w", "-x", "-e", "-f", "-d", "-c", "-b", "-p", "-u", "-g", "-k", "-s", "-t", "-z", "-n",
    "-h", "-O", "-G", "-L", "-S"]

def binaryOperators : List String :=
  ["=", "!=", "<", ">", "-eq", "-ne", "-ge", "-gt", "-le", "-lt", "-nt", "-ot", "-ef"]

def arity? (word : Octets) : Option Arity :=
  let spelling := String.ofList word
  if unaryOperators.contains spelling then some .one
  else if binaryOperators.contains spelling then some .two
  else match spelling with
    | "!" => some .not
    | "-a" => some .and
    | "-o" => some .or
    | "(" => some .opening
    | ")" => some .closing
    | _ => none

/-- What the first of some words is. -/
inductive Sign where
  | finished
  | operand
  | operator (arity : Arity)
deriving DecidableEq, Repr

/-- Whether a word that looks like an operator with one operand is an operand itself, from the
words behind it. -/
def isOperand : List Octets → Bool
  | [] => true
  | [_] => false
  | word :: _ :: _ => arity? word = some .two

def sign : List Octets → Sign
  | [] => .finished
  | word :: rest =>
      match arity? word with
      | none => .operand
      | some arity =>
          if (arity = .one && isOperand rest) || (arity = .opening && rest.isEmpty) then .operand
          else .operator arity

abbrev Judge := StateT (List Octets) Run

def pass (count : Nat) : Judge Unit :=
  modify fun words => words.drop count

def current : Judge Sign :=
  return sign (← get)

def next : Judge Sign :=
  return sign (← get).tail

def refuse {α : Type} (operator : Octets) (text : String) : Judge α :=
  fail (if operator.isEmpty then text.toList else operator ++ ": ".toList ++ text.toList)

/-! ### Files, texts and numbers -/

def lookAt? (path : Octets) (follow : Bool) : Run (Option Host.FileStatus) := do
  match ← ask (.lookAt path follow) with
  | .ok status => return some status
  | .error _ => return none

def isOfKind (kind : Host.FileKind) (path : Octets) (follow : Bool) : Run Bool :=
  return ((← lookAt? path follow).map Host.FileStatus.kind) == some kind

def isThere (path : Octets) : Run Bool :=
  return (← lookAt? path true).isSome

def isExecutable (path : Octets) : Run Bool := do
  return (← lookAt? path true).any fun status => status.executable || status.kind = .directory

def holdsBytes (path : Octets) : Run Bool := do
  return (← lookAt? path true).any fun status => status.kind = .directory || 0 < status.size

def isSame (left right : Octets) : Run Bool := do
  match ← lookAt? left true, ← lookAt? right true with
  | some left, some right => return left.node.isSome && left.node == right.node
  | _, _ => return false

def isOlder (left right : Octets) : Run Bool := do
  match ← lookAt? left true, ← lookAt? right true with
  | some left, some right => return left.old && !right.old
  | _, _ => return false

def longNumber (text : Octets) : Run Int := do
  let trimmed := text.dropWhile Numeral.isSpace
  let negative := trimmed.head? == some '-'
  let unsigned := if negative || trimmed.head? == some '+' then trimmed.tail else trimmed
  let digits := unsigned.takeWhile Char.isDigit
  let rest := (unsigned.drop digits.length).dropWhile Numeral.isSpace
  let magnitude := Numeral.valueOf 10 digits
  let tooGreat := if negative then decide (Numeral.half < magnitude)
    else decide (Numeral.half ≤ magnitude)
  if digits.isEmpty || !rest.isEmpty || tooGreat then refuseNumber text
  else return if negative then -magnitude else magnitude

def holdsOf (operator : Octets) (operand : Octets) : Run Bool := do
  match String.ofList operator with
  | "-z" => return operand.isEmpty
  | "-n" => return !operand.isEmpty
  | "-t" =>
      let _ ← longNumber operand
      return false
  | "-f" => isOfKind .regular operand true
  | "-d" => isOfKind .directory operand true
  | "-p" => isOfKind .fifo operand true
  | "-c" => isOfKind .device operand true
  | "-h" => isOfKind .link operand false
  | "-L" => isOfKind .link operand false
  | "-x" => isExecutable operand
  | "-s" => holdsBytes operand
  | "-b" => return false
  | "-u" => return false
  | "-g" => return (← lookAt? operand true).any Host.FileStatus.group
  | "-k" => return (← lookAt? operand true).any Host.FileStatus.sticky
  | "-S" => return false
  | _ => isThere operand

def compare (operator : String) (left right : Int) : Bool :=
  match operator with
  | "-eq" => left = right
  | "-ne" => left ≠ right
  | "-ge" => left ≥ right
  | "-gt" => left > right
  | "-le" => left ≤ right
  | _ => left < right

def isBefore : Octets → Octets → Bool
  | [], [] => false
  | [], _ :: _ => true
  | _ :: _, [] => false
  | left :: lefts, right :: rights =>
      left < right || (left == right && isBefore lefts rights)

def holdsBetween (left operator right : Octets) : Run Bool := do
  match String.ofList operator with
  | "=" => return left == right
  | "!=" => return left != right
  | "<" => return isBefore left right
  | ">" => return isBefore right left
  | "-nt" => isOlder right left
  | "-ot" => isOlder left right
  | "-ef" => isSame left right
  | operator => return compare operator (← longNumber left) (← longNumber right)

/-! ### Conditions -/

/-- What can be read. -/
inductive Level where
  | alternatives
  | conjunction
  | negation
  | primary
deriving DecidableEq, Repr

/-- Whether the words from the current one on say something true. The last word that belongs to it
is the current one afterwards. `fuel` bounds the number of words. -/
def judge : Nat → Level → Sign → Judge Bool
  | 0, _, _ => return false
  | fuel + 1, .alternatives, sign => do
      let first ← judge fuel .conjunction sign
      if (← next) = .operator .or then
        pass 2
        let others ← judge fuel .alternatives (← current)
        return first || others
      else return first
  | fuel + 1, .conjunction, sign => do
      let first ← judge fuel .negation sign
      if (← next) = .operator .and then
        pass 2
        let others ← judge fuel .conjunction (← current)
        return first && others
      else return first
  | fuel + 1, .negation, sign => do
      if sign = .operator .not then
        let behind ← next
        if behind != .finished then
          pass 1
        return !(← judge fuel .negation behind)
      else judge fuel .primary sign
  | fuel + 1, .primary, sign => do
      match sign with
      | .finished => return false
      | .operator .opening =>
          pass 1
          let inside ← current
          if inside = .operator .closing then return false
          else
            let value ← judge fuel .alternatives inside
            pass 1
            if (← current) != .operator .closing then
              refuse [] "closing paren expected"
            return value
      | .operator .one =>
          let operator := (← get).headD []
          pass 1
          match (← get).head? with
          | none => refuse operator "argument expected"
          | some operand => holdsOf operator operand
      | _ =>
          let left := (← get).headD []
          if (← next) = .operator .two then
            pass 1
            let operator := (← get).headD []
            pass 1
            match (← get).head? with
            | none => refuse operator "argument expected"
            | some right => holdsBetween left operator right
          else return !left.isEmpty

/-- How the words of a condition are taken. -/
inductive Form where
  | empty (negated : Bool)
  | words (negated : Bool) (sign : Sign) (words : List Octets)

/-- The form of a condition of three words whose middle one has two operands, of one in
parentheses, or of any other. `fuel` bounds the number of words. -/
def formOf : Nat → Bool → List Octets → Form
  | 0, negated, words => .words negated (sign words) words
  | fuel + 1, negated, words =>
      let few := words.length = 3 || words.length = 4
      let isMiddle := (words[1]?.bind arity?) = some .two
      if words.isEmpty then .empty negated
      else if words.length = 3 && isMiddle then .words negated .operand words
      else if few && words.head? == some ['('] && words.getLast? == some [')'] then
        let inside := words.tail.dropLast
        .words negated (sign inside) inside
      else if few && words.head? == some ['!'] then formOf fuel true words.tail
      else .words negated (sign words) words

def status (words : List Octets) : Run Int := do
  match formOf (words.length + 1) false words with
  | .empty negated => return if negated then 0 else 1
  | .words negated sign words =>
      let (value, left) ← (judge (4 * words.length + 4) .alternatives sign).run words
      match left with
      | word :: _ :: _ =>
          fail (if word.isEmpty then "unexpected operator".toList
            else word ++ ": unexpected operator".toList)
      | _ => return if value != negated then 0 else 1

end Condition

/-- The builtin `test`; under the name of a bracket it needs another one at the end. -/
def testStatus (name : Octets) (operands : List Octets) : Run Int :=
  if name == ['['] then
    if operands.getLast? == some [']'] then Condition.status operands.dropLast
    else fail "missing ]".toList
  else Condition.status operands

end PipelineShell.Script

import PipelineShell.Script.Tree
import PipelineShell.Text.Numeral

/-!
Expressions of whole numbers of 64 bits, which wrap around. Variables are looked up by their names
and may be assigned to; what stands in a branch that is not taken has no effect. An assignment has
its effect as soon as its value is known, whatever is wrong with the rest of the expression.
-/

namespace PipelineShell.Script.Arithmetic

/-- An operator between two numbers. -/
inductive Operator where
  | times | over | modulo | plus | minus | shiftLeft | shiftRight
  | less | atMost | greater | atLeast | equal | different | bitAnd | bitXor | bitOr
deriving DecidableEq, Repr

/-- What an expression is made of. -/
inductive Symbol where
  | number (value : Int64)
  | name (name : Octets)
  | operator (operator : Operator)
  | assign (operator : Option Operator)
  | both
  | either
  | not
  | invert
  | opening
  | closing
  | question
  | colon
  | other
deriving DecidableEq, Repr

/-- How tightly an operator binds; the tightest has rank zero. -/
def Operator.rank : Operator → Nat
  | .times | .over | .modulo => 0
  | .plus | .minus => 1
  | .shiftLeft | .shiftRight => 2
  | .less | .atMost | .greater | .atLeast => 3
  | .equal | .different => 4
  | .bitAnd => 5
  | .bitXor => 6
  | .bitOr => 7

def ofBool (value : Bool) : Int64 :=
  if value then 1 else 0

/-- What is wrong with an expression. -/
inductive Fault where
  | expression (text : String)
  | notNumber (text : Octets)
  | overflow
deriving DecidableEq, Repr

def divisor (dividend number : Int64) : Except Fault Int64 :=
  if number = 0 then .error (.expression "division by zero")
  else if dividend = Int64.minValue && number = -1 then .error .overflow
  else .ok number

def Operator.apply (operator : Operator) (left right : Int64) : Except Fault Int64 :=
  match operator with
  | .times => .ok (left * right)
  | .over => return left / (← divisor left right)
  | .modulo => return left % (← divisor left right)
  | .plus => .ok (left + right)
  | .minus => .ok (left - right)
  | .shiftLeft => .ok (left <<< right)
  | .shiftRight => .ok (left >>> right)
  | .less => .ok (ofBool (left < right))
  | .atMost => .ok (ofBool (left ≤ right))
  | .greater => .ok (ofBool (right < left))
  | .atLeast => .ok (ofBool (right ≤ left))
  | .equal => .ok (ofBool (left == right))
  | .different => .ok (ofBool (left != right))
  | .bitAnd => .ok (left &&& right)
  | .bitXor => .ok (left ^^^ right)
  | .bitOr => .ok (left ||| right)

/-! ### Symbols -/

def spellings : List (String × Symbol) :=
  [("<<=", .assign (some .shiftLeft)), (">>=", .assign (some .shiftRight)),
    ("<<", .operator .shiftLeft), (">>", .operator .shiftRight), ("<=", .operator .atMost),
    (">=", .operator .atLeast), ("==", .operator .equal), ("!=", .operator .different),
    ("&&", .both), ("||", .either), ("*=", .assign (some .times)), ("/=", .assign (some .over)),
    ("%=", .assign (some .modulo)), ("+=", .assign (some .plus)), ("-=", .assign (some .minus)),
    ("&=", .assign (some .bitAnd)), ("^=", .assign (some .bitXor)), ("|=", .assign (some .bitOr)),
    ("<", .operator .less), (">", .operator .greater), ("=", .assign none), ("!", .not),
    ("~", .invert), ("*", .operator .times), ("/", .operator .over), ("%", .operator .modulo),
    ("+", .operator .plus), ("-", .operator .minus), ("&", .operator .bitAnd),
    ("^", .operator .bitXor), ("|", .operator .bitOr), ("(", .opening), (")", .closing),
    ("?", .question), (":", .colon)]

/-- The symbols of a text. `fuel` bounds the number of characters. -/
def symbolsWithin : Nat → Octets → List Symbol
  | 0, _ => []
  | _, [] => []
  | fuel + 1, character :: rest =>
      if character == ' ' || character == '\t' || character == '\n' then symbolsWithin fuel rest
      else if character.isDigit then
        let found := Numeral.readSigned (character :: rest)
        .number (Int64.ofInt found.value) :: symbolsWithin fuel found.rest
      else if startsName character then
        let name := character :: rest.takeWhile isInName
        .name name :: symbolsWithin fuel (rest.dropWhile isInName)
      else match spellings.find? fun known => known.1.toList.isPrefixOf (character :: rest) with
        | some (spelling, symbol) =>
            symbol :: symbolsWithin fuel ((character :: rest).drop spelling.length)
        | none => .other :: symbolsWithin fuel rest

/-! ### Values -/

/-- The variables that an expression may use. -/
structure Variables (m : Type → Type) where
  value? : Octets → m (Option Octets)
  assign : Octets → Octets → m Unit

/-- An evaluation of an expression; its state is the symbols that are left. -/
abbrev Evaluation (m : Type → Type) := ExceptT Fault (StateT (List Symbol) m)

variable {m : Type → Type} [Monad m]

def perform {α : Type} (action : m α) : Evaluation m α :=
  ExceptT.lift (StateT.lift action)

def outcome {α : Type} (result : Except Fault α) : Evaluation m α :=
  ExceptT.mk (pure result)

def symbolsLeft : Evaluation m (List Symbol) :=
  ExceptT.lift get

def goOn (left : List Symbol) : Evaluation m Unit :=
  ExceptT.lift (set left)

def peek : Evaluation m (Option Symbol) :=
  return (← symbolsLeft).head?

def nextSymbol : Evaluation m (Option Symbol) := do
  let left ← symbolsLeft
  goOn left.tail
  return left.head?

/-- The number that a text is. An empty one counts as zero. -/
def numberOf (text : Octets) : Except Fault Int64 :=
  let found := Numeral.readSigned text
  if found.outOfRange || !(found.rest.dropWhile Numeral.isSpace).isEmpty then
    .error (.notNumber text)
  else .ok (Int64.ofInt found.value)

def lookUp (store : Variables m) (name : Octets) : Evaluation m Int64 := do
  let text ← perform (store.value? name)
  outcome (numberOf (text.getD []))

/-- How to evaluate the parts of an expression. The flag tells whether a part has an effect. -/
structure Rules (m : Type → Type) where
  store : Variables m
  whole : Bool → Evaluation m Int64
  choice : Bool → Evaluation m Int64
  joined : Symbol → Bool → Evaluation m Int64

/-- Evaluates a number, a variable, or an expression in parentheses. `fuel` bounds the number of
signs in front. -/
def primary (rules : Rules m) (active : Bool) : Nat → Evaluation m Int64
  | 0 => throw (.expression "expecting primary")
  | fuel + 1 => do
      match ← nextSymbol with
      | some .opening =>
          let value ← rules.whole active
          match ← nextSymbol with
          | some .closing => return value
          | _ => throw (.expression "expecting ')'")
      | some (.number value) => return value
      | some (.name name) => if active then lookUp rules.store name else return 0
      | some (.operator .plus) => primary rules active fuel
      | some (.operator .minus) => return -(← primary rules active fuel)
      | some .not => return ofBool ((← primary rules active fuel) == 0)
      | some .invert => return ~~~(← primary rules active fuel)
      | _ => throw (.expression "expecting primary")

/-- Goes on behind a value with operators that bind more tightly than `limit`. `fuel` bounds their
number. -/
def operated (rules : Rules m) (active : Bool) (limit : Nat) : Nat → Int64 → Evaluation m Int64
  | 0, value => return value
  | fuel + 1, value => do
      match ← peek with
      | some (.operator operator) =>
          if limit ≤ operator.rank then return value
          else
            let _ ← nextSymbol
            let size := (← symbolsLeft).length
            let first ← primary rules active (size + 1)
            let second ← operated rules active operator.rank fuel first
            let value ← if active then outcome (operator.apply value second) else pure second
            operated rules active limit fuel value
      | _ => return value

def binary (rules : Rules m) (active : Bool) : Evaluation m Int64 := do
  let size := (← symbolsLeft).length
  let first ← primary rules active (size + 1)
  operated rules active 8 (size + 1) first

/-- Evaluates operands joined by a symbol for truth values; nothing right of the first operand that
decides has an effect. -/
def joinedBy (rules : Rules m) (symbol : Symbol) (active : Bool) : Evaluation m Int64 := do
  let value ← if symbol = .either then rules.joined .both active else binary rules active
  if (← peek) = some symbol then
    let _ ← nextSymbol
    let decided := if symbol = .either then value != 0 else value == 0
    let other ← rules.joined symbol (active && !decided)
    return ofBool (if symbol = .either then value != 0 || other != 0
      else value != 0 && other != 0)
  else return value

def chosen (rules : Rules m) (active : Bool) : Evaluation m Int64 := do
  let value ← rules.joined .either active
  if (← peek) = some .question then
    let _ ← nextSymbol
    let first ← rules.whole (active && value != 0)
    match ← nextSymbol with
    | some .colon =>
        let second ← rules.choice (active && value == 0)
        return if value != 0 then first else second
    | _ => throw (.expression "expecting ':'")
  else return value

def assigned (rules : Rules m) (active : Bool) : Evaluation m Int64 := do
  match ← symbolsLeft with
  | .name name :: .assign operator :: rest =>
      goOn rest
      let value ← rules.whole active
      if !active then return value
      else
        let value ← match operator with
          | none => pure value
          | some operator => do
              let before ← lookUp rules.store name
              outcome (operator.apply before value)
        perform (rules.store.assign name (Octets.ofNumber value.toInt))
        return value
  | _ => rules.choice active

/-- The ways to evaluate the parts of an expression. `fuel` bounds how deep parts stand in
parts. -/
def rulesWithin (store : Variables m) : Nat → Rules m
  | 0 =>
      let stop := fun _ => throw (Fault.expression "expecting primary")
      ⟨store, stop, stop, fun _ => stop⟩
  | fuel + 1 =>
      let inner := rulesWithin store fuel
      ⟨store, fun active => assigned inner active, fun active => chosen inner active,
        fun symbol active => joinedBy inner symbol active⟩

def evaluate (store : Variables m) (text : Octets) : m (Except Fault Int64) := do
  let symbols := symbolsWithin text.length text
  let rules := rulesWithin store (4 * symbols.length + 8)
  let (result, left) ← (rules.whole true).run.run symbols
  match result with
  | .error fault => return .error fault
  | .ok value =>
      return if left.isEmpty then .ok value else .error (.expression "expecting EOF")

end PipelineShell.Script.Arithmetic

import PipelineShell.Tool.Outlet

/-!
The arguments of a tool: options, each with a letter or a long name or both, and operands. Options
may stand behind operands, unless the tool wants them in front; letters may share one dash; a long
name may be cut short as long as it is clear which one is meant.
-/

namespace PipelineShell.Tool

/-- Whether an option takes a value. -/
inductive Arity where
  | none
  | required
  | optional
deriving DecidableEq, Repr

/-- An option that a tool knows. -/
structure OptionKind where
  key : String
  letter : Option Char
  name : Option String
  arity : Arity
deriving DecidableEq, Repr

def flag (letter : Char) (name : String) : OptionKind :=
  ⟨name, letter, name, .none⟩

def letterFlag (letter : Char) : OptionKind :=
  ⟨letter.toString, letter, .none, .none⟩

def longFlag (name : String) : OptionKind :=
  ⟨name, .none, name, .none⟩

def longValued (name : String) : OptionKind :=
  ⟨name, .none, name, .required⟩

def valued (letter : Char) (name : String) : OptionKind :=
  ⟨name, letter, name, .required⟩

def commonOptions : List OptionKind :=
  [longFlag "help", longFlag "version"]

/-- One thing that arguments say. -/
inductive Argument where
  | option (key : String) (value : Octets)
  | optionAlone (key : String)
  | operand (text : Octets)
  /-- What is wrong with an argument. Nothing is read behind it. -/
  | fault (text : Octets)
deriving DecidableEq, Repr

def OptionKind.isNamed (kind : OptionKind) (name : Octets) : Bool :=
  kind.name.any fun known => known.toList == name

def OptionKind.isMeant (kind : OptionKind) (name : Octets) : Bool :=
  kind.name.any fun known => name.isPrefixOf known.toList

/-- The long names that a shortened one may stand for; `content` is the name with its value. -/
def ambiguity (content : Octets) (found : List OptionKind) : Octets :=
  "option '--".toList ++ content ++ "' is ambiguous; possibilities:".toList
    ++ found.flatMap fun kind => " '--".toList ++ (kind.name.getD "").toList ++ "'".toList

/-- The option that a long name stands for, or what is wrong with it; `content` is the name with
its value. -/
def findLong (known : List OptionKind) (content name : Octets) : Except Octets OptionKind :=
  match known.find? fun kind => kind.isNamed name with
  | some kind => .ok kind
  | none =>
      match known.filter fun kind => kind.isMeant name with
      | [] => .error ("unrecognized option '--".toList ++ content ++ "'".toList)
      | kind :: others =>
          match others.filter fun other => other.key != kind.key || other.arity != kind.arity with
          | [] => .ok kind
          | others => .error (ambiguity content (kind :: others))

abbrev Step := List Argument × List Octets

/-- Reads what stands behind two dashes; `rest` are the arguments behind it. -/
def readLong (known : List OptionKind) (content : Octets) (rest : List Octets) : Step :=
  let name := content.takeWhile (· != '=')
  let attached := (content.drop name.length).tail?
  match findLong known content name with
  | .error text => ([.fault text], [])
  | .ok kind =>
      let shown := "option '--".toList ++ (kind.name.getD "").toList
      match kind.arity, attached, rest with
      | .none, some _, _ => ([.fault (shown ++ "' doesn't allow an argument".toList)], [])
      | .none, none, rest => ([.option kind.key []], rest)
      | _, some value, rest => ([.option kind.key value], rest)
      | .optional, none, rest => ([.optionAlone kind.key], rest)
      | .required, none, value :: rest => ([.option kind.key value], rest)
      | .required, none, [] => ([.fault (shown ++ "' requires an argument".toList)], [])

/-- Reads the letters behind one dash; `rest` are the arguments behind them. -/
def readLetters (known : List OptionKind) (rest : List Octets) : Octets → Step
  | [] => ([], rest)
  | letter :: behind =>
      match known.find? fun kind => kind.letter == some letter with
      | none => ([.fault ("invalid option -- '".toList ++ [letter, Char.ofNat 0x27])], [])
      | some kind =>
          match kind.arity, behind, rest with
          | .none, behind, rest =>
              let (later, rest) := readLetters known rest behind
              (.option kind.key [] :: later, rest)
          | .optional, [], rest => ([.optionAlone kind.key], rest)
          | .optional, value, rest => ([.option kind.key value], rest)
          | .required, [], [] =>
              ([.fault ("option requires an argument -- '".toList ++ [letter, Char.ofNat 0x27])],
                [])
          | .required, [], value :: rest => ([.option kind.key value], rest)
          | .required, value, rest => ([.option kind.key value], rest)

/-- Reads arguments; `inFront` tells that the first operand ends the options. `fuel` bounds the
number of arguments. -/
def readArgumentsWithin (known : List OptionKind) (inFront : Bool) :
    Nat → List Octets → List Argument
  | 0, _ => []
  | _, [] => []
  | _ + 1, ['-', '-'] :: rest => rest.map .operand
  | fuel + 1, ('-' :: '-' :: content) :: rest =>
      let (found, rest) := readLong known content rest
      found ++ readArgumentsWithin known inFront fuel rest
  | fuel + 1, ('-' :: letter :: behind) :: rest =>
      let (found, rest) := readLetters known rest (letter :: behind)
      found ++ readArgumentsWithin known inFront fuel rest
  | fuel + 1, operand :: rest =>
      if inFront then (operand :: rest).map .operand
      else .operand operand :: readArgumentsWithin known inFront fuel rest

def readArguments (known : List OptionKind) (inFront : Bool) (arguments : List Octets) :
    List Argument :=
  readArgumentsWithin (known ++ commonOptions) inFront (arguments.length + 1) arguments

/-- Takes the arguments in order: options change a state, operands are collected. `failure` is the
exit code of a wrong argument. -/
def takeArguments {σ : Type} (failure : Int)
    (choose : σ → String → Option Octets → Work σ) (state : σ) :
    List Argument → Work (σ × List Octets)
  | [] => return (state, [])
  | .option key value :: rest => do
      if key == "help" || key == "version" then leave 0
      takeArguments failure choose (← choose state key (some value)) rest
  | .optionAlone key :: rest => do
      takeArguments failure choose (← choose state key none) rest
  | .operand text :: rest => do
      let (state, operands) ← takeArguments failure choose state rest
      return (state, text :: operands)
  | .fault text :: _ => misuse failure text

end PipelineShell.Tool

import PipelineShell.Options.Basic
import PipelineShell.Text.Similarity
import PipelineShell.Text.Utf8

/-!
Options out of arguments, from left to right. An option that takes a value is looked at only when
the next one is met or the arguments are over, so that an argument nobody knows is refused before
the value in front of it is; the first that is wrong otherwise decides.
-/

namespace PipelineShell.Options

/-- Why reading stops before the arguments are over. -/
inductive Stop where
  | help
  | version
  | fault (fault : Fault)
deriving DecidableEq, Repr

/-- An option that has been met and not looked at. -/
structure Pending where
  setting : Setting
  value : Option (List UInt8)
deriving DecidableEq, Repr

/-- How far the arguments have been read. -/
structure Parsing where
  options : Options
  used : List Setting
  pending : Option Pending
deriving DecidableEq, Repr

def assign (options : Options) (setting : Setting) (value : List UInt8) :
    Except Fault Options :=
  match Utf8.exactText? value with
  | none => .error .invalidText
  | some text =>
      match setting with
      | .line => .ok { options with line := some text }
      | .prompt => .ok { options with prompt := text }
      | .chunkSize =>
          match readSize text with
          | .ok chunkSize => .ok { options with chunkSize }
          | .error fault => .error (.invalidSize text fault)
      | _ => .ok options

def Parsing.take (parsing : Parsing) (setting : Setting) (value : List UInt8) :
    Except Stop Parsing :=
  if parsing.used.contains setting then .error (.fault (.repeated setting))
  else match assign parsing.options setting value with
    | .error fault => .error (.fault fault)
    | .ok options => .ok { parsing with options, used := parsing.used ++ [setting] }

def Parsing.resolve (parsing : Parsing) : Except Stop Parsing :=
  match parsing.pending with
  | none => .ok parsing
  | some ⟨setting, none⟩ => .error (.fault (.missingValue setting))
  | some ⟨setting, some value⟩ => { parsing with pending := none }.take setting value

/-- The options in use once the pending one counts too. One that would be given twice counts as
not given. -/
def Parsing.usedWithPending (parsing : Parsing) : List Setting :=
  match parsing.pending with
  | some ⟨setting, some _⟩ =>
      if parsing.used.contains setting then parsing.used.filter (· != setting)
      else parsing.used ++ [setting]
  | _ => parsing.used

def addUsed (used : List Setting) (setting : Setting) : List Setting :=
  if used.contains setting then used else used ++ [setting]

def Parsing.unknownName (parsing : Parsing) (name : String) : Stop :=
  let named := Setting.all.filter fun setting => setting.longName?.isSome
  match Similarity.closest? name (fun setting => setting.longName?.getD "") named with
  | none => .fault (.unexpected ("--" ++ name) none parsing.usedWithPending)
  | some similar =>
      .fault (.unexpected ("--" ++ name) (some similar)
        (addUsed parsing.usedWithPending similar))

def Parsing.option (parsing : Parsing) (setting : Setting) (attached : Option (List UInt8)) :
    Except Stop Parsing :=
  match setting.takesValue, attached with
  | true, some value => do
      let parsing ← parsing.resolve
      parsing.take setting value
  | true, none => do
      let parsing ← parsing.resolve
      return { parsing with pending := some ⟨setting, none⟩ }
  | false, some value =>
      .error (.fault (.needlessValue (Utf8.text value) setting parsing.used))
  | false, none => do
      let parsing ← parsing.resolve
      match setting with
      | .help => .error .help
      | .version => .error .version
      | _ =>
          let parsing ← parsing.take setting []
          return { parsing with options := { parsing.options with noPrompt := true } }

def Parsing.long (parsing : Parsing) (content : List UInt8) : Except Stop Parsing :=
  let isEquals := fun (byte : UInt8) => byte == 0x3d
  let name := content.takeWhile fun byte => !isEquals byte
  let attached := (content.drop name.length).tail?
  match (Utf8.exactText? name).bind Setting.ofLongName? with
  | some setting => parsing.option setting attached
  | none => .error (parsing.unknownName (Utf8.text name))

def Parsing.short (parsing : Parsing) (content : List UInt8) : Except Stop Parsing :=
  match Utf8.firstCharacter? content with
  | none => .error (.fault (.unexpected ("-" ++ Utf8.text content) none []))
  | some letter =>
      let behind := content.drop letter.utf8Size
      match Setting.ofLetter? letter with
      | none => .error (.fault (.unexpected ("-" ++ letter.toString) none []))
      | some setting =>
          if setting.takesValue then
            match behind with
            | [] => parsing.option setting none
            | 0x3d :: value => parsing.option setting (some value)
            | value => parsing.option setting (some value)
          else parsing.option setting none

def Parsing.operand (parsing : Parsing) (argument : List UInt8) : Except Stop Parsing :=
  match parsing.pending with
  | some ⟨setting, none⟩ => .ok { parsing with pending := some ⟨setting, some argument⟩ }
  | _ => .error (.fault (.unexpected (Utf8.text argument) none []))

/-- Reads the arguments that are left. Two dashes end the options, and nothing may follow them. -/
def readFrom (parsing : Parsing) : List (List UInt8) → Except Stop Parsing
  | [] => parsing.resolve
  | [0x2d, 0x2d] :: [] => parsing.resolve
  | [0x2d, 0x2d] :: extra :: _ => .error (.fault (.unexpected (Utf8.text extra) none []))
  | (0x2d :: 0x2d :: content) :: rest => do
      let parsing ← parsing.long content
      readFrom parsing rest
  | (0x2d :: first :: content) :: rest => do
      let parsing ← parsing.short (first :: content)
      readFrom parsing rest
  | argument :: rest => do
      let parsing ← parsing.operand argument
      readFrom parsing rest

def read (arguments : List (List UInt8)) : Except Stop Options :=
  (readFrom ⟨.standard, [], none⟩ arguments).map Parsing.options

end PipelineShell.Options

import PipelineShell.Text.Decimal
import PipelineShell.Text.Visible

/-!
The options of the shell as a program, how they are spelled, and everything it says about them.
-/

namespace PipelineShell

/-- An option, as it may be given in an argument. -/
inductive Setting where
  | line
  | prompt
  | noPrompt
  | chunkSize
  | help
  | version
deriving DecidableEq, Repr

namespace Setting

def all : List Setting :=
  [.line, .prompt, .noPrompt, .chunkSize, .help, .version]

def longName? : Setting → Option String
  | .line => none
  | .prompt => some "prompt"
  | .noPrompt => some "no-prompt"
  | .chunkSize => some "chunk-size"
  | .help => some "help"
  | .version => some "version"

def letter? : Setting → Option Char
  | .line => some 'c'
  | .help => some 'h'
  | .version => some 'V'
  | _ => none

def takesValue : Setting → Bool
  | .line => true
  | .prompt => true
  | .chunkSize => true
  | _ => false

def settles : Setting → Bool
  | .help => false
  | .version => false
  | _ => true

def display : Setting → String
  | .line => "-c <LINE>"
  | .prompt => "--prompt <PROMPT>"
  | .noPrompt => "--no-prompt"
  | .chunkSize => "--chunk-size <CHUNK_SIZE>"
  | .help => "--help"
  | .version => "--version"

def ofLongName? (name : String) : Option Setting :=
  all.find? fun setting => setting.longName? == some name

def ofLetter? (letter : Char) : Option Setting :=
  all.find? fun setting => setting.letter? == some letter

end Setting

/-- What the shell is told by its arguments. -/
structure Options where
  line : Option String
  prompt : String
  noPrompt : Bool
  chunkSize : Int
deriving DecidableEq, Repr

namespace Options

def standard : Options :=
  ⟨none, "pish> ", false, 1024⟩

def chunkSizes : Decimal.Bounds :=
  ⟨1, 4294967295⟩

/-- Why a size of chunks is refused. -/
inductive SizeFault where
  | notNumber (fault : Decimal.Fault)
  | outOfRange (value : Int)
deriving DecidableEq, Repr

def SizeFault.message : SizeFault → String
  | .notNumber fault => fault.message
  | .outOfRange value =>
      toString value ++ " is not in " ++ toString chunkSizes.least ++ "..="
        ++ toString chunkSizes.greatest

def readSize (text : String) : Except SizeFault Int :=
  match Decimal.read Decimal.signed64 text with
  | .error fault => .error (.notNumber fault)
  | .ok value =>
      if chunkSizes.contains value then .ok value else .error (.outOfRange value)

/-- Why arguments are refused. -/
inductive Fault where
  | missingValue (setting : Setting)
  | repeated (setting : Setting)
  | invalidText
  | invalidSize (text : String) (fault : SizeFault)
  /-- An option without values is given one; `used` lists the options before it. -/
  | needlessValue (value : String) (setting : Setting) (used : List Setting)
  /-- An argument is nothing that is known; `similar` is an option it may have been meant for. -/
  | unexpected (argument : String) (similar : Option Setting) (used : List Setting)
deriving DecidableEq, Repr

def programName : String := "pish"

def usage (used : List Setting) : String :=
  "Usage: " ++ programName ++ " "
    ++ (if used.isEmpty then "[OPTIONS]" else " ".intercalate (used.map Setting.display)) ++ "\n\n"

def choice : String :=
  "<" ++ "|".intercalate ((Setting.all.filter Setting.settles).map Setting.display) ++ ">"

/-- How the program is used with an option that is given a needless value: the options before it
are shown as a choice, and so is it if it is one of those. -/
def usageAfter (setting : Setting) (used : List Setting) : String :=
  if used.isEmpty then usage [setting]
  else "Usage: " ++ programName ++ " "
    ++ (if setting.settles then "" else setting.display ++ " ") ++ choice ++ "\n\n"

/-- The paragraphs of a fault after the first word. What the user has written is shown without
its control sequences. -/
def Fault.paragraphs : Fault → String
  | .missingValue setting =>
      "a value is required for '" ++ setting.display ++ "' but none was supplied\n\n"
  | .repeated setting =>
      "the argument '" ++ setting.display ++ "' cannot be used multiple times\n\n" ++ usage []
  | .invalidText => "invalid UTF-8 was detected in one or more arguments\n\n" ++ usage []
  | .invalidSize text fault =>
      "invalid value '" ++ Visible.text text ++ "' for '" ++ Setting.chunkSize.display ++ "': "
        ++ fault.message ++ "\n\n"
  | .needlessValue value setting used =>
      "unexpected value '" ++ Visible.text value ++ "' for '" ++ setting.display
        ++ "' found; no more were expected\n\n" ++ usageAfter setting used
  | .unexpected argument similar used =>
      "unexpected argument '" ++ Visible.text argument ++ "' found\n\n"
        ++ (match similar.bind Setting.longName? with
          | none => ""
          | some name => "  tip: a similar argument exists: '--" ++ name ++ "'\n\n")
        ++ usage used

def Fault.message (fault : Fault) : String :=
  "error: " ++ fault.paragraphs ++ "For more information, try '--help'.\n"

def helpText : String :=
  "A small pipeline shell\n\n" ++ usage []
    ++ "Options:\n"
    ++ "  -c <LINE>                      Run one command line and exit with its status\n"
    ++ "      --prompt <PROMPT>          Prompt shown before each read when stdin is a terminal "
    ++ "[default: \"pish> \"]\n"
    ++ "      --no-prompt                Never show the prompt\n"
    ++ "      --chunk-size <CHUNK_SIZE>  Bytes read from stdin at a time [default: 1024]\n"
    ++ "  -h, --help                     Print help\n"
    ++ "  -V, --version                  Print version\n"

def versionText : String :=
  programName ++ " 0.1.0\n"

end Options

end PipelineShell

import PipelineShell.Tool.Input

/-!
The tool that counts lines, words and bytes, in columns as wide as the inputs are long. Bytes alone
are counted without reading them, where the length of the input is known.
-/

namespace PipelineShell.Tool

/-- Which counts `wc` prints. -/
structure CountMode where
  lines : Bool
  words : Bool
  characters : Bool
  bytes : Bool
  longest : Bool
deriving DecidableEq, Repr

/-- The counts of an input. -/
structure Counts where
  lines : Nat
  words : Nat
  bytes : Nat
  longest : Nat
deriving DecidableEq, Repr

def Counts.zero : Counts :=
  ⟨0, 0, 0, 0⟩

def Counts.join (first second : Counts) : Counts :=
  ⟨first.lines + second.lines, first.words + second.words, first.bytes + second.bytes,
    max first.longest second.longest⟩

/-- How far the bytes of an input have been counted. -/
structure Counting where
  counts : Counts
  inWord : Bool
  width : Nat

def Counting.start : Counting :=
  ⟨.zero, false, 0⟩

def separatesWords (byte : UInt8) : Bool :=
  byte == 0x20 || (0x09 ≤ byte && byte ≤ 0x0d)

/-- Whether a byte can be seen. Bytes that neither separate words nor can be seen belong to a word
only if it has begun. -/
def isVisible (byte : UInt8) : Bool :=
  0x21 ≤ byte && byte ≤ 0x7e

def Counting.step (counting : Counting) (byte : UInt8) : Counting :=
  let counts := counting.counts
  let counts : Counts :=
    ⟨if byte = 0x0a then counts.lines + 1 else counts.lines,
      if isVisible byte && !counting.inWord then counts.words + 1 else counts.words,
      counts.bytes + 1, counts.longest⟩
  let inWord := isVisible byte || (counting.inWord && !separatesWords byte)
  if byte = 0x0a || byte = 0x0d || byte = 0x0c then
    ⟨{ counts with longest := max counts.longest counting.width }, inWord, 0⟩
  else if byte = 0x09 then ⟨counts, inWord, counting.width + 8 - counting.width % 8⟩
  else ⟨counts, inWord, if byte = 0x20 || isVisible byte then counting.width + 1
    else counting.width⟩

def Counting.finish (counting : Counting) : Counts :=
  { counting.counts with longest := max counting.counts.longest counting.width }

/-- Which counts the options ask for; without options, lines, words and bytes. -/
def CountMode.choose (mode : CountMode) : String → CountMode
  | "bytes" => { mode with bytes := true }
  | "chars" => { mode with characters := true }
  | "lines" => { mode with lines := true }
  | "words" => { mode with words := true }
  | "max-line-length" => { mode with longest := true }
  | _ => mode

def CountMode.nothing : CountMode :=
  ⟨false, false, false, false, false⟩

def CountMode.standard : CountMode :=
  ⟨true, true, false, true, false⟩

def CountMode.select (mode : CountMode) (counts : Counts) : List Nat :=
  (if mode.lines then [counts.lines] else []) ++ (if mode.words then [counts.words] else [])
    ++ (if mode.characters then [counts.bytes] else [])
    ++ (if mode.bytes then [counts.bytes] else [])
    ++ if mode.longest then [counts.longest] else []

/-- Whether bytes alone are counted. Every byte is a character. -/
def CountMode.bytesAlone (mode : CountMode) : Bool :=
  (mode.bytes || mode.characters) && !mode.lines && !mode.words && !mode.longest

def CountMode.linesAlone (mode : CountMode) : Bool :=
  mode.lines && !mode.words && !mode.longest

def linesRemark : Octets :=
  "using avx2 hardware support".toList

def countOptions : List OptionKind :=
  [flag 'c' "bytes", flag 'm' "chars", flag 'l' "lines", flag 'w' "words", longFlag "debug",
    longValued "files0-from", flag 'L' "max-line-length"]

def padLeft (width value : Nat) : Octets :=
  let digits := (toString value).toList
  List.replicate (width - digits.length) ' ' ++ digits

def countLine (width : Nat) (counts : List Nat) (label : Option Octets) : Octets :=
  let shown := fun (name : Octets) => if name.contains '\n' then shownName name else name
  [' '].intercalate (counts.map (padLeft width) ++ (label.map shown).toList) ++ ['\n']

/-- The length of a regular input from which on counting need not read, if that is so: the length
is surely exact unless it fills whole pages. -/
def pageSize : Nat := 4096

/-- Goes on counting bytes from a place in a regular file of the length; the value is what need
not be read, unless nothing need be. -/
def skipBytes (fd : Fd) (size offset : Nat) : Work (Option Nat × Nat) := do
  if size % pageSize != 0 then return (none, size - offset)
  else
    let skipped := size - size % (pageSize + 1)
    if offset < skipped then
      let _ ← ask (.seek fd (offset + skipped))
      return (some (skipped - offset), 0)
    else return (some 0, 0)

/-- Counts an open input, and complains if it cannot be read. The remark is made before. -/
def CountMode.count (mode : CountMode) (remark : Option Octets) (label : Option Octets) (fd : Fd) :
    Work (Counts × Bool) := do
  remark.forM complain
  let (skipped, known) ←
    if mode.bytesAlone then
      match ← ask (.status fd) with
      | .ok status =>
          if status.file.kind = .regular then skipBytes fd status.file.size status.offset
          else pure (some 0, 0)
      | .error _ => pure (some 0, 0)
    else pure (some 0, 0)
  match skipped with
  | none => return ({ Counts.zero with bytes := known }, true)
  | some skipped =>
      let (counting, fault) ← readBlocks fd 16384 Counting.start fun counting content =>
        return if mode.bytesAlone then
          { counting with counts :=
            { counting.counts with bytes := counting.counts.bytes + content.size } }
          else content.data.foldl Counting.step counting
      let counts := counting.finish
      let counts := { counts with bytes := counts.bytes + skipped }
      match fault with
      | none => return (counts, true)
      | some errno =>
          complain (becauseOf (shownName (label.getD "standard input".toList)) errno)
          return (counts, false)

/-- What is wrong with the name of an input, if anything is: the number of the name tells its place
in the file `source` that it is from. -/
def nameFault? (source : Option Octets) (number : Nat) (name : Octets) : Option Octets :=
  match source with
  | none => if name.isEmpty then some "invalid zero-length file name".toList else none
  | some source =>
      if source == dash && name == dash then some (dashComplaint name)
      else if name.isEmpty then some (emptyComplaint source number)
      else none

/-- Counts an input, if there is one; without a label it is that of the tool itself. -/
def CountMode.countInput (mode : CountMode) (remark : Option Octets) (source : Option Octets)
    (number : Nat) (label : Option Octets) : Work (Option Counts × Bool) := do
  let path := label.getD dash
  match nameFault? source number path with
  | some text =>
      complain text
      return (none, false)
  | none =>
      match ← openInput path with
      | .error errno =>
          complain (becauseOf (shownName path) errno)
          return (none, false)
      | .ok fd =>
          let (counts, succeeded) ← mode.count remark label fd
          closeInput path fd
          return (some counts, succeeded)

/-- Counts the inputs and prints a line for each; the first of them has the number. The remark is
made once. -/
def CountMode.countAll (mode : CountMode) (width : Nat) (source : Option Octets)
    (remark : Option Octets) (number : Nat) :
    List (Option Octets) → Counts → Work (Counts × Bool)
  | [], total => return (total, true)
  | label :: rest, total => do
      let (counts, succeeded) ← mode.countInput remark source number label
      match counts with
      | none =>
          let (total, _) ← mode.countAll width source remark (number + 1) rest total
          return (total, false)
      | some counts =>
          put (countLine width (mode.select counts) label)
          let (total, others) ←
            mode.countAll width source none (number + 1) rest (total.join counts)
          return (total, succeeded && others)

def inputStatus (path : Octets) : Work (Except Errno Host.FileStatus) := do
  if path == dash then
    return (← ask (.status Fd.input)).map Host.OpenStatus.file
  else ask (.lookAt path true)

def inputStatuses : List Octets → Work (List Host.FileStatus)
  | [] => return []
  | path :: rest => do
      let status ← inputStatus path
      return status.toOption.toList ++ (← inputStatuses rest)

/-- The width of the columns: the digits of all regular inputs together, at least seven if an
input is no regular file. -/
def columnWidth (statuses : List Host.FileStatus) : Nat :=
  let regular := statuses.filter fun status => status.kind = .regular
  let total := regular.foldl (fun total status => total + status.size) 0
  max (toString total).length (if regular.length = statuses.length then 1 else 7)

/-- What `wc` is asked for. -/
structure CountRequest where
  mode : CountMode
  source : Option Octets
  explains : Bool
deriving DecidableEq, Repr

def CountRequest.choose (request : CountRequest) (key : String) (value : Option Octets) :
    CountRequest :=
  if key == "files0-from" then { request with source := value }
  else if key == "debug" then { request with explains := true }
  else { request with mode := request.mode.choose key }

/-- The inputs to count. -/
structure CountInputs where
  labels : List (Option Octets)
  known : Bool
  fault : Option Errno

def greatestNames : Nat := 10485760

def namedLabels (path : Octets) (operands : List Octets) : Work CountInputs := do
  match operands with
  | operand :: _ => refuseOperand 1 operand
  | [] =>
      match ← openInput path with
      | .error errno =>
          giveUp 1 (becauseOf ("cannot open ".toList ++ quotedName path
            ++ " for reading".toList) errno)
      | .ok fd =>
          let isWhole := match ← ask (.status fd) with
            | .ok status => status.file.kind = .regular && status.file.size ≤ greatestNames
            | .error _ => false
          let (content, fault) ← readAll fd
          if isWhole then
            ask (.system (.close fd))
          let labels := (piecesOf 0 content).1.map fun name => some (Octets.ofBytes name)
          return ⟨labels, isWhole, fault⟩

def CountMode.width (mode : CountMode) (inputs : CountInputs) : Work Nat := do
  let alone := inputs.labels.length = 1 && (mode.select .zero).length = 1
  if alone || !inputs.known then return 1
  else
    return columnWidth (← inputStatuses (inputs.labels.map fun label => label.getD dash))

def wcWork (arguments : List Octets) : Work Int := do
  let (request, operands) ← takeArguments 1
    (fun request key value => return CountRequest.choose request key value)
    ⟨CountMode.nothing, none, false⟩ (readArguments countOptions false arguments)
  let mode := if request.mode = .nothing then .standard else request.mode
  modify fun outlet => { outlet with byLine := true }
  let inputs ← match request.source with
    | some path => namedLabels path operands
    | none =>
        let labels := if operands.isEmpty then [none] else operands.map some
        pure ⟨labels, true, none⟩
  let labels := inputs.labels
  let width ← mode.width inputs
  let remark := if request.explains && mode.linesAlone then some linesRemark else none
  let (total, succeeded) ← mode.countAll width request.source remark 1 labels .zero
  match inputs.fault with
  | some errno =>
      complain (becauseOf (shownName (request.source.getD []) ++ ": read error".toList) errno)
  | none => pure ()
  if 1 < labels.length then
    put (countLine width (mode.select total) (some "total".toList))
  if request.source != some dash && labels.any fun label => label.getD dash == dash then
    releaseInput dash
  return exitCode (succeeded && inputs.fault.isNone)

end PipelineShell.Tool

import PipelineShell.Tool.Input

/-!
The tool that copies its inputs to its output, one after another. It can number lines, show what
cannot be seen and leave out repeated blank lines; how far it has come carries over from one input
to the next. It refuses to read a file that it would make longer by doing so.
-/

namespace PipelineShell.Tool

/-- How `cat` changes what it copies. -/
structure CopyMode where
  number : Bool
  skipBlank : Bool
  showEnds : Bool
  showTabs : Bool
  showUnprinted : Bool
  squeeze : Bool
deriving DecidableEq, Repr

namespace CopyMode

def plain : CopyMode :=
  ⟨false, false, false, false, false, false⟩

def choose (mode : CopyMode) : String → CopyMode
  | "number" => { mode with number := true }
  | "number-nonblank" => { mode with number := true, skipBlank := true }
  | "squeeze-blank" => { mode with squeeze := true }
  | "show-nonprinting" => { mode with showUnprinted := true }
  | "show-ends" => { mode with showEnds := true }
  | "show-tabs" => { mode with showTabs := true }
  | "show-all" => { mode with showUnprinted := true, showEnds := true, showTabs := true }
  | "e" => { mode with showUnprinted := true, showEnds := true }
  | "t" => { mode with showUnprinted := true, showTabs := true }
  | _ => mode

end CopyMode

def copyOptions : List OptionKind :=
  [flag 'b' "number-nonblank", flag 'n' "number", flag 's' "squeeze-blank",
    flag 'v' "show-nonprinting", flag 'E' "show-ends", flag 'T' "show-tabs", flag 'A' "show-all",
    letterFlag 'e', letterFlag 't', letterFlag 'u']

/-- Where `cat` stands in its inputs. -/
structure CopyPlace where
  lines : Nat
  /-- How many line feeds have come in a row, two at most; minus one inside a line. -/
  feeds : Int
  heldReturn : Bool

def CopyPlace.start : CopyPlace :=
  ⟨0, 0, false⟩

def lineNumber (number : Nat) : List UInt8 :=
  let digits := (toString number).toUTF8.data.toList
  List.replicate (6 - digits.length) 0x20 ++ digits ++ [0x09]

def shownByte (byte : UInt8) : List UInt8 :=
  let low := fun (byte : UInt8) =>
    if byte < 0x20 then [0x5e, byte + 0x40] else if byte = 0x7f then [0x5e, 0x3f] else [byte]
  if byte < 0x80 then low byte else 0x4d :: 0x2d :: low (byte - 0x80)

def CopyMode.lineFeed (mode : CopyMode) (place : CopyPlace) : CopyPlace × List UInt8 :=
  let feeds := min 2 (place.feeds + 1)
  if mode.squeeze && feeds = 2 then ({ place with feeds, heldReturn := false }, [])
  else
    let numbered := 0 < feeds && mode.number && !mode.skipBlank
    let lines := if numbered then place.lines + 1 else place.lines
    (⟨lines, feeds, false⟩,
      (if numbered then lineNumber lines else [])
        ++ (if mode.showEnds then (if place.heldReturn then [0x5e, 0x4d] else []) ++ [0x24] else [])
        ++ [0x0a])

def CopyMode.inner (mode : CopyMode) (place : CopyPlace) (byte : UInt8) :
    CopyPlace × List UInt8 :=
  let numbered := 0 ≤ place.feeds && mode.number
  let lines := if numbered then place.lines + 1 else place.lines
  let before := (if place.heldReturn then [0x0d] else [])
    ++ if numbered then lineNumber lines else []
  let held := byte = 0x0d && mode.showEnds && !mode.showUnprinted
  let shown :=
    if byte = 0x09 then if mode.showTabs then [0x5e, 0x49] else [byte]
    else if mode.showUnprinted then shownByte byte
    else if held then [] else [byte]
  (⟨lines, -1, held⟩, before ++ shown)

def CopyMode.copied (mode : CopyMode) (place : CopyPlace) (content : ByteArray) :
    CopyPlace × ByteArray :=
  content.data.foldl (fun (place, printed) byte =>
    let (place, bytes) := if byte = 0x0a then mode.lineFeed place else mode.inner place byte
    (place, bytes.foldl ByteArray.push printed)) (place, ByteArray.empty)

/-- Writes what has been copied; it is no use to go on if that fails. -/
def writeCopy (content : ByteArray) : Work Unit := do
  if content.size != 0 then
    match ← ask (.emit Fd.output content) with
    | .ok () => return ()
    | .error errno => giveUp 1 (becauseOf "write error".toList errno)

def feedsItself (input output : Host.OpenStatus) : Bool :=
  output.file.kind = .regular && input.file.node == output.file.node
    && input.offset < input.file.size

def copyBlock : Nat := 131072

/-- Copies an open input; the value tells whether all of it was copied. -/
def CopyMode.copy (mode : CopyMode) (path : Octets) (fd : Fd) (place : CopyPlace) :
    Work (CopyPlace × Bool) := do
  match ← ask (.status fd), ← ask (.status Fd.output) with
  | .error errno, _ =>
      complain (becauseOf (shownName path) errno)
      return (place, false)
  | _, .error errno => giveUp 1 (becauseOf "standard output".toList errno)
  | .ok input, .ok output =>
      if feedsItself input output then
        complain (shownName path ++ ": input file is output file".toList)
        return (place, false)
      else
        let (place, fault) ← readBlocks fd copyBlock place fun place content => do
          if mode = .plain then
            writeCopy content
            return place
          else
            let (place, printed) := mode.copied place content
            writeCopy printed
            return place
        match fault with
        | none => return (place, true)
        | some errno =>
            complain (becauseOf (shownName path) errno)
            return (place, false)

/-- Copies the inputs in order; the value tells whether all were copied. -/
def CopyMode.copyAll (mode : CopyMode) : List Octets → CopyPlace → Work (CopyPlace × Bool)
  | [], place => return (place, true)
  | path :: rest, place => do
      let (place, copied) ← match ← openInput path with
        | .error errno => do
            complain (becauseOf (shownName path) errno)
            pure (place, false)
        | .ok fd => do
            let result ← mode.copy path fd place
            closeInput path fd
            pure result
      let (place, others) ← mode.copyAll rest place
      return (place, copied && others)

def catWork (arguments : List Octets) : Work Int := do
  let (mode, operands) ← takeArguments 1 (fun mode key _ => return CopyMode.choose mode key)
    CopyMode.plain (readArguments copyOptions false arguments)
  match ← ask (.status Fd.output) with
  | .error errno => giveUp 1 (becauseOf "standard output".toList errno)
  | .ok _ =>
      let inputs := if operands.isEmpty then [dash] else operands
      let (place, copied) ← mode.copyAll inputs .start
      if place.heldReturn then
        writeCopy ⟨#[0x0d]⟩
      if inputs.contains dash then
        releaseInput "closing standard input".toList
      return exitCode copied

end PipelineShell.Tool

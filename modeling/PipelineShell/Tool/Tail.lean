import PipelineShell.Text.Floating
import PipelineShell.Tool.Choice
import PipelineShell.Tool.Input
import PipelineShell.Tool.Magnitude

/-!
The tool that prints the ends of its inputs: the last of their lines or bytes, or those from a
place on.
-/

namespace PipelineShell.Tool

/-- Whether titles stand in front of the inputs. -/
inductive Titles where
  | always
  | never
  | several
deriving DecidableEq, Repr

/-- Which end of an input `tail` prints. -/
structure TailMode where
  count : Nat
  inBytes : Bool
  fromStart : Bool
  titles : Titles
  terminator : UInt8
  follow : Bool
  byName : Bool
  retry : Bool
  /-- The process whose end is the end of the following; zero is none. -/
  company : Nat
  asking : Bool
deriving DecidableEq, Repr

def TailMode.standard : TailMode :=
  ⟨10, false, false, .several, 0x0a, false, false, false, 0, false⟩

def tailSuffixes : List Char :=
  "bkKmMGTPEZY".toList

def tailOptions : List OptionKind :=
  [valued 'c' "bytes", ⟨"follow", none, "follow", .optional⟩, valued 'n' "lines",
    longValued "max-unchanged-stats", longFlag "-disable-inotify", longValued "pid",
    longFlag "-presume-input-pipe", flag 'q' "quiet", longFlag "retry",
    ⟨"quiet", none, "silent", .none⟩, valued 's' "sleep-interval", flag 'v' "verbose",
    flag 'z' "zero-terminated", letterFlag 'f', letterFlag 'F']
    ++ "0123456789".toList.map letterFlag

def TailMode.chooseCount (mode : TailMode) (inBytes : Bool) (text : Octets) :
    Work TailMode := do
  let digits := if text.head? == some '-' then text.tail else text
  match readMagnitude tailSuffixes true digits with
  | .ok count =>
      return { mode with count, inBytes, fromStart := mode.fromStart || text.head? == some '+' }
  | .error fault =>
      let what := if inBytes then "invalid number of bytes" else "invalid number of lines"
      giveUp 1 (fault.complaint what.toList digits)

/-- A number up to a greatest one; `what` is said of others. -/
def boundedNumber (what : String) (greatest : Nat) (text : Octets) : Work Nat := do
  let fault := fun (fault : MagnitudeFault) => fault.complaint what.toList text
  match readMagnitude [] false text with
  | .ok value => if greatest < value then giveUp 1 (fault .tooLarge) else return value
  | .error found => giveUp 1 (fault found)

def checkSeconds (text : Octets) : Work Unit := do
  let sound := match Floating.read? .double text with
    | some ((number, outOfRange), []) =>
        match number with
        | .nan _ => false
        | .infinite negative => !outOfRange && !negative
        | .finite negative magnitude _ => magnitude = 0 || (!outOfRange && !negative)
    | _ => false
  if !sound then
    giveUp 1 ("invalid number of seconds: ".toList ++ quotedText text)

def followNames : List (String × Bool) :=
  [("descriptor", false), ("name", true)]

def TailMode.choose (mode : TailMode) (key : String) (value : Option Octets) :
    Work TailMode := do
  let text := value.getD []
  match key with
  | "bytes" => mode.chooseCount true text
  | "lines" => mode.chooseCount false text
  | "quiet" => return { mode with titles := .never }
  | "verbose" => return { mode with titles := .always }
  | "zero-terminated" => return { mode with terminator := 0 }
  | "f" => return { mode with follow := true, byName := false }
  | "F" => return { mode with follow := true, byName := true, retry := true }
  | "follow" =>
      match value with
      | none => return { mode with follow := true, byName := false }
      | some name =>
          let byName ← chooseName "--follow" followNames name
          return { mode with follow := true, byName }
  | "retry" => return { mode with retry := true }
  | "pid" => return { mode with company := ← boundedNumber "invalid PID" 2147483647 text }
  | "max-unchanged-stats" => do
      let _ ← boundedNumber "invalid maximum number of unchanged stats between opens"
        greatestMagnitude text
      return mode
  | "-disable-inotify" => return { mode with asking := true }
  | "sleep-interval" => do
      checkSeconds text
      return mode
  | key =>
      if key.length = 1 && key.toList.all Char.isDigit then
        giveUp 1 ("option used in invalid context -- ".toList ++ key.toList)
      else return mode

def TailMode.settle (mode : TailMode) : Work TailMode := do
  if mode.retry then
    if !mode.follow then
      complain "warning: --retry ignored; --retry is useful only when following".toList
    else if !mode.byName then
      complain "warning: --retry only effective for the initial open".toList
  if mode.company != 0 && !mode.follow then
    complain "warning: PID ignored; --pid=PID is useful only when following".toList
  return { mode with retry := mode.retry && mode.follow }

def oldForm? (mode : TailMode) (fromStart : Bool) (text : Octets) :
    Option (Except MagnitudeFault TailMode) :=
  let digits := text.takeWhile Char.isDigit
  let (default, inBytes, rest) := match text.drop digits.length with
    | 'b' :: rest => (5120, true, rest)
    | 'c' :: rest => (10, true, rest)
    | 'l' :: rest => (10, false, rest)
    | rest => (10, false, rest)
  let follow := rest.head? == some 'f'
  if !(if follow then rest.tail else rest).isEmpty then none
  else
    let scale := if (text.drop digits.length).head? == some 'b' then 512 else 1
    let count := if digits.isEmpty then default else decimalValue digits * scale
    some (if greatestMagnitude < count then .error .tooLarge
      else .ok { mode with count, inBytes, fromStart, follow })

def mayBeOld : List Octets → Bool
  | [_] => true
  | [_, second] => second.head? != some '-' || second.length = 1 || second == ['-', '-']
  | [_, second, _] => second == ['-', '-']
  | _ => false

def oldCount? (mode : TailMode) (arguments : List Octets) :
    Option (Except MagnitudeFault TailMode) :=
  if !mayBeOld arguments then none
  else match arguments.headD [] with
    | '+' :: text => oldForm? mode true text
    | ['-', 'c'] => none
    | '-' :: letter :: text => oldForm? mode false (letter :: text)
    | _ => none

def writePart (content : ByteArray) : Work Unit := do
  match ← print content with
  | .ok () => return ()
  | .error errno =>
      modify fun outlet => { outlet with failed := false }
      giveUp 1 (becauseOf "error writing 'standard output'".toList errno)

/-- What is left of a content behind a number of lines, if it holds that many; else how many are
missing. -/
def behindLines (terminator : UInt8) : Nat → List UInt8 → Except Nat (List UInt8)
  | 0, rest => .ok rest
  | missing, [] => .error missing
  | missing + 1, byte :: rest =>
      behindLines terminator (if byte = terminator then missing else missing + 1) rest

def TailMode.passOver (mode : TailMode) (missing : Nat) (content : ByteArray) :
    Nat × ByteArray :=
  if missing = 0 then (0, content)
  else if mode.inBytes then (missing - content.size, content.extract missing content.size)
  else match behindLines mode.terminator missing content.data.toList with
    | .ok rest => (0, ⟨rest.toArray⟩)
    | .error missing => (missing, ByteArray.empty)

def TailMode.lastOf (mode : TailMode) (content : ByteArray) : ByteArray :=
  if mode.inBytes then content.extract (content.size - mode.count) content.size
  else
    let (lines, ended) := piecesOf mode.terminator content
    let kept := lines.drop (lines.length - mode.count)
    let size := kept.foldl (fun size line => size + line.length + 1) 0
    content.extract (content.size - (if ended then size else size - 1)) content.size

def greatestPlace : Nat := Nat.pow 2 63 - 1

/-- Whether a directory is read at once, without looking for the place to print from: every place is
found in it, and the end is behind all of them. -/
def TailMode.readsAtOnce (mode : TailMode) : Bool :=
  if mode.inBytes then mode.count ≤ greatestPlace else mode.fromStart && mode.count ≤ 1

def deviceBlock : Nat := 4096

/-- Prints as many bytes as are asked for. `fuel` bounds the number of reads. -/
def printBytes (fd : Fd) : Nat → Nat → Work (Option Errno)
  | 0, _ => return none
  | fuel + 1, missing => do
      if missing = 0 then return none
      else
        match ← ask (.read fd (min missing 1024)) with
        | .error errno => return some errno
        | .ok content =>
            if content.size = 0 then return none
            else
              writePart content
              printBytes fd fuel (missing - content.size)

/-- Prints the end of an open input; the value tells whether it could be read. A device has no end,
so that what it gives first counts as its last bytes if many are asked for. -/
def TailMode.printEnd (mode : TailMode) (name : Octets) (fd : Fd) : Work Bool := do
  match ← ask (.status fd) with
  | .error errno =>
      complain (becauseOf ("cannot fstat ".toList ++ quotedName name) errno)
      return false
  | .ok status =>
      let fault ←
        if mode.fromStart then do
          let (_, fault) ← readBlocks fd 8192 (mode.count - 1) fun missing content => do
            let (missing, part) := mode.passOver missing content
            writePart part
            return missing
          pure fault
        else if mode.inBytes && status.file.kind = .device && deviceBlock < mode.count then
          printBytes fd mode.count mode.count
        else do
          let (content, fault) ← readAll fd
          if fault.isNone then
            writePart (mode.lastOf content)
          pure fault
      match fault with
      | none => return true
      | some errno =>
          let text := becauseOf ("error reading ".toList ++ quotedName name) errno
          if mode.readsAtOnce && status.file.kind = .directory then giveUp 1 text
          else
            complain text
            return false

/-- An input whose end has been printed. -/
structure Followed where
  name : Octets
  fd : Option Fd
  retried : Bool

/-- The title of an input; `first` tells that nothing stands in front of it. -/
def titleOf (first : Bool) (name : Octets) : Octets :=
  (if first then [] else ['\n']) ++ "==> ".toList ++ name ++ " <==\n".toList

def TailMode.keep (mode : TailMode) (name : Octets) (fd : Fd) (succeeded : Bool) :
    Work (Bool × Followed) := do
  let followable := match ← ask (.status fd) with
    | .ok status => status.file.kind != .directory
    | .error _ => true
  if !followable then
    complain (shownName name ++ ": cannot follow end of this type of file".toList
      ++ if mode.retry then [] else "; giving up on this name".toList)
  let succeeded := succeeded && followable
  if succeeded then return (true, ⟨name, some fd, mode.retry⟩)
  else
    ask (.system (.close fd))
    return (false, ⟨name, none, mode.retry && (followable || mode.byName)⟩)

/-- Prints the ends of the inputs; `first` tells that nothing stands in front of the next one. -/
def TailMode.printEnds (mode : TailMode) (titled first : Bool) :
    List Octets → Work (Bool × List Followed)
  | [] => return (true, [])
  | path :: rest => do
      let name := if path == dash then "standard input".toList else path
      match ← openInput path with
      | .error errno =>
          complain (becauseOf ("cannot open ".toList ++ quotedName name
            ++ " for reading".toList) errno)
          let (_, others) ← mode.printEnds titled first rest
          return (false, ⟨name, none, mode.retry⟩ :: others)
      | .ok fd =>
          if titled then
            put (titleOf first name)
          let succeeded ← mode.printEnd name fd
          let (succeeded, input) ←
            if mode.follow then mode.keep name fd succeeded
            else do
              closeInput path fd
              pure (succeeded, ⟨name, none, false⟩)
          let (others, inputs) ← mode.printEnds titled false rest
          return (succeeded && others, input :: inputs)

/-! ### Following -/

/-- The input without its descriptor, if that is the tool's own input and comes through a channel:
there is nothing to wait for. -/
def Followed.isViable (path : Octets) (input : Followed) : Work Bool := do
  match path == dash, input.fd with
  | true, some fd =>
      match ← ask (.status fd) with
      | .ok status => return status.file.kind != .fifo
      | .error _ => return true
  | _, _ => return true

def viableInputs : List Octets → List Followed → Work (List Followed)
  | path :: paths, input :: inputs => do
      let viable ← input.isViable path
      let others ← viableInputs paths inputs
      return if viable then input :: others else others
  | _, _ => return []

def rewindShortened (name : Octets) (fd : Fd) : Work Unit := do
  match ← ask (.status fd) with
  | .ok status =>
      if status.file.kind = .regular && status.file.size < status.offset then
        complain (shownName name ++ ": file truncated".toList)
        let _ ← ask (.seek fd 0)
  | .error _ => pure ()

/-- Prints what has been added to an input, under its title if the last one printed was another;
the value is the input printed last. -/
def printAdded (titled : Bool) (last : Octets) (input : Followed) : Work Octets := do
  match input.fd with
  | none => return last
  | some fd =>
      rewindShortened input.name fd
      let (last, fault) ← readBlocks fd 8192 last fun last content => do
        if titled && last != input.name then
          put (titleOf false input.name)
        writePart content
        return input.name
      match fault with
      | some errno =>
          giveUp 1 (becauseOf ("error reading ".toList ++ quotedName input.name) errno)
      | none => return last

def Followed.isLink (input : Followed) : Work Bool := do
  match ← ask (.lookAt input.name false) with
  | .ok status => return status.kind = .link
  | .error _ => return false

def Followed.isUnusual (input : Followed) : Work Bool := do
  match input.fd with
  | none => return false
  | some fd =>
      match ← ask (.status fd) with
      | .ok status => return status.file.kind != .regular && status.file.kind != .fifo
      | .error _ => return true

/-- Whether the host tells of changes, so that nobody need ask: of regular files and fifos that are
known by their names and no links. -/
def TailMode.isTold (mode : TailMode) (inputs : List Followed) : Work Bool := do
  if !mode.byName || mode.asking then return false
  else
    let links ← inputs.anyM Followed.isLink
    let unusual ← inputs.anyM Followed.isUnusual
    return !links && !unusual && (inputs.any fun input => input.fd.isSome)

/-- Prints what is added to the inputs until there is no reason to go on; the value tells whether
there were inputs left. -/
def TailMode.followInputs (mode : TailMode) (titled : Bool) (inputs : List Followed) :
    Work Bool := do
  let told ← mode.isTold inputs
  let fds := inputs.filterMap Followed.fd
  let ending := if mode.company = 0 then none else some ⟨mode.company⟩
  let last := (inputs.getLast?.map Followed.name).getD []
  let (found, _) ← loop (true, last) fun (_, last) => do
    let last ← inputs.foldlM (printAdded titled) last
    if fds.isEmpty && !inputs.any Followed.retried then
      complain "no files remaining".toList
      return (false, (false, last))
    else
      match ← flush with
      | .error errno => giveUp 1 (becauseOf "write error".toList errno)
      | .ok () =>
          match ← ask (.watch fds Fd.output ending) with
          | .changed => return (true, (true, last))
          | .unread => leave 1
          | .ended => if told then leave 0 else return (false, (true, last))
  return found

def tailWork (arguments : List Octets) : Work Int := do
  let (mode, arguments) ← match oldCount? .standard arguments with
    | none => pure (TailMode.standard, arguments)
    | some (.ok mode) => pure (mode, arguments.tail)
    | some (.error fault) =>
        giveUp 1 (fault.complaint "invalid number".toList (arguments.headD []))
  let (mode, operands) ← takeArguments 1 TailMode.choose mode
    (readArguments tailOptions false arguments)
  let mode ← mode.settle
  let inputs := if operands.isEmpty then [dash] else operands
  if mode.byName && inputs.contains dash then
    giveUp 1 ("cannot follow ".toList ++ quotedName dash ++ " by name".toList)
  if mode.count = 0 && !mode.fromStart && !mode.follow then return 0
  else
    let titled := match mode.titles with
      | .always => true
      | .never => false
      | .several => 1 < inputs.length
    let (succeeded, printed) ← mode.printEnds titled true inputs
    let viable ← if mode.follow then viableInputs inputs printed else pure []
    let left ← if viable.isEmpty then pure true else mode.followInputs titled viable
    if inputs.contains dash then
      releaseInput dash
    return exitCode (succeeded && left)

end PipelineShell.Tool

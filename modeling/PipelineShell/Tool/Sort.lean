import PipelineShell.Tool.SortReport

/-!
The tool that sorts lines by keys, merges inputs that are sorted already, or checks that one is.
Lines with equal keys are told apart by their bytes, unless that is not wanted. All inputs are
read before the first line is written, so that the output may be one of them.
-/

namespace PipelineShell.Tool

/-! ### Comparing -/

namespace SortRequest

def compare (request : SortRequest) (left right : Octets) : Ordering :=
  let keys := request.activeKeys
  let byKeys := compareKeys request.seed request.separator keys left right
  if !keys.isEmpty && (byKeys != .eq || request.unique || request.stable) then byKeys
  else
    let found := compareOctets left right
    if request.order.reverse then found.swap else found

def withoutRepeats (request : SortRequest) (last : Option Octets) : List Octets → List Octets
  | [] => []
  | line :: rest =>
      if last.any fun last => request.compare line last == .eq then
        request.withoutRepeats last rest
      else line :: request.withoutRepeats (some line) rest

def sorted (request : SortRequest) (lines : List Octets) : List Octets :=
  lines.mergeSort fun left right => request.compare left right != .gt

/-- Puts the lines of an input, whose place among the inputs is given, among others of which the
first lines are in order. -/
def place (request : SortRequest) (number : Nat) (lines : List Octets) :
    List (Nat × List Octets) → List (Nat × List Octets)
  | [] => if lines.isEmpty then [] else [(number, lines)]
  | (other, others) :: rest =>
      match lines, others with
      | [], _ => (other, others) :: rest
      | _, [] => request.place number lines rest
      | line :: _, first :: _ =>
          let order := request.compare line first
          if order == .lt || (order == .eq && number < other) then
            (number, lines) :: (other, others) :: rest
          else (other, others) :: request.place number lines rest

/-- Merges inputs, the least of the first lines first. `fuel` bounds the number of lines. -/
def mergeWithin (request : SortRequest) : Nat → List (Nat × List Octets) → List Octets
  | 0, _ => []
  | fuel + 1, inputs =>
      match inputs with
      | (number, line :: lines) :: rest =>
          line :: request.mergeWithin fuel (request.place number lines rest)
      | (_, []) :: rest => request.mergeWithin fuel rest
      | [] => []

def merged (request : SortRequest) (inputs : List (List Octets)) : List Octets :=
  let numbered := inputs.zipIdx.foldl (fun placed (lines, number) =>
    request.place number lines placed) []
  request.mergeWithin (inputs.foldl (fun count lines => count + lines.length + 1) 0) numbered

def disorder? (request : SortRequest) : Nat → List Octets → Option (Nat × Octets)
  | number, first :: second :: rest =>
      let order := request.compare first second
      if order == .gt || (request.unique && order == .eq) then some (number + 1, second)
      else request.disorder? (number + 1) (second :: rest)
  | _, _ => none

end SortRequest

/-! ### Inputs and output -/

def sortComplaint (what : String) (path : Octets) (errno : Errno) : Octets :=
  becauseOf (what.toList ++ ": ".toList ++ shownName path) errno

def openSorted (path : Octets) : Work Fd := do
  match ← openInput path with
  | .ok fd => return fd
  | .error errno => giveUp sortFailure (sortComplaint "open failed" path errno)

/-- Closes an input. One that has the descriptor of the tool's own input or output stays open. -/
def closeSorted (path : Octets) (fd : Fd) : Work Unit := do
  if fd != Fd.input && fd != Fd.output then
    closeInput path fd

def readSorted (terminator : UInt8) (path : Octets) (fd : Fd) : Work (List Octets) := do
  match ← readAll fd with
  | (content, none) =>
      closeSorted path fd
      return (piecesOf terminator content).1.map Octets.ofBytes
  | (_, some errno) => giveUp sortFailure (sortComplaint "read failed" path errno)

def checkOwnInput (path : Octets) : Work Unit := do
  if path == dash then
    match ← ask (.status Fd.input) with
    | .ok _ => return ()
    | .error errno => giveUp sortFailure (sortComplaint "stat failed" path errno)

def checkThere (path : Octets) : Work Unit := do
  if path != dash then
    match ← ask (.lookAt path true) with
    | .ok _ => return ()
    | .error errno => giveUp sortFailure (sortComplaint "cannot read" path errno)

def redirectOutput (path : Octets) (mode : Host.OpenMode) : Work Unit := do
  match ← ask (.openFile path mode) with
  | .ok fd =>
      if fd != Fd.output then
        let _ ← ask (.system (.duplicateOnto fd Fd.output))
        ask (.system (.close fd))
  | .error errno => giveUp sortFailure (sortComplaint "open failed" path errno)

def seedSize : Nat := 16

def readSeed (fd : Fd) (found : List UInt8) : Nat → Work (Except Errno (List UInt8))
  | 0 => return .ok found
  | missing + 1 => do
      match ← ask (.read fd (seedSize - found.length)) with
      | .error errno => return .error errno
      | .ok bytes =>
          let found := found ++ bytes.data.toList
          if bytes.size = 0 || seedSize ≤ found.length then return .ok found
          else readSeed fd found missing

/-- The request with the bytes that decide what its random order is, if it has one. Without a
source they are those of a device. -/
def SortRequest.withSeed (request : SortRequest) : Work SortRequest := do
  if !request.activeKeys.any fun key => key.order.random then return request
  else
    let path := request.randomSource.getD "/dev/urandom".toList
    let fd ← openSorted path
    match ← readSeed fd [] seedSize with
    | .error errno =>
        giveUp sortFailure (becauseOf (quotedText path ++ ": read error".toList) errno)
    | .ok seed =>
        if seed.length < seedSize then
          giveUp sortFailure (quotedText path ++ ": end of file".toList)
        else
          closeInput path fd
          return { request with seed }

def emptyOutput (path : Octets) : Work Unit := do
  match ← ask (.status Fd.output) with
  | .ok status =>
      if status.file.kind = .regular then
        redirectOutput path .emptied
  | .error _ => return ()

def writeSorted (request : SortRequest) (lines : List Octets) : Work Unit := do
  let name := request.output.getD "standard output".toList
  for line in lines do
    let shown := if request.explains then explained request line
      else line ++ [Octets.ofByte request.terminator]
    match ← print (Octets.toContent shown) with
    | .ok () => pure ()
    | .error errno => giveUp sortFailure (sortComplaint "write failed" name errno)
  match ← flush with
  | .ok () => return ()
  | .error errno => giveUp sortFailure (sortComplaint "fflush failed" name errno)

def checkSorted (request : SortRequest) (letter : Char) (path : Octets) : Work Int := do
  let fd ← openSorted path
  let lines ← readSorted request.terminator path fd
  match request.disorder? 1 lines with
  | none => return 0
  | some (number, line) =>
      if letter == 'c' then
        let name := (← get).name
        let _ ← ask (.emit Fd.error (Octets.toContent (name ++ ": ".toList ++ path ++ [':']
          ++ Octets.ofNumber number ++ ": disorder: ".toList ++ line
          ++ [Octets.ofByte request.terminator])))
      return 1

def sortInputs (request : SortRequest) (inputs : List Octets) : Work Int := do
  inputs.forM checkThere
  match request.output with
  | none => pure ()
  | some path => redirectOutput path .appending
  let lines ←
    if request.merge then do
      let opened ← inputs.mapM openSorted
      let all ← (inputs.zip opened).mapM fun (path, fd) => readSorted request.terminator path fd
      pure (request.merged all)
    else do
      let all ← inputs.zipIdx.mapM fun (path, number) => do
        let fd ← openSorted path
        if number = 0 then
          inputs.forM checkOwnInput
        readSorted request.terminator path fd
      pure (request.sorted all.flatten)
  match request.output with
  | none => pure ()
  | some path => emptyOutput path
  writeSorted request (if request.unique then request.withoutRepeats none lines else lines)
  return 0

def namedInputs (path : Octets) (operands : List Octets) : Work (List Octets) := do
  match operands with
  | operand :: _ => refuseOperand sortFailure operand
  | [] =>
      let fd ← openSorted path
      match ← readAll fd with
      | (_, some _) =>
          giveUp sortFailure ("cannot read file names from ".toList ++ quotedName path)
      | (content, none) =>
          closeSorted path fd
          let names := (piecesOf 0 content).1.map Octets.ofBytes
          if names.isEmpty then
            giveUp sortFailure ("no input from ".toList ++ quotedName path)
          else
            checkNames 1 names
            return names
where
  checkNames (number : Nat) : List Octets → Work Unit
    | [] => return ()
    | name :: rest => do
        if name == dash then
          giveUp sortFailure (dashComplaint name)
        if name.isEmpty then
          giveUp sortFailure (emptyComplaint path number)
        checkNames (number + 1) rest

def sortWork (arguments : List Octets) : Work Int := do
  let request ← SortRequest.take (sortOptions ++ commonOptions) (arguments.length + 1) .standard
    arguments
  let named ← match request.namesFrom with
    | some path => namedInputs path request.inputs
    | none => pure request.inputs
  match request.activeKeys.find? fun key => key.order.isContradictory with
  | some key => refuseTogether key.order.letters
  | none =>
      if request.explains then
        if request.check.isSome || request.output.isSome then
          refuseTogether (request.check.getD 'o' :: " --debug".toList)
        request.remarks.forM complain
      let request ← request.withSeed
      let inputs := if named.isEmpty then [dash] else named
      match request.check, inputs with
      | none, inputs => sortInputs request inputs
      | some letter, _ :: second :: _ =>
          giveUp sortFailure ("extra operand ".toList ++ quotedName second
            ++ " not allowed with -".toList ++ [letter])
      | some letter, inputs =>
          if request.output.isSome then refuseTogether [letter, 'o']
          else checkSorted request letter (inputs.headD dash)

end PipelineShell.Tool

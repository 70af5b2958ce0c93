import PipelineShell.Tool.Arguments
import PipelineShell.Tool.Quoting

/-!
Reading inputs block by block. A single dash is the input of the tool itself.
-/

namespace PipelineShell.Tool

def dash : Octets := ['-']

def openInput (path : Octets) : Work (Except Errno Fd) :=
  if path == dash then return .ok Fd.input
  else ask (.openFile path .reading)

def closeInput (path : Octets) (fd : Fd) : Work Unit := do
  if path != dash then
    ask (.system (.close fd))

def releaseInput (subject : Octets) : Work Unit := do
  match ← ask (.status Fd.input) with
  | .ok _ => ask (.system (.close Fd.input))
  | .error errno => giveUp 1 (becauseOf subject errno)

/-- Reads up to the end in blocks of a size and does something with each; the value is the cause
if reading fails. -/
def readBlocks {σ : Type} (fd : Fd) (size : Nat) (start : σ) (use : σ → ByteArray → Work σ) :
    Work (σ × Option Errno) := do
  let (state, fault, _) ← loop (start, (none : Option Errno), ()) fun (state, _, _) => do
    match ← ask (.read fd size) with
    | .error .interrupted => return (true, (state, none, ()))
    | .error errno => return (false, (state, some errno, ()))
    | .ok content =>
        if content.size = 0 then return (false, (state, none, ()))
        else return (true, (← use state content, none, ()))
  return (state, fault)

def wholeBlock : Nat := 65536

def readAll (fd : Fd) : Work (ByteArray × Option Errno) :=
  readBlocks fd wholeBlock ByteArray.empty fun before content => return before ++ content

/-- The pieces of a content between bytes that end them, and whether the last piece is ended too.
Nothing stands behind the last end. -/
def piecesOf (terminator : UInt8) (content : ByteArray) : List (List UInt8) × Bool :=
  let (current, pieces) := content.data.foldr (fun byte (current, pieces) =>
    if byte == terminator then ([], current :: pieces) else (byte :: current, pieces))
    (([], []) : List UInt8 × List (List UInt8))
  let all := current :: pieces
  if content.size = 0 then ([], true)
  else if content.data.back? == some terminator then (all.dropLast, true)
  else (all, false)

/-! ### Names of inputs in a file -/

def refuseOperand {α : Type} (failure : Int) (operand : Octets) : Work α := do
  complain ("extra operand ".toList ++ quotedName operand)
  complainPlainly "file operands cannot be combined with --files0-from".toList
  misuse failure []

def dashComplaint (name : Octets) : Octets :=
  "when reading file names from stdin, no file name of ".toList ++ quotedName name
    ++ " allowed".toList

def emptyComplaint (path : Octets) (number : Nat) : Octets :=
  shownName path ++ ':' :: Octets.ofNumber number ++ ": invalid zero-length file name".toList

end PipelineShell.Tool

import PipelineShell.Host.Call

/-!
What a tool works with: its name, and the bytes it has printed but not written. Printed bytes are
held back up to a block; those that cannot be written are lost, and the loss is reported at the
end. A tool may leave at any point.
-/

namespace PipelineShell.Tool

/-- Where a tool prints. -/
structure Outlet where
  name : Octets
  held : ByteArray
  begun : Bool
  byLine : Bool
  failed : Bool
  unheard : Bool

def Outlet.new (name : Octets) : Outlet :=
  ⟨name, ByteArray.empty, false, false, false, false⟩

/-- A tool at work; it may leave with an exit code. -/
abbrev Work := ExceptT Int (StateT Outlet (Routine Host.interface))

def ask (request : Host.Call) : Work request.Reply :=
  ExceptT.lift (StateT.lift (Host.call request))

def blockSize : Nat := 4096

/-- Writes bytes at once. Those that cannot be written are lost. -/
def writeNow (content : ByteArray) : Work (Except Errno Unit) := do
  match ← ask (.emit Fd.output content) with
  | .ok () => return .ok ()
  | .error errno =>
      modify fun outlet => { outlet with failed := true }
      return .error errno

def flush : Work (Except Errno Unit) := do
  let held := (← get).held
  if held.size = 0 then return .ok ()
  else
    modify fun outlet => { outlet with held := ByteArray.empty }
    writeNow held

def inBlocks (size : Nat) : Nat :=
  size - size % blockSize

/-- Prints bytes that do not fit with what is held back: fills up the block, writes it and all
whole blocks, and holds back the rest. -/
def printBlocks (content : ByteArray) : Work (Except Errno Unit) := do
  let outlet ← get
  let room := if outlet.begun then blockSize - outlet.held.size else 0
  let first := outlet.held ++ content.extract 0 room
  set { outlet with held := ByteArray.empty, begun := true }
  let written ← if first.size = 0 then pure (.ok ()) else writeNow first
  match written with
  | .error errno => return .error errno
  | .ok () =>
      let rest := content.extract room content.size
      let whole := inBlocks rest.size
      let written ← if whole = 0 then pure (.ok ()) else writeNow (rest.extract 0 whole)
      match written with
      | .error errno => return .error errno
      | .ok () =>
          modify fun outlet => { outlet with held := rest.extract whole rest.size }
          return .ok ()

def print (content : ByteArray) : Work (Except Errno Unit) := do
  let outlet ← get
  let room := if outlet.begun then blockSize - outlet.held.size else blockSize - 1
  let printed ←
    if content.size = 0 then pure (.ok ())
    else if content.size ≤ room then
      set { outlet with held := outlet.held ++ content, begun := true }
      pure (.ok ())
    else printBlocks content
  match printed with
  | .error errno => return .error errno
  | .ok () => if outlet.byLine && content.data.contains 0x0a then flush else return .ok ()

/-- Prints octets. What cannot be written is reported at the end. -/
def put (octets : Octets) : Work Unit := do
  let _ ← print (Octets.toContent octets)

def complainPlainly (text : Octets) : Work Unit := do
  let _ ← flush
  match ← ask (.emit Fd.error (Octets.toContent (text ++ ['\n']))) with
  | .ok () => return ()
  | .error _ => modify fun outlet => { outlet with unheard := true }

def complain (text : Octets) : Work Unit := do
  let name := (← get).name
  complainPlainly (name ++ ": ".toList ++ text)

def leave {α : Type} (code : Int) : Work α :=
  throw code

def giveUp {α : Type} (code : Int) (text : Octets) : Work α := do
  complain text
  leave code

def wording (errno : Errno) : Octets :=
  errno.text.toList

def becauseOf (subject : Octets) (errno : Errno) : Octets :=
  subject ++ ": ".toList ++ wording errno

def misuse {α : Type} (code : Int) (text : Octets) : Work α := do
  let name := (← get).name
  if !text.isEmpty then
    complain text
  complainPlainly ("Try '".toList ++ name ++ " --help' for more information.".toList)
  leave code

def exitCode (succeeded : Bool) : Int :=
  if succeeded then 0 else 1

/-- Writes what is held back at the end; a loss decides the exit code. -/
def close (code failure : Int) : Work Int := do
  let lost := (← get).failed
  match ← flush with
  | .error errno =>
      complain (becauseOf "write error".toList errno)
      return failure
  | .ok () =>
      if lost then
        match ← ask (.status Fd.output) with
        | .error errno => complain (becauseOf "write error".toList errno)
        | .ok _ => complain "write error".toList
        return failure
      else
        return if (← get).unheard then failure else code

/-- Does the work of a tool that has been told its arguments, the first of which is its name.
`failure` is the exit code if something printed is lost. -/
def perform (failure : Int) (work : List Octets → Work Int) (arguments : List Octets) :
    Routine Host.interface Int := do
  let (result, outlet) ← (work arguments.tail).run.run (.new (arguments.headD []))
  let code := match result with
    | .ok code => code
    | .error code => code
  let (closed, _) ← (close code failure).run.run outlet
  return match closed with
    | .ok code => code
    | .error code => code

/-! ### Loops -/

def endurance : Nat := 1000000000000

def goRound {σ : Type} (step : σ → Work (Bool × σ)) : Nat → σ → Work σ
  | 0, state => return state
  | rounds + 1, state => do
      let (again, state) ← step state
      if again then goRound step rounds state else return state

def loop {σ : Type} (state : σ) (step : σ → Work (Bool × σ)) : Work σ :=
  goRound step endurance state

end PipelineShell.Tool

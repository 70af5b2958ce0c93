import PipelineShell.Script.Expansion
import PipelineShell.Script.Signals

/-!
Redirections. What stood behind a descriptor is put aside before the descriptor is redirected, and
brought back when the redirection ends.
-/

namespace PipelineShell.Script

/-- Where a redirection leads, once its word has been expanded. -/
inductive Target where
  | file (kind : RedirectionKind) (path : Octets)
  | copy (source : Option Fd)
  | document (word : Word)

/-- What has been opened for a redirection. -/
inductive Opened where
  | itself
  | nothing
  | copy (source : Fd)
  | fresh (fd : Fd)
deriving DecidableEq, Repr

def firstAside : Fd := 10

def redirectable : Nat := 10

def documentRoom : Nat := 4096

/-! ### Targets -/

def refuseDescriptor {α : Type} : Run α := do
  modify fun state => { state with line := state.nextLine }
  fail "Syntax error: Bad fd number".toList

def namedDescriptor (text : Octets) : Run (Option Fd) :=
  match text with
  | ['-'] => return none
  | [digit] => if digit.isDigit then return some (digit.toNat - 48) else refuseDescriptor
  | _ => refuseDescriptor

def targetOf (expander : Expander) (redirection : Redirection) : Run Target := do
  match redirection.kind with
  | .document number => return .document (((← get).documents.lookup number).getD [])
  | .copy =>
      let text ← expandText expander .plain redirection.target
      return .copy (← namedDescriptor text)
  | kind => return .file kind (← expandText expander .plain redirection.target)

def targetsOf (expander : Expander) (redirections : List Redirection) :
    Run (List (Fd × Target)) :=
  redirections.mapM fun redirection => do
    return (redirection.fd, ← targetOf expander redirection)

/-! ### Opening -/

def fileFault (verb : String) (missing : String) (path : Octets) (errno : Errno) : Octets :=
  let cause := if errno = .noEntry || errno = .notDirectory then missing else errno.text
  "cannot ".toList ++ verb.toList ++ ' ' :: path ++ ": ".toList ++ cause.toList

def unreadable (path : Octets) (errno : Errno) : Octets :=
  fileFault "open" "No such file" path errno

def unwritable (path : Octets) (errno : Errno) : Octets :=
  fileFault "create" "Directory nonexistent" path errno

def openFile (path : Octets) (mode : Host.OpenMode) : Run Opened := do
  match ← ask (.openFile path mode) with
  | .ok fd => return .fresh fd
  | .error errno =>
      if errno = .interrupted then
        noticeSignals
      fail (if mode = .reading then unreadable path errno else unwritable path errno)

def openCautiously (path : Octets) : Run Opened := do
  match ← ask (.lookAt path true) with
  | .error _ => openFile path .fresh
  | .ok status =>
      if status.kind = .regular then fail (unwritable path .fileExists)
      else openFile path .emptied

def writerIgnores : List Nat :=
  [1, 2, 3, 20]

def writeDocument (reading writing : Fd) (content : ByteArray) : Run Unit := do
  match ← ask .split with
  | some _ => return ()
  | none =>
      ask (.system (.close reading))
      writerIgnores.forM fun signal => ask (.dispose signal .ignored)
      ask (.dispose 13 .standard)
      let _ ← ask (.emit writing content)
      ask (.die (.exited 0))

def makePipe : Run (Fd × Fd) := do
  match ← ask (.system .makePipe) with
  | .ok ends => return ends
  | .error _ => fail "Pipe call failed".toList

def openDocument (expander : Expander) (word : Word) : Run Opened := do
  let (reading, writing) ← makePipe
  let content := Octets.toContent (← expandText expander .document word)
  if content.size ≤ documentRoom then
    let _ ← ask (.emit writing content)
  else writeDocument reading writing content
  ask (.system (.close writing))
  return .fresh reading

def openTarget (expander : Expander) (fd : Fd) : Target → Run Opened
  | .copy none => return .nothing
  | .copy (some source) => return if source = fd then .itself else .copy source
  | .document word => openDocument expander word
  | .file .input path => openFile path .reading
  | .file .both path => openFile path .both
  | .file .append path => openFile path .appending
  | .file .output path => do
      if ← has "noclobber" then openCautiously path else openFile path .emptied
  | .file _ path => openFile path .emptied

/-! ### Moving descriptors -/

def refuseCopy {α : Type} (fd : Fd) (errno : Errno) : Run α :=
  fail (Octets.ofNumber fd ++ ": ".toList ++ errno.text.toList)

def moveAside (fd : Fd) : Run Fd := do
  match ← ask (.system (.duplicateAbove fd firstAside)) with
  | .error errno => refuseCopy fd errno
  | .ok copy =>
      ask (.system (.close fd))
      return copy

def putAside (fd : Fd) : Run Before := do
  match ← ask (.status fd) with
  | .error _ => return .closed
  | .ok _ => return .copy (← moveAside fd)

def settle (fd : Fd) : Opened → Run Unit
  | .itself => return ()
  | .nothing => ask (.system (.close fd))
  | .copy source => do
      match ← ask (.system (.duplicateOnto source fd)) with
      | .ok () => return ()
      | .error errno => refuseCopy source errno
  | .fresh source => do
      if source = fd then
        let _ ← ask (.system (.keepOnExecute fd))
      else
        let _ ← ask (.system (.duplicateOnto source fd))
        ask (.system (.close source))

def remember (fd : Fd) (opened : Opened) : Run Unit := do
  match (← get).redirections with
  | [] => return ()
  | frame :: rest =>
      if (frame.lookup fd).isNone then
        let before ← if opened = .fresh fd then pure Before.closed else putAside fd
        modify fun state => { state with redirections := ((fd, before) :: frame) :: rest }

/-- Carries out redirections; what stood there before is remembered if `keep` is set. -/
def redirect (expander : Expander) (keep : Bool) (targets : List (Fd × Target)) : Run Unit :=
  targets.forM fun (fd, target) => do
    let opened ← openTarget expander fd target
    if opened != .itself then
      if keep then
        remember fd opened
      settle fd opened

/-- Carries out redirections that can be ended again; the value is the status of a failure. -/
def redirectSafely (expander : Expander) (targets : List (Fd × Target)) : Run Int := do
  modify fun state => { state with redirections := [] :: state.redirections }
  match ← caught (redirect expander true targets) with
  | .ok () => return 0
  | .error .error => return 2
  | .error reason => throw reason

def bringBack (forget : Bool) (fd : Fd) : Before → Run Unit
  | .closed => if forget then return () else ask (.system (.close fd))
  | .copy copy => do
      if !forget then
        let _ ← ask (.system (.duplicateOnto copy fd))
      ask (.system (.close copy))

def endRedirection (forget : Bool) : Run Unit := do
  match (← get).redirections with
  | [] => return ()
  | frame :: rest =>
      modify fun state => { state with redirections := rest }
      (List.range redirectable).forM fun fd =>
        match frame.lookup fd with
        | some before => bringBack forget fd before
        | none => return ()

def endRedirections (count : Nat) : Run Unit := do
  let excess := (← get).redirections.length - count
  (List.range excess).forM fun _ => endRedirection false

def closeSources (count : Nat) : Run Unit := do
  let sources := (← get).sources
  let gone := sources.take (sources.length - count)
  gone.forM fun fd => ask (.system (.close fd))
  modify fun state => { state with sources := sources.drop gone.length }

/-- Moves a descriptor out of the reach of redirections, to be closed when a program is
executed. -/
def hideDescriptor (fd : Fd) : Run Fd := do
  if fd < firstAside then moveAside fd else return fd

end PipelineShell.Script

import PipelineShell.Tool.Input
import PipelineShell.Tool.Permissions

/-!
The tools that change directories: `mkfifo` and `rmdir`.
-/

namespace PipelineShell.Tool

/-- Does something for each operand; the value tells whether all succeeded. -/
def forEachOperand (act : Octets → Work Bool) : List Octets → Work Bool
  | [] => return true
  | operand :: rest => do
      let succeeded ← act operand
      return succeeded && (← forEachOperand act rest)

/-! ### Fifos -/

def fifoPermissions (mask : Nat) (text : Octets) : Except Octets Permissions :=
  match PermissionChange.read? text with
  | none => .error "invalid mode".toList
  | some changes =>
      let permissions := changes.foldl (PermissionChange.apply mask) Permissions.readWrite
      if permissions.isSpecial then
        .error "mode must specify only file permission bits".toList
      else .ok permissions

/-- Makes a fifo; `executable` tells whether anyone may execute it. -/
def makeFifo (executable : Bool) (path : Octets) : Work Bool := do
  match ← ask (.makeFifo path executable) with
  | .ok () => return true
  | .error errno =>
      complain (becauseOf ("cannot create fifo ".toList ++ quotedName path) errno)
      return false

def chooseFifo (mode : Option Octets) (key : String) (value : Option Octets) :
    Work (Option Octets) := do
  match key, value with
  | "mode", value => return value
  | "context", some _ =>
      complain ("warning: ignoring --context; ".toList
        ++ "it requires an SELinux/SMACK-enabled kernel".toList)
      return mode
  | _, _ => return mode

def fifoOptions : List OptionKind :=
  [⟨"context", .none, "context", .optional⟩, valued 'm' "mode", letterFlag 'Z']

def mkfifoWork (arguments : List Octets) : Work Int := do
  let (mode, operands) ← takeArguments 1 chooseFifo none
    (readArguments fifoOptions false arguments)
  if operands.isEmpty then misuse 1 "missing operand".toList
  else
    let mask ← ask .mask
    match fifoPermissions mask <$> mode with
    | some (.error fault) => giveUp 1 fault
    | some (.ok permissions) =>
        let executable := permissions &&& Permissions.execution != 0
        return exitCode (← forEachOperand (makeFifo executable) operands)
    | none => return exitCode (← forEachOperand (makeFifo false) operands)

/-! ### Directories -/

/-- How `rmdir` goes about it. -/
structure RemovalMode where
  parents : Bool
  verbose : Bool
  lenient : Bool
deriving DecidableEq, Repr

def RemovalMode.choose (mode : RemovalMode) : String → RemovalMode
  | "parents" => { mode with parents := true }
  | "verbose" => { mode with verbose := true }
  | "ignore-fail-on-non-empty" => { mode with lenient := true }
  | _ => mode

def removalOptions : List OptionKind :=
  [longFlag "ignore-fail-on-non-empty", ⟨"parents", .none, "path", .none⟩, flag 'p' "parents",
    flag 'v' "verbose"]

def RemovalMode.announce (mode : RemovalMode) (path : Octets) : Work Unit := do
  if mode.verbose then
    let name := (← get).name
    put (name ++ ": removing directory, ".toList ++ quotedName path ++ ['\n'])

/-- Whether a failure to take away a directory is passed over: it holds something, which may be why
it cannot be taken away. -/
def RemovalMode.passesOver (mode : RemovalMode) (errno : Errno) (path : Octets) : Work Bool := do
  if !mode.lenient then return false
  else if errno = .notEmpty || errno = .fileExists then return true
  else if errno = .accessDenied || errno = .notPermitted || errno = .busy then
    match ← ask (.names path) with
    | .ok names => return !names.isEmpty
    | .error _ => return false
  else return false

def withoutSlashes (path : Octets) : Octets :=
  let short := (path.reverse.dropWhile (· == '/')).reverse
  if short.isEmpty then path.take 1 else short

def above? (path : Octets) : Option Octets :=
  let behind := path.reverse.takeWhile (· != '/')
  if behind.length = path.length then none
  else
    let front := path.take (path.length - behind.length)
    let short := (front.reverse.dropWhile (· == '/')).reverse
    if short.isEmpty then some (front.take 1) else some short

/-- Takes away the directories above, up to the first that cannot be. `fuel` bounds their
number. -/
def RemovalMode.removeAbove (mode : RemovalMode) : Nat → Octets → Work Bool
  | 0, _ => return true
  | fuel + 1, path => do
      match above? path with
      | none => return true
      | some path =>
          mode.announce path
          match ← ask (.removeDirectory path) with
          | .ok () => mode.removeAbove fuel path
          | .error errno =>
              if ← mode.passesOver errno path then return true
              else
                let kind := if errno = .notDirectory then [] else "directory ".toList
                complain (becauseOf ("failed to remove ".toList ++ kind ++ quotedName path) errno)
                return false

def linkComplaint (path : Octets) : Octets :=
  "failed to remove ".toList ++ quotedName path ++ ": Symbolic link not followed".toList

def isFollowedLink (path : Octets) : Work Bool := do
  if path.getLast? != some '/' then return false
  else
    let leads := match ← ask (.lookAt path true) with
      | .ok target => target.kind = .directory
      | .error errno => errno != .notDirectory
    match ← ask (.lookAt (withoutSlashes path) false) with
    | .ok entry => return leads && entry.kind = .link
    | .error _ => return false

def RemovalMode.remove (mode : RemovalMode) (path : Octets) : Work Bool := do
  mode.announce path
  match ← ask (.removeDirectory path) with
  | .ok () =>
      if mode.parents then
        let short := withoutSlashes path
        mode.removeAbove short.length short
      else return true
  | .error errno =>
      if ← mode.passesOver errno path then return true
      else if errno = .notDirectory && (← isFollowedLink path) then
        complain (linkComplaint path)
        return false
      else
        complain (becauseOf ("failed to remove ".toList ++ quotedName path) errno)
        return false

def rmdirWork (arguments : List Octets) : Work Int := do
  let (mode, operands) ← takeArguments 1
    (fun mode key _ => return RemovalMode.choose mode key)
    (⟨false, false, false⟩ : RemovalMode) (readArguments removalOptions false arguments)
  if operands.isEmpty then misuse 1 "missing operand".toList
  else return exitCode (← forEachOperand mode.remove operands)

end PipelineShell.Tool

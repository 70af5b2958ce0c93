import PipelineShell.Text.Octets

/-!
Permissions of files as they are written: octal digits, or clauses that say for whom something is
added, taken away or set. The changes of a text are carried out from left to right on permissions
that are there already.
-/

namespace PipelineShell.Tool

abbrev Permissions := Nat

namespace Permissions

def all : Permissions := 0o7777

def plain : Permissions := 0o777

def readWrite : Permissions := 0o666

def execution : Permissions := 0o111

def without (permissions others : Permissions) : Permissions :=
  permissions &&& (all ^^^ (others &&& all))

def isSpecial (permissions : Permissions) : Bool :=
  permissions.without plain != 0

def spread (permissions : Permissions) : Permissions :=
  [0o444, 0o222, 0o111].foldl (fun spread each =>
    if permissions &&& each = 0 then spread else spread ||| each) permissions

end Permissions

/-- What a change makes of permissions. -/
inductive ChangeKind where
  | set
  | add
  | remove
deriving DecidableEq, Repr

/-- Which permissions a change is about. -/
inductive ChangeSource where
  | given (permissions : Permissions)
  | existing (permissions : Permissions)
  | conditional (permissions : Permissions)
deriving DecidableEq, Repr

/-- A change of permissions. -/
structure PermissionChange where
  kind : ChangeKind
  /-- The permissions of the users that the change is for; none if it names no users. -/
  affected : Permissions
  source : ChangeSource
deriving DecidableEq, Repr

namespace PermissionChange

def kindOf? : Char → Option ChangeKind
  | '=' => some .set
  | '+' => some .add
  | '-' => some .remove
  | _ => none

def usersOf? : Char → Option Permissions
  | 'u' => some 0o4700
  | 'g' => some 0o2070
  | 'o' => some 0o1007
  | 'a' => some Permissions.all
  | _ => none

def rightsOf? : Char → Option Permissions
  | 'r' => some 0o444
  | 'w' => some 0o222
  | 'x' => some 0o111
  | 's' => some 0o6000
  | 't' => some 0o1000
  | _ => none

def isOctal (digit : Char) : Bool :=
  '0' ≤ digit && digit ≤ '7'

def octal? (digits : Octets) : Option Permissions :=
  digits.foldl (fun found digit => found.bind fun value =>
    let value := value * 8 + (digit.toNat - 48)
    if Permissions.all < value then none else some value) (some 0)

def readSource (affected : Permissions) (text : Octets) :
    Option (Permissions × ChangeSource × Octets) :=
  match text with
  | 'u' :: rest => some (affected, .existing 0o700, rest)
  | 'g' :: rest => some (affected, .existing 0o070, rest)
  | 'o' :: rest => some (affected, .existing 0o007, rest)
  | text =>
      let digits := text.takeWhile isOctal
      if digits.isEmpty then
        let letters := text.takeWhile fun letter => letter == 'X' || (rightsOf? letter).isSome
        let rights := letters.foldl (fun rights letter =>
          rights ||| (rightsOf? letter).getD 0) 0
        let source := if letters.contains 'X' then .conditional rights else .given rights
        some (affected, source, text.drop letters.length)
      else
        let rest := text.drop digits.length
        if affected != 0 || !(rest.isEmpty || rest.head? == some ',') then none
        else (octal? digits).map fun value => (Permissions.all, .given value, rest)

/-- Reads the changes of a clause from a sign on. `fuel` bounds their number. -/
def readChanges (affected : Permissions) : Nat → Octets → Option (List PermissionChange × Octets)
  | 0, _ => none
  | fuel + 1, text =>
      match text with
      | sign :: rest =>
          match kindOf? sign with
          | none => some ([], text)
          | some kind => do
              let (affected, source, rest) ← readSource affected rest
              let (later, rest) ← readChanges affected fuel rest
              return (⟨kind, affected, source⟩ :: later, rest)
      | [] => some ([], [])

/-- Reads clauses with commas between them. `fuel` bounds the length of the text. -/
def readClauses : Nat → Octets → Option (List PermissionChange)
  | 0, _ => none
  | fuel + 1, text => do
      let users := text.takeWhile fun letter => (usersOf? letter).isSome
      let affected := users.foldl (fun affected letter =>
        affected ||| (usersOf? letter).getD 0) 0
      let (changes, rest) ← readChanges affected (text.length + 1) (text.drop users.length)
      if changes.isEmpty then none
      else match rest with
        | [] => some changes
        | ',' :: rest => (readClauses fuel rest).map (changes ++ ·)
        | _ => none

def read? (text : Octets) : Option (List PermissionChange) :=
  if text.head?.any isOctal then
    if text.all isOctal then
      (octal? text).map fun value => [⟨.set, Permissions.all, .given value⟩]
    else none
  else readClauses (text.length + 1) text

/-- The permissions after a change. What `mask` holds is not given to users that are not named. -/
def apply (mask : Permissions) (permissions : Permissions) (change : PermissionChange) :
    Permissions :=
  let rights := match change.source with
    | .given rights => rights
    | .existing part => Permissions.spread (permissions &&& part)
    | .conditional rights =>
        if permissions &&& Permissions.execution = 0 then rights
        else rights ||| Permissions.execution
  let rights := if change.affected = 0 then Permissions.without rights mask
    else rights &&& change.affected
  match change.kind with
  | .set =>
      if change.affected = 0 then rights
      else Permissions.without permissions change.affected ||| rights
  | .add => permissions ||| rights
  | .remove => Permissions.without permissions rights

end PermissionChange

end PipelineShell.Tool

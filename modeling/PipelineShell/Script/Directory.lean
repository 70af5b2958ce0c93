import PipelineShell.Script.Settings

/-!
The directory that a script takes itself to be in. Unless asked otherwise, a script remembers the
path by which it has come to a directory, so that links on the way back are the same as on the way
there.
-/

namespace PipelineShell.Script

def actualDirectory : Run (Option Octets) := do
  match ← ask .workingDirectory with
  | .ok path => return some path
  | .error errno =>
      warn ("getcwd() failed: ".toList ++ errno.text.toList)
      return none

def setDirectory (path : Option Octets) : Run Unit := do
  let path ← match path with
    | some path => pure (some path)
    | none => actualDirectory
  modify fun state => { state with directory := path }
  assign "PWD".toList (path.getD []) true

def namesOf (path : Octets) : List Octets :=
  (path.splitBy fun left right => left != '/' && right != '/').filter (· != ['/'])

def followNames (found : List Octets) : List Octets → List Octets
  | [] => found
  | name :: rest =>
      if name == ['.', '.'] then followNames found.tail rest
      else if name == ['.'] then followNames found rest
      else followNames (name :: found) rest

def pathAlong (directory : Octets) (path : Octets) : Octets :=
  let isAbsolute := path.head? == some '/'
  let whole := if isAbsolute then path else directory ++ '/' :: path
  let front := if whole.take 2 == ['/', '/'] && whole[2]? != some '/' then "//".toList else ['/']
  let names := followNames [] (namesOf whole)
  front ++ (names.reverse.intersperse ['/']).flatten

/-- Moves to a directory; the value tells whether that has succeeded. -/
def moveTo (physical : Bool) (path : Octets) : Run Bool := do
  let directory := (← get).directory
  let logical := if physical || (directory.isNone && path.head? != some '/') then none
    else some (pathAlong (directory.getD []) path)
  let target := logical.getD path
  match ← ask (.system (.changeDirectory (Octets.toText target))) with
  | .error _ => return false
  | .ok () =>
      assign "OLDPWD".toList ((← get).directory.getD []) true
      setDirectory logical
      modify fun state => { state with
        programs := state.programs.map fun known => { known with stale := true } }
      return true

def directoriesOf (path : Octets) : List Octets :=
  let (last, others) := path.foldr (fun character (current, rest) =>
    if character == ':' then ([], current :: rest) else (character :: current, rest))
    (([], []) : Octets × List Octets)
  last :: others

def nameIn (directory name : Octets) : Octets :=
  if directory.isEmpty then name else directory ++ '/' :: name

def beginsWithDots (path : Octets) : Bool :=
  let first := path.takeWhile (· != '/')
  first == ['.'] || first == ['.', '.']

def alongPath (name : Octets) : List Octets → Run (Octets × Bool)
  | [] => return (name, false)
  | directory :: rest => do
      let path := nameIn directory name
      match ← ask (.lookAt path true) with
      | .ok status =>
          if status.kind = .directory then return (path, !directory.isEmpty)
          else alongPath name rest
      | .error _ => alongPath name rest

def asksForActual (options : List (Char × Octets)) : Bool :=
  (options.getLast?.map Prod.fst) == some 'P'

def cdStatus (words : List Octets) : Run Int := do
  let (options, operands) ← takeOptions "LP" "" words
  let physical := asksForActual options
  let state ← get
  let (target, shown) := match operands with
    | [] => ((state.value? "HOME".toList).getD [], false)
    | ['-'] :: _ => ((state.value? "OLDPWD".toList).getD [], true)
    | operand :: _ => (operand, false)
  let (path, found) ←
    if target.head? == some '/' || beginsWithDots target then pure (target, false)
    else
      let named := if target.isEmpty then ['.'] else target
      match state.value? "CDPATH".toList with
      | some path => do
          let (path, found) ← alongPath named (directoriesOf path)
          pure (path, found)
      | none => pure (named, false)
  if ← moveTo physical path then
    if shown || found then
      print ((← get).directory.getD [] ++ ['\n'])
    return 0
  else fail ("can't cd to ".toList ++ target)

def pwdStatus (words : List Octets) : Run Int := do
  let (options, _) ← takeOptions "LP" "" words
  let path ← if asksForActual options then actualDirectory else read Interpreter.directory
  print (path.getD [] ++ ['\n'])
  return 0

/-! ### Modes of new files -/

def userClasses : List (Char × Nat) :=
  [('u', 6), ('g', 3), ('o', 0)]

def permissionLetters (bits : Nat) : Octets :=
  [('r', 4), ('w', 2), ('x', 1)].filterMap fun (letter, bit) =>
    if bits / bit % 2 = 1 then some letter else none

def shownPermissions (mask : Nat) : Octets :=
  let shown := userClasses.map fun (letter, place) =>
    letter :: '=' :: permissionLetters ((0o777 - mask) / Nat.pow 2 place % 8)
  (shown.intersperse [',']).flatten

/-- What is known while permissions are read. -/
structure PermissionChange where
  permissions : Nat
  classes : Nat

def classBits? : Char → Option Nat
  | 'a' => some 0o111
  | 'u' => some 0o100
  | 'g' => some 0o010
  | 'o' => some 0o001
  | _ => none

/-- The bits of a permission; some are those of a class of users before the change. -/
def permissionBits? (before : Nat) : Char → Option Nat
  | 'r' => some 4
  | 'w' => some 2
  | 'x' => some 1
  | 'u' => some (before / 64 % 8)
  | 'g' => some (before / 8 % 8)
  | 'o' => some (before % 8)
  | 'X' => some (if Nat.land before 0o111 = 0 then 0 else 1)
  | 's' => some 0
  | _ => none

/-- The permissions after changes in letters, or nothing if something else is among them. `fuel`
bounds the number of characters. -/
def changedPermissions? (before : Nat) : Nat → PermissionChange → Octets → Option Nat
  | 0, change, _ => some change.permissions
  | _ + 1, change, [] => some change.permissions
  | fuel + 1, change, text =>
      let users := text.takeWhile fun letter => (classBits? letter).isSome
      let classes := (users.filterMap classBits?).foldl Nat.lor change.classes
      let classes := if classes = 0 then 0o111 else classes
      match text.drop users.length with
      | [] => some change.permissions
      | sign :: rest =>
          if !"=+-".toList.contains sign then none
          else
            let letters := rest.takeWhile fun letter => (permissionBits? before letter).isSome
            let bits := (letters.filterMap (permissionBits? before)).foldl Nat.lor 0
            let value := bits * classes
            let kept := Nat.land change.permissions
            let permissions := match sign with
              | '-' => kept (0o777 - Nat.land value 0o777)
              | '=' => Nat.lor value (kept (0o777 - classes * 7))
              | _ => Nat.lor change.permissions value
            match rest.drop letters.length with
            | [] => some permissions
            | ',' :: rest => changedPermissions? before fuel ⟨permissions, 0⟩ rest
            | next :: rest =>
                if "=+-".toList.contains next then
                  changedPermissions? before fuel ⟨permissions, classes⟩ (next :: rest)
                else none

def umaskStatus (words : List Octets) : Run Int := do
  let (options, operands) ← takeOptions "S" "" words
  let mask ← ask .mask
  match operands with
  | [] =>
      let digits := Nat.toDigits 8 mask
      print ((if !options.isEmpty then shownPermissions mask
        else List.replicate (4 - digits.length) '0' ++ digits) ++ ['\n'])
      return 0
  | operand :: _ =>
      if (operand.head?.map Char.isDigit) == some true then
        if operand.all fun digit => '0' ≤ digit && digit ≤ '7' then
          ask (.setMask (Numeral.valueOf 8 operand % 0o1000))
          return 0
        else refuseNumber operand
      else
        let before := 0o777 - mask
        match changedPermissions? before (operand.length + 1) ⟨before, 0⟩ operand with
        | some permissions =>
            ask (.setMask (0o777 - permissions % 0o1000))
            return 0
        | none => fail ("Illegal mode: ".toList ++ operand)

end PipelineShell.Script

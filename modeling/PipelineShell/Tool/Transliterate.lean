import PipelineShell.Tool.ByteSet
import PipelineShell.Tool.Input

/-!
The tool that replaces, deletes or squeezes bytes. The bytes of one set are replaced by those of
another that stand in the same places; classes that differ by case replace each other as wholes.
-/

namespace PipelineShell.Tool

/-- What `tr` is asked to do. -/
structure Transliteration where
  complement : Bool
  delete : Bool
  squeeze : Bool
  truncate : Bool
deriving DecidableEq, Repr

namespace Transliteration

def choose (task : Transliteration) : String → Transliteration
  | "complement" => { task with complement := true }
  | "delete" => { task with delete := true }
  | "squeeze-repeats" => { task with squeeze := true }
  | "truncate-set1" => { task with truncate := true }
  | _ => task

def standard : Transliteration :=
  ⟨false, false, false, false⟩

end Transliteration

def transliterationOptions : List OptionKind :=
  [flag 'c' "complement", ⟨"complement", 'C', none, .none⟩, flag 'd' "delete",
    flag 's' "squeeze-repeats", flag 't' "truncate-set1", letterFlag 'A']

/-! ### Sets that fit each other -/

/-- A byte of a set, with the class by case that it stands for and whether it is the first of its
part. -/
structure Member where
  character : Char
  case : Option ByteClass
  isFirst : Bool

def SetPart.marked (part : SetPart) : List Member :=
  let case := match part with
    | .named found => if found.isCase then some found else none
    | _ => none
  match part.members with
  | [] => []
  | first :: rest => ⟨first, case, true⟩ :: rest.map fun character => ⟨character, case, false⟩

def markedMembers (parts : List SetPart) : List Member :=
  parts.flatMap SetPart.marked

def skipPart (members : List Member) : List Member :=
  members.dropWhile fun found => !found.isFirst

theorem length_skipPart_le (members : List Member) :
    (skipPart members).length ≤ members.length :=
  (List.dropWhile_suffix _).length_le

/-- How many pairs of classes by case stand in the same places; nothing if one of the second set
stands alone. -/
def alignedCases (found : Nat) : List Member → List Member → Option Nat
  | sources, target :: targets =>
      let begins := target.isFirst && target.case.isSome
      match sources with
      | [] => if begins then none else some found
      | source :: sources =>
          if begins && !(source.isFirst && source.case.isSome) then none
          else if target.case.isSome then
            alignedCases (found + 1) (skipPart sources) (skipPart targets)
          else alignedCases found sources targets
  | _, [] => some found
termination_by _ targets => targets.length
decreasing_by
  · exact Nat.lt_succ_of_le (length_skipPart_le _)
  · exact Nat.lt_succ_self _

def caseExcess : Nat := 25

abbrev Fitted := Except Octets (List SetPart × List SetPart)

def holdsClass (parts : List SetPart) : Bool :=
  parts.any fun part =>
    match part with
    | .named _ => true
    | _ => false

def endlessRepeats (parts : List SetPart) : Nat :=
  (parts.filter fun part =>
    match part with
    | .repeats _ none => true
    | _ => false).length

def fillRepeat (missing : Nat) (parts : List SetPart) : List SetPart :=
  parts.map fun part =>
    match part with
    | .repeats character none => .repeats character (some missing)
    | part => part

def lastCharacter? (parts : List SetPart) : Option Char :=
  match parts.getLast? with
  | some (.named _) => none
  | some (.single character) => some character
  | some (.range _ last) => some last
  | some (.equals character) => some character
  | some (.repeats character _) => some character
  | none => none

def outsideSize (parts : List SetPart) : Nat :=
  let members := membersOf parts
  (ByteClass.allBytes.filter fun character => !members.contains character).length

def lengthen (task : Transliteration) (sourceSize targetSize : Nat) (targets : List SetPart) :
    Except Octets (List SetPart) :=
  if sourceSize ≤ targetSize || task.truncate then .ok targets
  else if targetSize = 0 then
    .error "when not truncating set1, string2 must be non-empty".toList
  else match lastCharacter? targets with
    | none =>
        .error ("when translating with string1 longer than string2,\nthe latter string must not "
          ++ "end with a character class").toList
    | some character => .ok (targets ++ [.repeats character (some (sourceSize - targetSize))])

def fitReplacement (task : Transliteration) (sourceSize : Nat) (sources targets : List SetPart) :
    Fitted := do
  let isEqual := fun (part : SetPart) => match part with
    | .equals _ => true
    | _ => false
  let isOther := fun (part : SetPart) => match part with
    | .named found => !found.isCase
    | _ => false
  if targets.any isEqual then
    .error "[=c=] expressions may not appear in string2 when translating".toList
  else if targets.any isOther then
    .error ("when translating, the only character classes that may appear in\n"
      ++ "string2 are 'upper' and 'lower'").toList
  else
    let aligned := if task.complement || !holdsClass targets then some 0
      else alignedCases 0 (markedMembers sources) (markedMembers targets)
    match aligned with
    | none => .error "misaligned [:upper:] and/or [:lower:] construct".toList
    | some pairs =>
        let sourceSize := sourceSize - pairs * caseExcess
        let targetSize := sizeOf targets - pairs * caseExcess
        let longer ← lengthen task sourceSize targetSize targets
        let targetSize := if sourceSize ≤ targetSize || task.truncate then targetSize
          else sourceSize
        let members := membersOf longer
        let alike := members.all fun character => some character == members.head?
        if task.complement && holdsClass sources && !(targetSize = sourceSize && alike) then
          .error ("when translating with complemented character classes,\n"
            ++ "string2 must map all characters in the domain to one").toList
        else return (sources, longer)

def checkSize (parts : List SetPart) : Except Octets Unit :=
  if repeatLimit < sizeOf parts then .error "too many characters in set".toList else .ok ()

def fitSets (task : Transliteration) (sources : List SetPart) (targets : Option (List SetPart)) :
    Fitted := do
  checkSize sources
  if endlessRepeats sources != 0 then
    .error "the [c*] repeat construct may not appear in string1".toList
  else
    let sourceSize := if task.complement then outsideSize sources else sizeOf sources
    match targets with
    | none => return (sources, [])
    | some targets =>
        checkSize targets
        if 1 < endlessRepeats targets then
          .error "only one [c*] repeat construct may appear in string2".toList
        else
          let size := sizeOf targets
          let filled := if size ≤ sourceSize then fillRepeat (sourceSize - size) targets
            else targets
          if task.delete then
            if endlessRepeats targets != 0 then
              .error "the [c*] construct may appear in string2 only when translating".toList
            else return (sources, filled)
          else fitReplacement task sourceSize sources filled

/-! ### Tables -/

def membership (complement : Bool) (parts : List SetPart) : Array Bool :=
  let inside := (membersOf parts).foldl
    (fun table character => table.setIfInBounds character.toNat true) (Array.replicate 256 false)
  if complement then inside.map fun found => !found else inside

def identityTable : Array UInt8 :=
  Array.ofFn fun (byte : Fin 256) => UInt8.ofNat byte.val

def changeCase (upper : Bool) (table : Array UInt8) : Array UInt8 :=
  (List.range 26).foldl (fun table step =>
    let lower := 0x61 + step
    if upper then table.setIfInBounds lower (UInt8.ofNat (lower - 32))
    else table.setIfInBounds (lower - 32) (UInt8.ofNat lower)) table

def pairTable (table : Array UInt8) : List Member → List Member → Array UInt8
  | source :: sources, target :: targets =>
      let table := match source.case, target.case with
        | some .lower, some .upper => changeCase true table
        | some .upper, some .lower => changeCase false table
        | _, _ => table.setIfInBounds source.character.toNat (Octets.toByte target.character)
      if target.case.isSome then pairTable table (skipPart sources) (skipPart targets)
      else pairTable table sources targets
  | _, _ => table
termination_by _ targets => targets.length
decreasing_by
  · exact Nat.lt_succ_of_le (length_skipPart_le _)
  · exact Nat.lt_succ_self _

def replacementTable (complement : Bool) (sources targets : List SetPart) : Array UInt8 :=
  if complement then
    let inside := membership false sources
    let outside := ByteClass.allBytes.filter fun character =>
      !(inside.getD character.toNat false)
    (outside.zip (membersOf targets)).foldl (fun table (source, target) =>
      table.setIfInBounds source.toNat (Octets.toByte target)) identityTable
  else pairTable identityTable (markedMembers sources) (markedMembers targets)

/-- What is done with the bytes of the input: some are left out, the others replaced, and of equal
neighbours some are left out. -/
structure Sieve where
  dropped : Array Bool
  table : Array UInt8
  squeezed : Array Bool

def Transliteration.sieve (task : Transliteration) (sources targets : List SetPart)
    (paired : Bool) : Sieve :=
  let nothing := Array.replicate 256 false
  ⟨if task.delete then membership task.complement sources else nothing,
    if paired && !task.delete then replacementTable task.complement sources targets
    else identityTable,
    if !task.squeeze then nothing
    else if paired then membership false targets else membership task.complement sources⟩

def Sieve.apply (sieve : Sieve) (previous : Option UInt8) (content : ByteArray) :
    Option UInt8 × ByteArray :=
  content.data.foldl (fun (previous, left) byte =>
    if sieve.dropped.getD byte.toNat false then (previous, left)
    else
      let byte := sieve.table.getD byte.toNat byte
      if previous == some byte && sieve.squeezed.getD byte.toNat false then (previous, left)
      else (some byte, left.push byte)) (previous, ByteArray.empty)

/-! ### The tool -/

def takeSet (text : Octets) : Work (List SetPart) := do
  let (warnings, parts) := readSet text
  warnings.forM complain
  match parts with
  | .ok parts => return parts
  | .error fault => giveUp 1 fault

def missetting {α : Type} (text : Octets) (explanation : String) : Work α := do
  complain text
  complainPlainly explanation.toList
  misuse 1 []

def takeSets (task : Transliteration) (arguments : List Octets) :
    List Octets → Work (List SetPart × Option (List SetPart))
  | [] => misuse 1 "missing operand".toList
  | [first] => do
      if task.delete = task.squeeze then
        missetting ("missing operand after ".toList ++ quotedText (arguments.getLastD []))
          (if task.squeeze then "Two strings must be given when both deleting and squeezing repeats."
            else "Two strings must be given when translating.")
      else return (← takeSet first, none)
  | [first, second] => do
      if task.delete && !task.squeeze then
        missetting ("extra operand ".toList ++ quotedText second)
          "Only one string may be given when deleting without squeezing repeats."
      else
        let sources ← takeSet first
        return (sources, some (← takeSet second))
  | _ :: second :: third :: _ =>
      let extra := if task.delete && !task.squeeze then second else third
      misuse 1 ("extra operand ".toList ++ quotedText extra)

def trWork (arguments : List Octets) : Work Int := do
  let (task, operands) ← takeArguments 1
    (fun task key _ => return Transliteration.choose task key)
    Transliteration.standard (readArguments transliterationOptions true arguments)
  let (sources, targets) ← takeSets task arguments operands
  match fitSets task sources targets with
  | .error fault => giveUp 1 fault
  | .ok (sources, fitted) =>
      let sieve := task.sieve sources fitted targets.isSome
      let (_, fault) ← readBlocks Fd.input 8192 none fun previous content => do
        let (previous, left) := sieve.apply previous content
        match ← print left with
        | .ok () => return previous
        | .error errno => giveUp 1 (becauseOf "write error".toList errno)
      match fault with
      | some errno => giveUp 1 (becauseOf "read error".toList errno)
      | none => return 0

end PipelineShell.Tool

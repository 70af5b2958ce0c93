import PipelineShell.Script.Settings

/-!
The builtin about limits. Each limit is counted in units of its own and has a letter that stands
for it.
-/

namespace PipelineShell.Script

/-- How a limit is named and counted. -/
structure LimitKind where
  letter : Char
  resource : Host.Resource
  title : String
  unit : Nat
deriving DecidableEq, Repr

def limitKinds : List LimitKind :=
  [⟨'t', .time, "time(seconds)", 1⟩, ⟨'f', .fileSize, "file(blocks)", 512⟩,
    ⟨'d', .data, "data(kbytes)", 1024⟩, ⟨'s', .stack, "stack(kbytes)", 1024⟩,
    ⟨'c', .core, "coredump(blocks)", 512⟩, ⟨'m', .residentMemory, "memory(kbytes)", 1024⟩,
    ⟨'l', .lockedMemory, "locked memory(kbytes)", 1024⟩, ⟨'p', .processes, "process", 1⟩,
    ⟨'n', .descriptors, "nofiles", 1⟩, ⟨'v', .addresses, "vmemory(kbytes)", 1024⟩,
    ⟨'w', .locks, "locks", 1⟩, ⟨'r', .priority, "rtprio", 1⟩]

def fileSizeKind : LimitKind :=
  ⟨'f', .fileSize, "file(blocks)", 512⟩

/-- Which bounds of a limit are meant. -/
structure BoundChoice where
  soft : Bool
  hard : Bool
deriving DecidableEq, Repr

def unboundedNumber : Nat := Nat.pow 2 64 - 1

/-- The bound that a text names in units, if it names one. Numbers wrap around. -/
def boundOf? (unit : Nat) (text : Octets) : Option (Option Nat) :=
  if text == "unlimited".toList then some none
  else if !text.all Char.isDigit then none
  else
    let value := Numeral.valueOf 10 text * unit % Nat.pow 2 64
    some (if value = unboundedNumber then none else some value)

def showLimit (choice : BoundChoice) (kind : LimitKind) : Run Unit := do
  let limit ← ask (.limit kind.resource)
  match if choice.soft then limit.soft else limit.hard with
  | none => print "unlimited\n".toList
  | some bound => print (Octets.ofNumber ((bound / kind.unit : Nat) : Int) ++ ['\n'])

def changeLimit (choice : BoundChoice) (kind : LimitKind) (bound : Option Nat) : Run Unit := do
  let before ← ask (.limit kind.resource)
  let limit : Host.Limit :=
    ⟨if choice.soft then bound else before.soft, if choice.hard then bound else before.hard⟩
  match ← ask (.setLimit kind.resource limit) with
  | .ok () => return ()
  | .error errno => fail ("error setting limit (" ++ errno.text ++ ")").toList

def limitStatus (words : List Octets) : Run Int := do
  let (options, operands) ← takeOptions "HSatfdscmlpnvwr" "" words
  let letters := options.map Prod.fst
  let last := letters.reverse.find? fun letter => letter == 'H' || letter == 'S'
  let choice : BoundChoice := ⟨last != some 'H', last != some 'S'⟩
  let all := letters.contains 'a'
  let kind := (letters.reverse.findSome? fun letter =>
    limitKinds.find? fun kind => kind.letter == letter).getD fileSizeKind
  match operands with
  | [] =>
      if all then
        limitKinds.forM fun kind => do
          print (kind.title.toList ++ List.replicate (20 - kind.title.length) ' ' ++ [' '])
          showLimit choice kind
      else showLimit choice kind
  | [text] =>
      if all then fail "too many arguments".toList
      match boundOf? kind.unit text with
      | none => fail "bad number".toList
      | some bound => changeLimit choice kind bound
  | _ => fail "too many arguments".toList
  return 0

end PipelineShell.Script

/-!
What is left of a text where its control sequences mean nothing. A sequence begins with an escape
and reaches as far as its kind tells; control characters go too, blanks apart. Once something has
been shown, the characters up to the next that is not shown are read as plain ones, even if a
blank stood in the middle of a sequence.
-/

namespace PipelineShell.Visible

/-- What a character is part of. -/
inductive Mode where
  | ground
  | escape
  | escapeIntermediate
  | control
  | controlParameter
  | controlIntermediate
  | controlIgnored
  | device
  | deviceParameter
  | deviceIntermediate
  | deviceIgnored
  | deviceContent
  | string
  | command
deriving DecidableEq, Repr

def escapeCode : Nat := 0x1b

def isShownControl (code : Nat) : Bool :=
  code == 0x09 || code == 0x0a || code == 0x0c || code == 0x0d

def within (code least greatest : Nat) : Bool :=
  least ≤ code && code ≤ greatest

def holdsTerminator (character : Char) : Bool :=
  (String.utf8EncodeChar character).contains 0x9c

def afterEscape (code : Nat) : Option Mode :=
  if within code 0x20 0x2f then some .escapeIntermediate
  else if code == 0x5b then some .control
  else if code == 0x5d then some .command
  else if code == 0x50 then some .device
  else if code == 0x58 || code == 0x5e || code == 0x5f then some .string
  else if within code 0x30 0x7e then some .ground
  else none

def Mode.after : Mode → Nat → Option Mode
  | .ground, _ => none
  | .escape, code => afterEscape code
  | .escapeIntermediate, code => if within code 0x30 0x7e then some .ground else none
  | .control, code =>
      if within code 0x20 0x2f then some .controlIntermediate
      else if within code 0x30 0x3f then some .controlParameter
      else if within code 0x40 0x7e then some .ground else none
  | .controlParameter, code =>
      if within code 0x20 0x2f then some .controlIntermediate
      else if within code 0x3c 0x3f then some .controlIgnored
      else if within code 0x40 0x7e then some .ground else none
  | .controlIntermediate, code =>
      if within code 0x30 0x3f then some .controlIgnored
      else if within code 0x40 0x7e then some .ground else none
  | .controlIgnored, code => if within code 0x40 0x7e then some .ground else none
  | .device, code =>
      if within code 0x20 0x2f then some .deviceIntermediate
      else if within code 0x30 0x3f then some .deviceParameter
      else if within code 0x40 0x7e then some .deviceContent else none
  | .deviceParameter, code =>
      if within code 0x20 0x2f then some .deviceIntermediate
      else if within code 0x3c 0x3f then some .deviceIgnored
      else if within code 0x40 0x7e then some .deviceContent else none
  | .deviceIntermediate, code =>
      if within code 0x30 0x3f then some .deviceIgnored
      else if within code 0x40 0x7e then some .deviceContent else none
  | .deviceIgnored, _ => none
  | .deviceContent, _ => none
  | .string, _ => none
  | .command, _ => none

def Mode.showsBlanks : Mode → Bool
  | .device | .deviceParameter | .deviceIntermediate | .deviceIgnored | .deviceContent => false
  | .string | .command => false
  | _ => true

def Mode.isTerminated : Mode → Bool
  | .deviceIgnored | .deviceContent | .string => true
  | _ => false

def Mode.react (mode : Mode) (character : Char) : Option Mode × Bool :=
  let code := character.toNat
  if code = escapeCode then (some .escape, false)
  else if code == 0x18 || code == 0x1a then (some .ground, false)
  else if code < 0x20 then
    if mode = .command && code == 0x07 then (some .ground, false)
    else (none, mode.showsBlanks && isShownControl code)
  else if code < 0x7f then (mode.after code, mode = .ground)
  else if code = 0x7f then (none, false)
  else if mode = .ground then (some .ground, true)
  else (if mode.isTerminated && holdsTerminator character then some .ground else none, false)

/-- How far a text has been read. -/
structure Reading where
  mode : Mode
  showing : Bool
deriving DecidableEq, Repr

def Reading.step (reading : Reading) (character : Char) : Reading × Bool :=
  if reading.showing then
    let (change, shown) := Mode.ground.react character
    let mode := change.getD reading.mode
    if shown then (⟨mode, true⟩, true)
    else (⟨(mode.react character).1.getD mode, false⟩, false)
  else
    let (change, shown) := reading.mode.react character
    let mode := change.getD reading.mode
    if shown then (⟨(Mode.ground.react character).1.getD mode, true⟩, true)
    else (⟨mode, false⟩, false)

def characters (reading : Reading) : List Char → List Char
  | [] => []
  | character :: rest =>
      let (next, shown) := reading.step character
      if shown then character :: characters next rest else characters next rest

def text (content : String) : String :=
  String.ofList (characters ⟨.ground, false⟩ content.toList)

end PipelineShell.Visible

import PipelineShell.Text.Byte
import PipelineShell.Text.Utf8
import PipelineShell.CommandLine.Draft

/-!
The tokens of one terminated line. A token is taken from the front of the bytes that are left,
and what remains is a proper end of them; so a line has no more tokens than bytes. Words are
decoded when they reach the draft, after the bytes have been cut.
-/

namespace PipelineShell

/-- A token. Words and paths are the bytes as they stand in the line. -/
inductive Token where
  | word (bytes : List UInt8)
  | connective (connective : Connective)
  /-- A redirection with its path; `append` tells `>>` from `>`. -/
  | redirect (append : Bool) (path : List UInt8)
  | background
deriving DecidableEq, Repr

namespace Token

/-- A carriage return is blank unless the line feed that ends the line comes right after it. -/
def isBlank (byte : UInt8) (next : Option UInt8) : Bool :=
  byte == Byte.space || byte == Byte.tab
    || (byte == Byte.carriageReturn && next != some Byte.lineFeed)

def dropBlanks : List UInt8 → List UInt8
  | [] => []
  | byte :: rest =>
      if isBlank byte rest.head? then dropBlanks rest else byte :: rest

/-- What stands at the front of the bytes that are left of a line. -/
inductive Front where
  | token (token : Token) (rest : List UInt8)
  /-- The end of the line, after its line feed. -/
  | terminator (rest : List UInt8)
  /-- The bytes ended without a line feed. -/
  | exhausted
  /-- A redirection that no path follows. -/
  | missingTarget
deriving DecidableEq, Repr

/-- A redirection sign has been read: its path follows after blanks. -/
def redirectFront (append : Bool) (bytes : List UInt8) : Front :=
  let bytes := dropBlanks bytes
  match bytes.takeWhile Byte.isWordByte with
  | [] => .missingTarget
  | path => .token (.redirect append path) (bytes.dropWhile Byte.isWordByte)

/-- What stands at the front of bytes that do not begin with a blank. A carriage return is met
here only before the line feed that it closes the line with. -/
def frontOfUnblank : List UInt8 → Front
  | [] => .exhausted
  | byte :: rest =>
      if byte == Byte.lineFeed then .terminator rest
      else if byte == Byte.carriageReturn then .terminator (rest.drop 1)
      else if byte == Byte.bar then
        if rest.head? == some Byte.bar then .token (.connective .or) (rest.drop 1)
        else .token (.connective .pipe) rest
      else if byte == Byte.ampersand then
        if rest.head? == some Byte.ampersand then .token (.connective .and) (rest.drop 1)
        else .token .background rest
      else if byte == Byte.greater then
        if rest.head? == some Byte.greater then redirectFront true (rest.drop 1)
        else redirectFront false rest
      else .token (.word (byte :: rest.takeWhile Byte.isWordByte)) (rest.dropWhile Byte.isWordByte)

def front (bytes : List UInt8) : Front :=
  frontOfUnblank (dropBlanks bytes)

theorem length_dropBlanks_le (bytes : List UInt8) : (dropBlanks bytes).length ≤ bytes.length := by
  induction bytes with
  | nil => exact Nat.le_refl 0
  | cons byte rest ih =>
      rw [dropBlanks]
      split
      · exact Nat.le_succ_of_le ih
      · exact Nat.le_refl _

theorem length_dropWhile_le (keep : UInt8 → Bool) (bytes : List UInt8) :
    (bytes.dropWhile keep).length ≤ bytes.length :=
  (List.dropWhile_suffix keep).length_le

theorem length_of_redirectFront {append : Bool} {bytes rest : List UInt8} {token : Token}
    (found : redirectFront append bytes = .token token rest) : rest.length ≤ bytes.length := by
  unfold redirectFront at found
  dsimp only at found
  split at found
  · cases found
  · cases found
    exact Nat.le_trans (length_dropWhile_le _ _) (length_dropBlanks_le _)

theorem length_of_frontOfUnblank {bytes rest : List UInt8} {token : Token}
    (found : frontOfUnblank bytes = .token token rest) : rest.length < bytes.length := by
  cases bytes with
  | nil => cases found
  | cons byte tail =>
      have dropped : (tail.drop 1).length < (byte :: tail).length := by
        rw [List.length_drop, List.length_cons]
        omega
      have kept : tail.length < (byte :: tail).length := Nat.lt_succ_self _
      rw [frontOfUnblank] at found
      split at found
      · cases found
      split at found
      · cases found
      split at found
      · split at found
        · cases found
          exact dropped
        · cases found
          exact kept
      split at found
      · split at found
        · cases found
          exact dropped
        · cases found
          exact kept
      split at found
      · split at found
        · exact Nat.lt_of_le_of_lt (length_of_redirectFront found) dropped
        · exact Nat.lt_of_le_of_lt (length_of_redirectFront found) kept
      · cases found
        exact Nat.lt_of_le_of_lt (length_dropWhile_le _ _) kept

theorem length_of_front {bytes rest : List UInt8} {token : Token}
    (found : front bytes = .token token rest) : rest.length < bytes.length :=
  Nat.lt_of_lt_of_le (length_of_frontOfUnblank found) (length_dropBlanks_le bytes)

/-- The tokens of a line up to its end or its first fault. -/
structure Scan where
  tokens : List Token
  fault : Option LineFault
deriving DecidableEq, Repr

/-- Reads the tokens that are left of a line behind those that have been read, of which the last
is in front. -/
def scanBehind (read : List Token) (bytes : List UInt8) : Scan :=
  match _ : front bytes with
  | .token token rest => scanBehind (token :: read) rest
  | .terminator _ => ⟨read.reverse, none⟩
  | .exhausted => ⟨read.reverse, none⟩
  | .missingTarget => ⟨read.reverse, some .noTarget⟩
termination_by bytes.length
decreasing_by exact length_of_front (by assumption)

def scan (bytes : List UInt8) : Scan :=
  scanBehind [] bytes

def target (append : Bool) (path : List UInt8) : Output :=
  if append then .appended (Utf8.text path) else .emptied (Utf8.text path)

end Token

def Drafting.push : Token → Drafting Unit
  | .word bytes => word (Utf8.text bytes)
  | .connective join => connective join
  | .redirect append path => redirect (Token.target append path)
  | .background => markBackground

/-- Closes the line, or reports the fault that the tokens ended with. -/
def LineDraft.close (draft : LineDraft) :
    Option LineFault → Except LineFault (Option CommandLine)
  | none => draft.finish
  | some fault => .error fault

/-- Reads one terminated line. The fault that stands furthest left is the one reported, because
the draft sees the tokens in order and the lexer stops at its own first fault. -/
def CommandLine.parse (bytes : List UInt8) : Except LineFault (Option CommandLine) :=
  let scan := Token.scan bytes
  match Drafting.on (scan.tokens.forM Drafting.push) .empty with
  | (.ok (), draft) => draft.close scan.fault
  | (.error fault, _) => .error fault

end PipelineShell

import PipelineShell.Proofs.Line.Calls
import PipelineShell.Proofs.Line.Spelling

/-!
The tokens of a line by their places. The scanner hands on the bytes that are left of a line, so a
step beyond its end would go unnoticed, and so would a part that is cut out of it too far. Here a
cursor keeps the line whole and moves a place along it; each step over a sign or over the end of the
line is checked, and so is each part that is cut out, and a call comes to nothing where a check
fails. None ever does: a call finds what the scanner finds in front of the bytes that are left.
-/

namespace PipelineShell

/-- A line and the place in it up to which its tokens have been taken. -/
structure LineCursor where
  line : List UInt8
  place : Nat
deriving DecidableEq, Repr

namespace LineCursor

def atFront (line : List UInt8) : LineCursor :=
  ⟨line, 0⟩

def ahead? (cursor : LineCursor) (distance : Nat) : Option UInt8 :=
  cursor.line[cursor.place + distance]?

def after (cursor : LineCursor) (count : Nat) : LineCursor :=
  { cursor with place := cursor.place + count }

def step? (cursor : LineCursor) (count : Nat) : Option LineCursor :=
  if cursor.place + count ≤ cursor.line.length then some (cursor.after count) else none

def between? (cursor : LineCursor) (first last : Nat) : Option (List UInt8) :=
  if first ≤ last ∧ last ≤ cursor.line.length then some ((cursor.line.take last).drop first)
  else none

private theorem place_lt_of_ahead? {cursor : LineCursor} {byte : UInt8}
    (here : cursor.ahead? 0 = some byte) : cursor.place < cursor.line.length :=
  (List.getElem?_eq_some_iff.mp here).1

def stepWhile (passed : UInt8 → Option UInt8 → Bool) (cursor : LineCursor) : LineCursor :=
  match _ : cursor.ahead? 0 with
  | none => cursor
  | some byte =>
      if passed byte (cursor.ahead? 1) then stepWhile passed (cursor.after 1) else cursor
termination_by cursor.line.length - cursor.place
decreasing_by
  have inside : cursor.place < cursor.line.length := place_lt_of_ahead? (by assumption)
  exact Nat.sub_lt_sub_left inside (Nat.lt_succ_self cursor.place)

/-- Whether a byte is one of a word: neither an operator nor the end of the line, nor a carriage
return, blank or not. -/
def isLetter (byte : UInt8) (next : Option UInt8) : Bool :=
  if byte == Byte.bar || byte == Byte.ampersand || byte == Byte.greater
      || byte == Byte.lineFeed then false
  else !Token.isBlank byte next && byte != Byte.carriageReturn

def skipBlanks (cursor : LineCursor) : LineCursor :=
  cursor.stepWhile Token.isBlank

def readWord? (cursor : LineCursor) : Option (List UInt8 × LineCursor) := do
  let behind := cursor.stepWhile isLetter
  let word ← cursor.between? cursor.place behind.place
  return (word, behind)

/-- Moves on over a sign of one byte or two, and tells whether it was doubled. -/
def stepSign? (cursor : LineCursor) (sign : UInt8) : Option (Bool × LineCursor) :=
  if cursor.ahead? 1 = some sign then (cursor.step? 2).map (true, ·)
  else (cursor.step? 1).map (false, ·)

inductive Found where
  | token (token : Token)
  /-- The end of the line, with its line feed. -/
  | terminator
  /-- The end of the bytes, without a line feed. -/
  | exhausted
  | missingTarget
deriving DecidableEq, Repr

def Found.isEnd : Found → Bool
  | .terminator => true
  | .exhausted => true
  | .token _ => false
  | .missingTarget => false

def signNext? (cursor : LineCursor) (sign : UInt8) (double single : Token) :
    Option (Found × LineCursor) := do
  let (doubled, behind) ← cursor.stepSign? sign
  return (.token (if doubled then double else single), behind)

def redirectNext? (cursor : LineCursor) : Option (Found × LineCursor) := do
  let (append, signed) ← cursor.stepSign? Byte.greater
  let (path, behind) ← signed.skipBlanks.readWord?
  return (if path.isEmpty then .missingTarget else .token (.redirect append path), behind)

def wordNext? (cursor : LineCursor) : Option (Found × LineCursor) := do
  let (word, behind) ← cursor.readWord?
  return (.token (.word word), behind)

def unblankNext? (cursor : LineCursor) : Option (Found × LineCursor) :=
  match cursor.ahead? 0 with
  | none => some (.exhausted, cursor)
  | some byte =>
      if byte == Byte.lineFeed then (cursor.step? 1).map (.terminator, ·)
      else if byte == Byte.carriageReturn then (cursor.step? 2).map (.terminator, ·)
      else if byte == Byte.bar then
        cursor.signNext? Byte.bar (.connective .or) (.connective .pipe)
      else if byte == Byte.ampersand then
        cursor.signNext? Byte.ampersand (.connective .and) .background
      else if byte == Byte.greater then cursor.redirectNext?
      else cursor.wordNext?

/-- The call for the next token. The cursor behind it is given whether a token is found or not. -/
def next? (cursor : LineCursor) : Option (Found × LineCursor) :=
  cursor.skipBlanks.unblankNext?

/-- Reads what is left of a line into a draft with at most so many calls for a token. It comes to
nothing if these do not do, or if a check fails. -/
def parse? (cursor : LineCursor) (draft : LineDraft) :
    Nat → Option (Except LineFault (Option CommandLine))
  | 0 => none
  | calls + 1 => do
      let (found, behind) ← cursor.next?
      match found with
      | .token token =>
          match draft.push token with
          | .ok longer => parse? behind longer calls
          | .error fault => return .error fault
      | .terminator => return draft.finish
      | .exhausted => return draft.finish
      | .missingTarget => return .error .noTarget

/-! ### Bytes that are passed -/

def left (cursor : LineCursor) : List UInt8 :=
  cursor.line.drop cursor.place

structure Passes (cursor : LineCursor) (bytes : List UInt8) (behind : LineCursor) : Prop where
  behind_eq : behind = cursor.after bytes.length
  left_eq : cursor.left = bytes ++ behind.left

variable {cursor middle behind : LineCursor} {bytes more rest tail : List UInt8} {byte : UInt8}

private theorem left_after (cursor : LineCursor) (count : Nat) :
    (cursor.after count).left = cursor.left.drop count := by
  simp [left, after]

private theorem ahead?_eq (cursor : LineCursor) (distance : Nat) :
    cursor.ahead? distance = cursor.left[distance]? := by
  simp [ahead?, left]

private theorem ahead?_of_nil (leftEq : cursor.left = []) : cursor.ahead? 0 = none := by
  rw [ahead?_eq, leftEq]
  rfl

private theorem ahead?_of_cons (leftEq : cursor.left = byte :: tail) :
    cursor.ahead? 0 = some byte ∧ cursor.ahead? 1 = tail.head? := by
  rw [ahead?_eq, ahead?_eq, leftEq, List.head?_eq_getElem?]
  exact ⟨rfl, rfl⟩

theorem length_left (cursor : LineCursor) :
    cursor.left.length = cursor.line.length - cursor.place := by
  simp [left]

theorem Passes.of_left (leftEq : cursor.left = bytes ++ rest) :
    Passes cursor bytes (cursor.after bytes.length) ∧
      (cursor.after bytes.length).left = rest := by
  have restEq : (cursor.after bytes.length).left = rest := by
    rw [left_after, leftEq, List.drop_left]
  refine ⟨⟨rfl, ?_⟩, restEq⟩
  rw [leftEq, restEq]

theorem Passes.nothing (cursor : LineCursor) : Passes cursor [] cursor :=
  ⟨rfl, rfl⟩

theorem Passes.trans (first : Passes cursor bytes middle) (second : Passes middle more behind) :
    Passes cursor (bytes ++ more) behind := by
  obtain ⟨middleEq, leftEq⟩ := first
  obtain ⟨behindEq, middleLeftEq⟩ := second
  subst middleEq
  refine ⟨?_, ?_⟩
  · rw [behindEq]
    simp [after, Nat.add_assoc]
  · rw [leftEq, middleLeftEq, List.append_assoc]

theorem Passes.place_eq (passes : Passes cursor bytes behind) :
    behind.place = cursor.place + bytes.length := by
  rw [passes.behind_eq, after]

theorem Passes.line_eq (passes : Passes cursor bytes behind) : behind.line = cursor.line := by
  rw [passes.behind_eq, after]

theorem Passes.length_left (passes : Passes cursor bytes behind) :
    cursor.left.length = bytes.length + behind.left.length := by
  rw [passes.left_eq, List.length_append]

theorem Passes.place_le (passes : Passes cursor bytes behind)
    (inside : cursor.place ≤ cursor.line.length) : behind.place ≤ behind.line.length := by
  have lengths := passes.length_left
  rw [LineCursor.length_left] at lengths
  rw [passes.line_eq, passes.place_eq]
  omega

theorem Passes.step? (passes : Passes cursor bytes behind) (filled : bytes ≠ []) :
    cursor.step? bytes.length = some behind := by
  have lengths := passes.length_left
  have moved := List.length_pos_iff.mpr filled
  rw [LineCursor.length_left] at lengths
  rw [LineCursor.step?, if_pos (by omega), passes.behind_eq]

def passedFrom (passed : UInt8 → Option UInt8 → Bool) : List UInt8 → List UInt8
  | [] => []
  | byte :: rest => if passed byte rest.head? then byte :: passedFrom passed rest else []

private theorem passes_stepWhile (passed : UInt8 → Option UInt8 → Bool) (cursor : LineCursor) :
    Passes cursor (passedFrom passed cursor.left) (cursor.stepWhile passed) := by
  -- by induction on the bytes that are left, of which each step takes the first
  generalize leftEq : cursor.left = bytes
  induction bytes generalizing cursor with
  | nil =>
      unfold stepWhile
      split
      · exact .nothing cursor
      · rename_i here
        rw [ahead?_of_nil leftEq] at here
        cases here
  | cons byte rest ih =>
      obtain ⟨here, next⟩ := ahead?_of_cons leftEq
      have splitEq : cursor.left = [byte] ++ rest := leftEq
      obtain ⟨first, restEq⟩ := Passes.of_left splitEq
      unfold stepWhile
      split
      · rename_i nothing
        rw [nothing] at here
        cases here
      · rename_i found seen
        rw [seen] at here
        cases here
        rw [next, passedFrom]
        by_cases isPassed : passed byte rest.head? = true
        · rw [if_pos isPassed, if_pos isPassed]
          exact first.trans (ih (cursor.after 1) restEq)
        · rw [if_neg isPassed, if_neg isPassed]
          exact .nothing cursor

/-! ### Blanks and words -/

private theorem passedFrom_isBlank (bytes : List UInt8) :
    Token.IsGap (passedFrom Token.isBlank bytes) ∧
      bytes = passedFrom Token.isBlank bytes ++ Token.dropBlanks bytes := by
  induction bytes with
  | nil => exact ⟨Token.isGap_nil, rfl⟩
  | cons byte rest ih =>
      obtain ⟨isGap, restEq⟩ := ih
      by_cases blank : Token.isBlank byte rest.head? = true
      · rw [passedFrom, if_pos blank, Token.dropBlanks, if_pos blank]
        refine ⟨List.forall_mem_cons.mpr ⟨Token.isFiller_of_isBlank blank, isGap⟩, ?_⟩
        rw [List.cons_append, ← restEq]
      · rw [passedFrom, if_neg blank, Token.dropBlanks, if_neg blank]
        exact ⟨Token.isGap_nil, rfl⟩

private theorem exists_gap_skipBlanks (cursor : LineCursor) :
    ∃ gap, Token.IsGap gap ∧ Passes cursor gap cursor.skipBlanks ∧
      cursor.skipBlanks.left = Token.dropBlanks cursor.left := by
  obtain ⟨isGap, leftEq⟩ := passedFrom_isBlank cursor.left
  have passes := passes_stepWhile Token.isBlank cursor
  refine ⟨_, isGap, passes, ?_⟩
  exact List.append_cancel_left (passes.left_eq.symm.trans leftEq)

/-- What follows a byte does not decide whether it is one of a word: the carriage return, for which
alone it matters to a blank, is none either way. -/
theorem isLetter_eq (byte : UInt8) (next : Option UInt8) :
    isLetter byte next = Byte.isWordByte byte := by
  by_cases isReturn : byte = Byte.carriageReturn
  · subst isReturn
    simp [isLetter, Byte.isWordByte, Byte.isFiller]
  · unfold isLetter Token.isBlank Byte.isWordByte Byte.isFiller Byte.isOperator
    grind

private theorem passedFrom_isLetter (bytes : List UInt8) :
    passedFrom isLetter bytes = bytes.takeWhile Byte.isWordByte := by
  induction bytes with
  | nil => rfl
  | cons byte rest ih =>
      rw [passedFrom, isLetter_eq, List.takeWhile_cons, ih]

private theorem between?_of_passes (passes : Passes cursor bytes behind)
    (inside : cursor.place ≤ cursor.line.length) :
    cursor.between? cursor.place behind.place = some bytes := by
  have ordered : cursor.place ≤ behind.place := by
    rw [passes.place_eq]
    omega
  have within : behind.place ≤ cursor.line.length := by
    rw [← passes.line_eq]
    exact passes.place_le inside
  have cut : (cursor.line.take behind.place).drop cursor.place = bytes := by
    rw [List.drop_take, passes.place_eq, Nat.add_sub_cancel_left]
    exact (congrArg _ passes.left_eq).trans List.take_left
  rw [between?, if_pos ⟨ordered, within⟩, cut]

private theorem exists_readWord? (inside : cursor.place ≤ cursor.line.length) :
    ∃ behind, cursor.readWord? = some (cursor.left.takeWhile Byte.isWordByte, behind) ∧
      Passes cursor (cursor.left.takeWhile Byte.isWordByte) behind ∧
      behind.left = cursor.left.dropWhile Byte.isWordByte := by
  have passes := passes_stepWhile isLetter cursor
  rw [passedFrom_isLetter] at passes
  refine ⟨cursor.stepWhile isLetter, ?_, passes, ?_⟩
  · rw [readWord?, between?_of_passes passes inside]
    rfl
  · have wholeEq : cursor.left.takeWhile Byte.isWordByte ++ (cursor.stepWhile isLetter).left
        = cursor.left.takeWhile Byte.isWordByte ++ cursor.left.dropWhile Byte.isWordByte := by
      rw [← passes.left_eq, List.takeWhile_append_dropWhile]
    exact List.append_cancel_left wholeEq

private theorem exists_stepSign? {sign : UInt8} (leftEq : cursor.left = sign :: tail) :
    (tail.head? = some sign ∧ ∃ behind, cursor.stepSign? sign = some (true, behind) ∧
      Passes cursor [sign, sign] behind ∧ behind.left = tail.drop 1) ∨
    (tail.head? ≠ some sign ∧ ∃ behind, cursor.stepSign? sign = some (false, behind) ∧
      Passes cursor [sign] behind ∧ behind.left = tail) := by
  unfold stepSign?
  rw [(ahead?_of_cons leftEq).2]
  by_cases doubled : tail.head? = some sign
  · left
    have doubleEq : cursor.left = [sign, sign] ++ tail.drop 1 :=
      leftEq.trans (congrArg (sign :: ·) (Token.eq_cons_drop_of_head? doubled))
    obtain ⟨passes, restEq⟩ := Passes.of_left doubleEq
    refine ⟨doubled, _, ?_, passes, restEq⟩
    rw [if_pos doubled]
    exact congrArg _ (passes.step? (List.cons_ne_nil _ _))
  · right
    have singleEq : cursor.left = [sign] ++ tail := leftEq
    obtain ⟨passes, restEq⟩ := Passes.of_left singleEq
    refine ⟨doubled, _, ?_, passes, restEq⟩
    rw [if_neg doubled]
    exact congrArg _ (passes.step? (List.cons_ne_nil _ _))

/-! ### One call -/

def Found.toFront : Found → List UInt8 → Token.Front
  | .token taken, rest => .token taken rest
  | .terminator, rest => .terminator rest
  | .exhausted, _ => .exhausted
  | .missingTarget, _ => .missingTarget

/-- The call passes the bytes and finds what stands in front. It moves on unless there are no bytes,
and it passes a line feed only where that ends the line. -/
structure Takes (cursor : LineCursor) (front : Token.Front) (found : Found) (bytes : List UInt8)
    (behind : LineCursor) : Prop where
  passes : Passes cursor bytes behind
  front_eq : front = found.toFront behind.left
  advances : found ≠ .exhausted → bytes ≠ []
  unended : found.isEnd = false → Byte.lineFeed ∉ bytes

def Answers (cursor : LineCursor) (call : Option (Found × LineCursor)) (front : Token.Front) :
    Prop :=
  ∃ found bytes behind, call = some (found, behind) ∧ Takes cursor front found bytes behind

theorem Answers.of_gap {call : Option (Found × LineCursor)} {front : Token.Front}
    {gap : List UInt8} (answers : Answers middle call front) (isGap : Token.IsGap gap)
    (passes : Passes cursor gap middle) : Answers cursor call front := by
  obtain ⟨found, bytes, behind, called, takes⟩ := answers
  refine ⟨found, gap ++ bytes, behind, called, passes.trans takes.passes, takes.front_eq, ?_, ?_⟩
  · intro remains
    exact List.append_ne_nil_of_right_ne_nil gap (takes.advances remains)
  · intro unended
    rw [List.mem_append, not_or]
    exact ⟨Token.lineFeed_not_mem_of_isGap isGap, takes.unended unended⟩

theorem Answers.of_token {call : Option (Found × LineCursor)} {token : Token}
    (called : call = some (.token token, behind)) (passes : Passes cursor bytes behind)
    (filled : bytes ≠ []) (absent : Byte.lineFeed ∉ bytes) :
    Answers cursor call (.token token behind.left) :=
  ⟨_, _, _, called, passes, rfl, fun _ => filled, fun _ => absent⟩

private theorem answers_terminator (leftEq : cursor.left = bytes ++ rest) (filled : bytes ≠ []) :
    Answers cursor ((cursor.step? bytes.length).map (.terminator, ·)) (.terminator rest) := by
  obtain ⟨passes, restEq⟩ := Passes.of_left leftEq
  refine ⟨.terminator, bytes, _, ?_, passes, ?_, fun _ => filled, fun unended => nomatch unended⟩
  · rw [passes.step? filled]
    rfl
  · rw [restEq]
    rfl

private theorem answers_sign {sign : UInt8} (leftEq : cursor.left = sign :: tail)
    (solid : sign ≠ Byte.lineFeed) (double single : Token) :
    Answers cursor (cursor.signNext? sign double single)
      (if tail.head? == some sign then .token double (tail.drop 1) else .token single tail) := by
  simp only [beq_iff_eq]
  rcases exists_stepSign? leftEq with
    ⟨doubled, behind, stepped, passes, restEq⟩ | ⟨alone, behind, stepped, passes, restEq⟩
  · rw [if_pos doubled, ← restEq]
    apply Answers.of_token _ passes (List.cons_ne_nil _ _)
    · simp [solid.symm]
    · rw [signNext?, stepped]
      rfl
  · rw [if_neg alone, ← restEq]
    apply Answers.of_token _ passes (List.cons_ne_nil _ _)
    · simp [solid.symm]
    · rw [signNext?, stepped]
      rfl

private theorem lineFeed_not_mem_takeWhile (bytes : List UInt8) :
    Byte.lineFeed ∉ bytes.takeWhile Byte.isWordByte := by
  intro member
  have isWordByte := Token.all_takeWhile_isWordByte bytes _ member
  cases isWordByte

private theorem answers_path (append : Bool) {sign : List UInt8}
    (passes : Passes cursor sign middle)
    (filled : sign ≠ []) (absent : Byte.lineFeed ∉ sign)
    (inside : middle.place ≤ middle.line.length) :
    Answers cursor
      (middle.skipBlanks.readWord?.bind fun (path, behind) =>
        some (if path.isEmpty then .missingTarget else .token (.redirect append path), behind))
      (Token.redirectFront append middle.left) := by
  obtain ⟨gap, isGap, skipped, skippedEq⟩ := exists_gap_skipBlanks middle
  obtain ⟨behind, read, passesPath, restEq⟩ := exists_readWord? (skipped.place_le inside)
  rw [skippedEq] at read passesPath restEq
  refine ⟨_, _, behind, by rw [read]; rfl, (passes.trans skipped).trans passesPath, ?_, ?_, ?_⟩
  · unfold Token.redirectFront
    dsimp only
    rw [← restEq]
    cases (Token.dropBlanks middle.left).takeWhile Byte.isWordByte <;> rfl
  · intro _
    simp [filled]
  · intro _
    simp [absent, Token.lineFeed_not_mem_of_isGap isGap, lineFeed_not_mem_takeWhile]

private theorem answers_redirect (leftEq : cursor.left = Byte.greater :: tail)
    (inside : cursor.place ≤ cursor.line.length) :
    Answers cursor cursor.redirectNext?
      (if tail.head? == some Byte.greater then Token.redirectFront true (tail.drop 1)
        else Token.redirectFront false tail) := by
  simp only [beq_iff_eq]
  rcases exists_stepSign? leftEq with
    ⟨doubled, behind, stepped, passes, restEq⟩ | ⟨alone, behind, stepped, passes, restEq⟩
  · rw [if_pos doubled, ← restEq, redirectNext?, stepped]
    exact answers_path true passes (List.cons_ne_nil _ _) (by decide) (passes.place_le inside)
  · rw [if_neg alone, ← restEq, redirectNext?, stepped]
    exact answers_path false passes (List.cons_ne_nil _ _) (by decide) (passes.place_le inside)

private theorem answers_word (leftEq : cursor.left = byte :: tail)
    (solid : Byte.isWordByte byte = true) (inside : cursor.place ≤ cursor.line.length) :
    Answers cursor cursor.wordNext?
      (.token (.word (byte :: tail.takeWhile Byte.isWordByte))
        (tail.dropWhile Byte.isWordByte)) := by
  obtain ⟨behind, read, passes, restEq⟩ := exists_readWord? inside
  rw [leftEq, List.takeWhile_cons_of_pos solid] at read passes
  rw [leftEq, List.dropWhile_cons_of_pos solid] at restEq
  rw [← restEq]
  apply Answers.of_token _ passes (List.cons_ne_nil _ _)
  · rw [← List.takeWhile_cons_of_pos solid]
    exact lineFeed_not_mem_takeWhile (byte :: tail)
  · rw [wordNext?, read]
    rfl

/-- A byte that is no blank where it stands is an end of the line, an operator or one of a word: no
byte is left over that a call would neither pass nor take. -/
theorem cases_of_not_isBlank {next : Option UInt8} (solid : Token.isBlank byte next = false) :
    byte = Byte.lineFeed ∨ (byte = Byte.carriageReturn ∧ next = some Byte.lineFeed) ∨
      byte = Byte.bar ∨ byte = Byte.ampersand ∨ byte = Byte.greater ∨
      Byte.isWordByte byte = true := by
  unfold Token.isBlank at solid
  unfold Byte.isWordByte Byte.isFiller Byte.isOperator
  grind

private theorem answers_unblankNext?
    (solid : ∀ byte tail, cursor.left = byte :: tail → Token.isBlank byte tail.head? = false) :
    Answers cursor cursor.unblankNext? (Token.frontOfUnblank cursor.left) := by
  cases leftEq : cursor.left with
  | nil =>
      refine ⟨.exhausted, [], cursor, ?_, .nothing cursor, rfl, ?_, fun unended => nomatch unended⟩
      · rw [unblankNext?, ahead?_of_nil leftEq]
      · exact fun remains => absurd rfl remains
  | cons byte tail =>
      have here := (ahead?_of_cons leftEq).1
      have inside : cursor.place ≤ cursor.line.length := Nat.le_of_lt (place_lt_of_ahead? here)
      rw [unblankNext?, here]
      rcases cases_of_not_isBlank (solid byte tail leftEq) with
        rfl | ⟨rfl, ahead⟩ | rfl | rfl | rfl | isWordByte
      · have splitEq : cursor.left = [Byte.lineFeed] ++ tail := leftEq
        exact answers_terminator splitEq (List.cons_ne_nil _ _)
      · -- the line feed comes right behind, so the step of two bytes stays in the line
        have bothEq : cursor.left = [Byte.carriageReturn, Byte.lineFeed] ++ tail.drop 1 :=
          leftEq.trans (congrArg _ (Token.eq_cons_drop_of_head? ahead))
        exact answers_terminator bothEq (List.cons_ne_nil _ _)
      · exact answers_sign leftEq (by decide) _ _
      · exact answers_sign leftEq (by decide) _ _
      · exact answers_redirect leftEq inside
      · obtain ⟨_, lineFeed, carriageReturn, bar, ampersand, greater⟩ :=
          Token.isWordByte_cases isWordByte
        dsimp only
        rw [Token.frontOfUnblank, lineFeed, carriageReturn, bar, ampersand, greater]
        exact answers_word leftEq isWordByte inside

/-- A call finds what the scanner finds in front of the bytes that are left. -/
theorem answers_next? (cursor : LineCursor) :
    Answers cursor cursor.next? (Token.front cursor.left) := by
  obtain ⟨gap, isGap, passes, restEq⟩ := exists_gap_skipBlanks cursor
  rw [Token.front, ← restEq]
  refine (answers_unblankNext? ?_).of_gap isGap passes
  intro byte tail skippedEq
  exact Token.not_isBlank_of_dropBlanks (restEq.symm.trans skippedEq)

end LineCursor

end PipelineShell

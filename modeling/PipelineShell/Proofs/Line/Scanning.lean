import PipelineShell.CommandLine.Token

/-!
The tokens of a line, one at a time. `scan` is turned into an equation for each thing that can
stand in front of the bytes, and the bytes are told from what stands in front of them. Every token
that is scanned is filled: its word or its path has bytes, and word bytes only.
-/

namespace PipelineShell.Token

/-! ### Scanning step by step -/

theorem scanBehind_append (read before : List Token) (bytes : List UInt8) :
    scanBehind (read ++ before) bytes
      = ⟨before.reverse ++ (scanBehind read bytes).tokens, (scanBehind read bytes).fault⟩ := by
  induction read, bytes using scanBehind.induct with
  | case1 read bytes token rest found ih =>
      rw [scanBehind, scanBehind, found]
      exact ih
  | case2 read bytes rest found =>
      rw [scanBehind, scanBehind, found]
      exact congrArg (Scan.mk · none) List.reverse_append
  | case3 read bytes found =>
      rw [scanBehind, scanBehind, found]
      exact congrArg (Scan.mk · none) List.reverse_append
  | case4 read bytes found =>
      rw [scanBehind, scanBehind, found]
      exact congrArg (Scan.mk · (some .noTarget)) List.reverse_append

theorem scan_of_token {bytes rest : List UInt8} {token : Token}
    (found : front bytes = .token token rest) :
    scan bytes = ⟨token :: (scan rest).tokens, (scan rest).fault⟩ := by
  rw [scan, scanBehind, found]
  exact scanBehind_append [] [token] rest

theorem scan_of_terminator {bytes rest : List UInt8} (found : front bytes = .terminator rest) :
    scan bytes = ⟨[], none⟩ := by
  rw [scan, scanBehind, found]
  rfl

theorem scan_of_exhausted {bytes : List UInt8} (found : front bytes = .exhausted) :
    scan bytes = ⟨[], none⟩ := by
  rw [scan, scanBehind, found]
  rfl

theorem scan_of_missingTarget {bytes : List UInt8} (found : front bytes = .missingTarget) :
    scan bytes = ⟨[], some .noTarget⟩ := by
  rw [scan, scanBehind, found]
  rfl

/-! ### Filled tokens -/

/-- Bytes that can be a word: there are some, and no other than word bytes. -/
def IsWord (bytes : List UInt8) : Prop :=
  bytes ≠ [] ∧ ∀ byte ∈ bytes, Byte.isWordByte byte = true

def IsFilled : Token → Prop
  | .word bytes => IsWord bytes
  | .connective _ => True
  | .redirect _ path => IsWord path
  | .background => True

instance (bytes : List UInt8) : Decidable (IsWord bytes) :=
  decidable_of_iff ((!bytes.isEmpty && bytes.all Byte.isWordByte) = true) (by simp [IsWord])

instance (token : Token) : Decidable token.IsFilled :=
  match token with
  | .word bytes => inferInstanceAs (Decidable (IsWord bytes))
  | .connective _ => inferInstanceAs (Decidable True)
  | .redirect _ path => inferInstanceAs (Decidable (IsWord path))
  | .background => inferInstanceAs (Decidable True)

/-! ### Tokens as they are written -/

/-- A run of blanks as it may stand between tokens. -/
def IsGap (bytes : List UInt8) : Prop :=
  ∀ byte ∈ bytes, Byte.isFiller byte = true

instance (bytes : List UInt8) : Decidable (IsGap bytes) :=
  decidable_of_iff (bytes.all Byte.isFiller = true) List.all_eq_true

theorem isGap_nil : IsGap [] :=
  List.forall_mem_nil _

theorem IsGap.append {gap more : List UInt8} (isGap : IsGap gap) (also : IsGap more) :
    IsGap (gap ++ more) :=
  List.forall_mem_append.mpr ⟨isGap, also⟩

def sign (append : Bool) : List UInt8 :=
  if append then [Byte.greater, Byte.greater] else [Byte.greater]

/-- How a token may be written. Only a redirection leaves a choice: the blanks before its path. -/
inductive IsWritten : Token → List UInt8 → Prop
  | word (bytes : List UInt8) : IsWritten (.word bytes) bytes
  | pipe : IsWritten (.connective .pipe) [Byte.bar]
  | and : IsWritten (.connective .and) [Byte.ampersand, Byte.ampersand]
  | or : IsWritten (.connective .or) [Byte.bar, Byte.bar]
  | redirect (append : Bool) {gap : List UInt8} (path : List UInt8) (isGap : IsGap gap) :
      IsWritten (.redirect append path) (sign append ++ (gap ++ path))
  | background : IsWritten .background [Byte.ampersand]

def continues : Token → UInt8 → Bool
  | .word _, byte => Byte.isWordByte byte
  | .redirect _ _, byte => Byte.isWordByte byte
  | .connective .pipe, byte => byte == Byte.bar
  | .connective .and, _ => false
  | .connective .or, _ => false
  | .background, byte => byte == Byte.ampersand

def EndsBefore (token : Token) (rest : List UInt8) : Prop :=
  ∀ byte ∈ rest.head?, token.continues byte = false

/-! ### What stands in front -/

inductive StandsIn : List UInt8 → Front → Prop
  | token {gap written rest : List UInt8} {token : Token} (isGap : IsGap gap)
      (isWritten : IsWritten token written) (filled : token.IsFilled)
      (ends : token.EndsBefore rest) :
      StandsIn (gap ++ (written ++ rest)) (.token token rest)
  | terminator {gap : List UInt8} (isGap : IsGap gap) (rest : List UInt8) :
      StandsIn (gap ++ Byte.lineFeed :: rest) (.terminator rest)
  | exhausted {gap : List UInt8} (isGap : IsGap gap) : StandsIn gap .exhausted
  | missingTarget (bytes : List UInt8) : StandsIn bytes .missingTarget

theorem StandsIn.behind {bytes gap : List UInt8} {found : Front} (stands : StandsIn bytes found)
    (isGap : IsGap gap) : StandsIn (gap ++ bytes) found := by
  cases stands with
  | token inner isWritten filled ends =>
      rw [← List.append_assoc]
      exact .token (isGap.append inner) isWritten filled ends
  | terminator inner rest =>
      rw [← List.append_assoc]
      exact .terminator (isGap.append inner) rest
  | exhausted inner => exact .exhausted (isGap.append inner)
  | missingTarget => exact .missingTarget _

theorem isBlank_of_not_isFiller {byte : UInt8} (solid : Byte.isFiller byte = false)
    (next : Option UInt8) : isBlank byte next = false := by
  simp only [Byte.isFiller, Bool.or_eq_false_iff] at solid
  simp [isBlank, solid]

theorem isFiller_cases {byte : UInt8} (filler : Byte.isFiller byte = true) :
    byte = Byte.space ∨ byte = Byte.tab ∨ byte = Byte.carriageReturn := by
  simp only [Byte.isFiller, Bool.or_eq_true, beq_iff_eq] at filler
  exact or_assoc.mp filler

theorem isBlank_of_isFiller {byte : UInt8} {next : Option UInt8}
    (filler : Byte.isFiller byte = true) (ahead : next ≠ some Byte.lineFeed) :
    isBlank byte next = true := by
  rcases isFiller_cases filler with rfl | rfl | rfl <;> simp [isBlank, ahead]

theorem isFiller_of_isBlank {byte : UInt8} {next : Option UInt8}
    (blank : isBlank byte next = true) : Byte.isFiller byte = true := by
  cases solid : Byte.isFiller byte with
  | true => rfl
  | false =>
      rw [isBlank_of_not_isFiller solid] at blank
      cases blank

private theorem exists_gap_dropBlanks (bytes : List UInt8) :
    ∃ gap, IsGap gap ∧ bytes = gap ++ dropBlanks bytes := by
  induction bytes with
  | nil => exact ⟨[], isGap_nil, rfl⟩
  | cons byte rest ih =>
      rw [dropBlanks]
      split
      · rename_i blank
        obtain ⟨gap, isGap, restEq⟩ := ih
        refine ⟨byte :: gap, List.forall_mem_cons.mpr ⟨isFiller_of_isBlank blank, isGap⟩, ?_⟩
        rw [List.cons_append, ← restEq]
      · exact ⟨[], isGap_nil, rfl⟩

theorem not_isBlank_of_dropBlanks {bytes rest : List UInt8} {byte : UInt8}
    (dropped : dropBlanks bytes = byte :: rest) : isBlank byte rest.head? = false := by
  induction bytes with
  | nil => cases dropped
  | cons head tail ih =>
      rw [dropBlanks] at dropped
      split at dropped
      · exact ih dropped
      · rename_i solid
        obtain ⟨headEq, tailEq⟩ := List.cons.inj dropped
        rw [← headEq, ← tailEq]
        exact Bool.eq_false_iff.mpr solid

theorem all_takeWhile_isWordByte (bytes : List UInt8) :
    ∀ byte ∈ bytes.takeWhile Byte.isWordByte, Byte.isWordByte byte = true :=
  List.all_eq_true.mp List.all_takeWhile

def Stops (rest : List UInt8) : Prop :=
  ∀ byte ∈ rest.head?, Byte.isWordByte byte = false

theorem stops_dropWhile (bytes : List UInt8) : Stops (bytes.dropWhile Byte.isWordByte) := by
  intro byte here
  have stopped := List.head?_dropWhile_not Byte.isWordByte bytes
  rw [Option.mem_def.mp here] at stopped
  simpa using stopped

private theorem standsIn_redirectFront (append : Bool) (bytes : List UInt8) :
    StandsIn (sign append ++ bytes) (redirectFront append bytes) := by
  unfold redirectFront
  dsimp only
  split
  · exact .missingTarget _
  · rename_i present
    obtain ⟨gap, isGap, bytesEq⟩ := exists_gap_dropBlanks bytes
    have whole : sign append ++ bytes = [] ++ ((sign append ++ (gap
        ++ (dropBlanks bytes).takeWhile Byte.isWordByte))
        ++ (dropBlanks bytes).dropWhile Byte.isWordByte) := by
      simp [← bytesEq]
    rw [whole]
    exact .token isGap_nil (.redirect append _ isGap) ⟨present, all_takeWhile_isWordByte _⟩
      (stops_dropWhile _)

theorem eq_cons_drop_of_head? {byte : UInt8} {rest : List UInt8}
    (ahead : rest.head? = some byte) : rest = byte :: rest.drop 1 := by
  cases rest with
  | nil => cases ahead
  | cons next others =>
      cases ahead
      rfl

theorem endsBefore_of_single {token : Token} {single : UInt8} {rest : List UInt8}
    (only : ∀ byte, token.continues byte = (byte == single))
    (ahead : rest.head? ≠ some single) : token.EndsBefore rest := by
  intro byte here
  rw [only, Bool.eq_false_iff]
  intro same
  rw [Option.mem_def.mp here, beq_iff_eq.mp same] at ahead
  exact ahead rfl

private theorem standsIn_frontOfUnblank {bytes : List UInt8}
    (solid : ∀ byte tail, bytes = byte :: tail → isBlank byte tail.head? = false) :
    StandsIn bytes (frontOfUnblank bytes) := by
  cases bytes with
  | nil => exact .exhausted isGap_nil
  | cons byte tail =>
      have notBlank := solid byte tail rfl
      have doubled : ∀ {sign : UInt8}, tail.head? = some sign →
          sign :: tail = [sign, sign] ++ tail.drop 1 :=
        fun ahead => congrArg (_ :: ·) (eq_cons_drop_of_head? ahead)
      rw [frontOfUnblank]
      simp only [beq_iff_eq]
      split
      · rename_i isLineFeed
        rw [isLineFeed]
        exact .terminator isGap_nil tail
      rename_i notLineFeed
      split
      · rename_i isReturn
        -- it is no blank, so the line feed comes right after it
        rw [isReturn] at notBlank ⊢
        have ahead : tail.head? = some Byte.lineFeed := by
          by_cases closing : tail.head? = some Byte.lineFeed
          · exact closing
          · rw [isBlank_of_isFiller rfl closing] at notBlank
            cases notBlank
        have whole : Byte.carriageReturn :: tail
            = [Byte.carriageReturn] ++ Byte.lineFeed :: tail.drop 1 :=
          congrArg (_ :: ·) (eq_cons_drop_of_head? ahead)
        rw [whole]
        exact .terminator (List.forall_mem_singleton.mpr rfl) _
      rename_i notReturn
      split
      · rename_i isBar
        rw [isBar]
        split
        · rename_i ahead
          rw [doubled ahead]
          exact .token isGap_nil .or trivial (fun _ _ => rfl)
        · rename_i ahead
          exact .token isGap_nil .pipe trivial (endsBefore_of_single (fun _ => rfl) ahead)
      rename_i notBar
      split
      · rename_i isAmpersand
        rw [isAmpersand]
        split
        · rename_i ahead
          rw [doubled ahead]
          exact .token isGap_nil .and trivial (fun _ _ => rfl)
        · rename_i ahead
          exact .token isGap_nil .background trivial (endsBefore_of_single (fun _ => rfl) ahead)
      rename_i notAmpersand
      split
      · rename_i isGreater
        rw [isGreater]
        split
        · rename_i ahead
          rw [doubled ahead]
          exact standsIn_redirectFront true _
        · exact standsIn_redirectFront false tail
      · rename_i notGreater
        have isFirst : Byte.isWordByte byte = true := by
          simp only [isBlank, Bool.or_eq_false_iff] at notBlank
          simp [Byte.isWordByte, Byte.isFiller, Byte.isOperator, notBlank, notLineFeed, notReturn,
            notBar, notAmpersand, notGreater]
        have isWord : IsWord (byte :: tail.takeWhile Byte.isWordByte) :=
          ⟨List.cons_ne_nil _ _,
            List.forall_mem_cons.mpr ⟨isFirst, all_takeWhile_isWordByte tail⟩⟩
        have whole : byte :: tail = [] ++ ((byte :: tail.takeWhile Byte.isWordByte)
            ++ tail.dropWhile Byte.isWordByte) :=
          congrArg (byte :: ·) List.takeWhile_append_dropWhile.symm
        have stands := StandsIn.token isGap_nil (.word _) isWord (stops_dropWhile tail)
        rw [← whole] at stands
        exact stands

/-- Whatever is found in front of the bytes, they are made of it and of what it leaves. -/
theorem standsIn_front (bytes : List UInt8) : StandsIn bytes (front bytes) := by
  obtain ⟨gap, isGap, bytesEq⟩ := exists_gap_dropBlanks bytes
  have solid : ∀ byte tail, dropBlanks bytes = byte :: tail → isBlank byte tail.head? = false :=
    fun _byte _tail dropped => not_isBlank_of_dropBlanks dropped
  have whole := (standsIn_frontOfUnblank solid).behind isGap
  rw [← bytesEq] at whole
  exact whole

theorem filled_of_front {bytes rest : List UInt8} {token : Token}
    (found : front bytes = .token token rest) : token.IsFilled := by
  have stands := standsIn_front bytes
  rw [found] at stands
  cases stands with
  | token isGap isWritten filled ends => exact filled

/-! ### Scanned tokens -/

/-- What the bytes behind a token hand on to those with the token in front holds of all bytes. -/
@[elab_as_elim]
theorem induction_by_tokens {motive : List UInt8 → Prop}
    (handed : ∀ bytes, (∀ token rest, front bytes = .token token rest → motive rest) →
      motive bytes) (bytes : List UInt8) : motive bytes := by
  induction length : bytes.length using Nat.strongRecOn generalizing bytes with
  | ind size ih =>
      exact handed bytes fun token rest found =>
        ih rest.length (length ▸ length_of_front found) rest rfl

theorem filled_of_mem_scan {bytes : List UInt8} {token : Token}
    (member : token ∈ (scan bytes).tokens) : token.IsFilled := by
  induction bytes using induction_by_tokens with
  | handed bytes ih =>
      cases found : front bytes with
      | token first rest =>
          rw [scan_of_token found] at member
          rcases List.mem_cons.mp member with here | later
          · rw [here]
            exact filled_of_front found
          · exact ih first rest found later
      | terminator rest =>
          rw [scan_of_terminator found] at member
          cases member
      | exhausted =>
          rw [scan_of_exhausted found] at member
          cases member
      | missingTarget =>
          rw [scan_of_missingTarget found] at member
          cases member

end PipelineShell.Token

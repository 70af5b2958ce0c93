import PipelineShell.Text.Decimal

/-!
Numbers in decimal notation, said without a reader. Of the texts that name a number, however many
digits they have, a reader with bounds takes just those whose number is within the bounds, and it
takes them for that number: leaving the bounds on the way cannot be made good by further digits.
-/

namespace PipelineShell.Decimal

def AreDigits (characters : List Char) : Prop :=
  characters ≠ [] ∧ ∀ character ∈ characters, character.isDigit = true

/-- The characters name the number: digits, with a sign in front of them or without one. -/
inductive Names : List Char → Int → Prop where
  | plain {digits : List Char} (areDigits : AreDigits digits) :
      Names digits (Nat.ofDigitChars 10 digits 0)
  | plus {digits : List Char} (areDigits : AreDigits digits) :
      Names ('+' :: digits) (Nat.ofDigitChars 10 digits 0)
  | minus {digits : List Char} (areDigits : AreDigits digits) :
      Names ('-' :: digits) (-Nat.ofDigitChars 10 digits 0)

variable {bounds : Bounds} {negative : Bool} {characters digits : List Char} {value : Int}

/-! ### Digits -/

private theorem digit?_of_isDigit {character : Char} (isDigit : character.isDigit = true) :
    digit? character = some (character.toNat - '0'.toNat) :=
  if_pos isDigit

private theorem digit?_eq_none {character : Char} (other : ¬ character.isDigit = true) :
    digit? character = none :=
  if_neg other

private theorem le_ofDigitChars (digits : List Char) (sofar : Nat) :
    sofar ≤ Nat.ofDigitChars 10 digits sofar := by
  induction digits generalizing sofar with
  | nil => exact Nat.le_of_eq Nat.ofDigitChars_nil.symm
  | cons digit rest ih =>
      rw [Nat.ofDigitChars_cons]
      have further := ih (10 * sofar + (digit.toNat - '0'.toNat))
      omega

def signed (negative : Bool) (magnitude : Nat) : Int :=
  if negative then -magnitude else magnitude

theorem contains_iff :
    bounds.contains value = true ↔ bounds.least ≤ value ∧ value ≤ bounds.greatest := by
  simp [Bounds.contains]

private theorem contains_of_le (zero : bounds.contains 0 = true) {nearer further : Nat}
    (le : nearer ≤ further) (inside : bounds.contains (signed negative further) = true) :
    bounds.contains (signed negative nearer) = true := by
  rw [contains_iff] at zero inside ⊢
  unfold signed at inside ⊢
  cases negative <;> simp only [Bool.false_eq_true, if_false, if_true] at inside ⊢ <;> omega

private theorem readDigits_eq_ok_iff (zero : bounds.contains 0 = true) {sofar : Nat}
    (inside : bounds.contains (signed negative sofar) = true) :
    readDigits bounds negative (signed negative sofar) digits = .ok value ↔
      (∀ digit ∈ digits, digit.isDigit = true) ∧
        value = signed negative (Nat.ofDigitChars 10 digits sofar) ∧
        bounds.contains value = true := by
  induction digits generalizing sofar with
  | nil =>
      rw [readDigits, Nat.ofDigitChars_nil]
      constructor
      · intro same
        cases same
        exact ⟨List.forall_mem_nil _, rfl, inside⟩
      · rintro ⟨_, same, _⟩
        rw [same]
  | cons digit rest ih =>
      rw [readDigits]
      by_cases isDigit : digit.isDigit = true
      · have nextEq : (if negative then signed negative sofar * 10 - (digit.toNat - '0'.toNat : Nat)
            else signed negative sofar * 10 + (digit.toNat - '0'.toNat : Nat))
              = signed negative (10 * sofar + (digit.toNat - '0'.toNat)) := by
          cases negative <;> simp only [signed, Bool.false_eq_true, if_false, if_true] <;> omega
        rw [digit?_of_isDigit isDigit]
        dsimp only
        rw [nextEq, Nat.ofDigitChars_cons, List.forall_mem_cons, and_iff_right isDigit]
        generalize 10 * sofar + (digit.toNat - '0'.toNat) = next
        by_cases insideNext : bounds.contains (signed negative next) = true
        · obtain ⟨above, below⟩ := contains_iff.mp insideNext
          rw [if_neg (Int.not_lt.mpr below), if_neg (Int.not_lt.mpr above)]
          exact ih insideNext
        · -- what has left the bounds moves away from them with every further digit
          constructor
          · intro same
            rw [contains_iff] at insideNext
            split at same
            · cases same
            · split at same
              · cases same
              · omega
          · rintro ⟨_, same, impossible⟩
            rw [same] at impossible
            exact (insideNext (contains_of_le zero (le_ofDigitChars rest next) impossible)).elim
      · rw [digit?_eq_none isDigit]
        constructor
        · intro same
          cases same
        · rintro ⟨areDigits, _⟩
          exact (isDigit (areDigits digit List.mem_cons_self)).elim

private theorem readDigits_zero_eq_ok_iff (zero : bounds.contains 0 = true) (filled : digits ≠ []) :
    readDigits bounds negative 0 digits = .ok value ↔
      AreDigits digits ∧ value = signed negative (Nat.ofDigitChars 10 digits 0) ∧
        bounds.contains value = true := by
  have start : signed negative 0 = 0 := by cases negative <;> rfl
  have inside : bounds.contains (signed negative 0) = true := by rw [start]; exact zero
  have whole := @readDigits_eq_ok_iff bounds negative digits value zero 0 inside
  rw [start] at whole
  rw [whole, AreDigits, and_iff_right filled]

/-! ### Texts -/

private theorem names_plus_iff :
    Names ('+' :: digits) value ↔ AreDigits digits ∧ value = Nat.ofDigitChars 10 digits 0 := by
  constructor
  · intro names
    cases names with
    | plain areDigits => exact absurd (areDigits.2 '+' List.mem_cons_self) (by decide)
    | plus areDigits => exact ⟨areDigits, rfl⟩
  · rintro ⟨areDigits, same⟩
    rw [same]
    exact .plus areDigits

private theorem names_minus_iff :
    Names ('-' :: digits) value ↔ AreDigits digits ∧ value = -Nat.ofDigitChars 10 digits 0 := by
  constructor
  · intro names
    cases names with
    | plain areDigits => exact absurd (areDigits.2 '-' List.mem_cons_self) (by decide)
    | minus areDigits => exact ⟨areDigits, rfl⟩
  · rintro ⟨areDigits, same⟩
    rw [same]
    exact .minus areDigits

private theorem names_unsigned_iff (notPlus : ∀ rest, characters ≠ '+' :: rest)
    (notMinus : ∀ rest, characters ≠ '-' :: rest) :
    Names characters value
      ↔ AreDigits characters ∧ value = Nat.ofDigitChars 10 characters 0 := by
  constructor
  · intro names
    cases names with
    | plain areDigits => exact ⟨areDigits, rfl⟩
    | plus areDigits => exact absurd rfl (notPlus _)
    | minus areDigits => exact absurd rfl (notMinus _)
  · rintro ⟨areDigits, same⟩
    rw [same]
    exact .plain areDigits

theorem Names.unique {other : Int} (names : Names characters value)
    (alsoNames : Names characters other) : value = other := by
  cases alsoNames with
  | plus areDigits => exact (names_plus_iff.mp names).2
  | minus areDigits => exact (names_minus_iff.mp names).2
  | plain areDigits =>
      cases names with
      | plain _ => rfl
      | plus _ => exact absurd (areDigits.2 '+' List.mem_cons_self) (by decide)
      | minus _ => exact absurd (areDigits.2 '-' List.mem_cons_self) (by decide)

private theorem readCharacters_eq_ok_iff (zero : bounds.contains 0 = true) :
    readCharacters bounds characters = .ok value ↔
      Names characters value ∧ bounds.contains value = true := by
  unfold readCharacters
  split
  · simp [names_unsigned_iff, AreDigits]
  · simp [names_plus_iff, AreDigits]
  · simp [names_minus_iff, AreDigits]
  · rename_i digits filled
    rw [readDigits_zero_eq_ok_iff zero filled, names_plus_iff, and_assoc]
    rfl
  · rename_i digits filled
    rw [readDigits_zero_eq_ok_iff zero filled, names_minus_iff, and_assoc]
    rfl
  · rename_i filled _ _ notPlus notMinus
    rw [readDigits_zero_eq_ok_iff zero filled, names_unsigned_iff notPlus notMinus, and_assoc]
    rfl

/-- A text is taken for a number just if it names that number and the bounds hold it. -/
theorem read_eq_ok_iff (zero : bounds.contains 0 = true) {text : String} :
    read bounds text = .ok value ↔ Names text.toList value ∧ bounds.contains value = true :=
  readCharacters_eq_ok_iff zero

/-! ### Numbers that are written down -/

private theorem areDigits_repr (number : Nat) : AreDigits number.repr.toList := by
  rw [Nat.toList_repr]
  exact ⟨Nat.toDigits_ne_nil, fun character member =>
    Nat.isDigit_of_mem_toDigits (by decide) (by decide) member⟩

/-- A number that is written down is named by what has been written. -/
theorem names_toString (number : Int) : Names (toString number).toList number := by
  rw [Int.toString_eq_repr]
  cases number with
  | ofNat magnitude =>
      have plain := Names.plain (areDigits_repr magnitude)
      rw [Nat.toList_repr, Nat.ofDigitChars_ten_toDigits, ← Nat.toList_repr] at plain
      exact plain
  | negSucc magnitude =>
      have minus := Names.minus (areDigits_repr magnitude.succ)
      rw [Nat.toList_repr, Nat.ofDigitChars_ten_toDigits, ← Nat.toList_repr] at minus
      have written : (Int.negSucc magnitude).repr.toList = '-' :: magnitude.succ.repr.toList := by
        rw [Int.repr, String.toList_append]
        rfl
      rw [written, Int.negSucc_eq]
      exact minus

end PipelineShell.Decimal

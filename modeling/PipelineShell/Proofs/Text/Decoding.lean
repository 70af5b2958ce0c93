import PipelineShell.Text.Utf8

/-!
What decoding does to encoded text and to ASCII. Decoding undoes encoding; and a decoded ASCII
character stands in the bytes as itself, because a completed sequence of several bytes is never
below the first value that needs so many.
-/

namespace PipelineShell.Utf8

/-! ### The byte automaton in numbers -/

theorem first_eq (byte : UInt8) :
    first byte =
      if byte.toNat < 0x80 then ([Char.ofNat byte.toNat], none)
      else if byte.toNat < 0xc2 then ([replacement], none)
      else if byte.toNat < 0xe0 then ([], some ⟨byte.toNat % 32, 0, 0x80, 0xbf⟩)
      else if byte.toNat < 0xf0 then
        ([], some ⟨byte.toNat % 16, 1, if byte.toNat = 0xe0 then 0xa0 else 0x80,
          if byte.toNat = 0xed then 0x9f else 0xbf⟩)
      else if byte.toNat < 0xf5 then
        ([], some ⟨byte.toNat % 8, 2, if byte.toNat = 0xf0 then 0x90 else 0x80,
          if byte.toNat = 0xf4 then 0x8f else 0xbf⟩)
      else ([replacement], none) := by
  simp only [first, UInt8.lt_iff_toNat_lt, ← UInt8.toNat_inj]
  rfl

theorem accepts_iff (pending : Pending) (byte : UInt8) :
    pending.accepts byte = true
      ↔ pending.low.toNat ≤ byte.toNat ∧ byte.toNat ≤ pending.high.toNat := by
  rw [Pending.accepts, Bool.and_eq_true, decide_eq_true_iff, decide_eq_true_iff,
    UInt8.le_iff_toNat_le, UInt8.le_iff_toNat_le]

theorem decodeFrom_cons (state : Option Pending) (byte : UInt8) (rest : List UInt8) :
    decodeFrom state (byte :: rest)
      = (step state byte).1 ++ decodeFrom (step state byte).2 rest := by
  cases state <;> rfl

private theorem decodeFrom_of_last {pending : Pending} {byte : UInt8}
    (accepted : pending.accepts byte = true) (last : pending.afterNext = 0)
    (rest : List UInt8) :
    decodeFrom (some pending) (byte :: rest)
      = Char.ofNat (pending.value * 64 + byte.toNat % 64) :: decodeFrom none rest := by
  rw [decodeFrom_cons, step, if_pos accepted, last]
  rfl

private theorem decodeFrom_of_inner {pending : Pending} {byte : UInt8} {more : Nat}
    (accepted : pending.accepts byte = true) (inner : pending.afterNext = more + 1)
    (rest : List UInt8) :
    decodeFrom (some pending) (byte :: rest)
      = decodeFrom (some ⟨pending.value * 64 + byte.toNat % 64, more, 0x80, 0xbf⟩) rest := by
  rw [decodeFrom_cons, step, if_pos accepted, inner]
  rfl

private theorem decodeFrom_of_lead {byte : UInt8} {pending : Pending}
    (lead : first byte = ([], some pending)) (rest : List UInt8) :
    decodeFrom none (byte :: rest) = decodeFrom (some pending) rest := by
  rw [decodeFrom_cons, step, lead]
  rfl

/-! ### Decoding undoes encoding -/

theorem toNat_ofNat_of_lt {value : Nat} (small : value < 256) :
    (UInt8.ofNat value).toNat = value := by
  rw [UInt8.toNat_ofNat']
  exact Nat.mod_eq_of_lt small

theorem toNat_tail (value : Nat) : (UInt8.ofNat (value % 0x40 + 0x80)).toNat = value % 64 + 128 :=
  toNat_ofNat_of_lt (by omega)

private theorem accepts_tail {pending : Pending} {value : Nat}
    (low : pending.low.toNat ≤ value % 64 + 128)
    (high : value % 64 + 128 ≤ pending.high.toNat) :
    pending.accepts (UInt8.ofNat (value % 0x40 + 0x80)) = true := by
  rw [accepts_iff, toNat_tail]
  exact ⟨low, high⟩

private theorem decodeFrom_of_last_tail {pending : Pending} {value : Nat}
    (accepted : pending.accepts (UInt8.ofNat (value % 0x40 + 0x80)) = true)
    (last : pending.afterNext = 0) (whole : pending.value = value / 64) (rest : List UInt8) :
    decodeFrom (some pending) (UInt8.ofNat (value % 0x40 + 0x80) :: rest)
      = Char.ofNat value :: decodeFrom none rest := by
  have valueEq : pending.value * 64 + (UInt8.ofNat (value % 0x40 + 0x80)).toNat % 64 = value := by
    rw [toNat_tail, whole]
    omega
  rw [decodeFrom_of_last accepted last, valueEq]

private theorem decodeFrom_of_inner_tail {pending : Pending} {value more : Nat}
    (accepted : pending.accepts (UInt8.ofNat (value % 0x40 + 0x80)) = true)
    (inner : pending.afterNext = more + 1) (whole : pending.value = value / 64)
    (rest : List UInt8) :
    decodeFrom (some pending) (UInt8.ofNat (value % 0x40 + 0x80) :: rest)
      = decodeFrom (some ⟨value, more, 0x80, 0xbf⟩) rest := by
  have valueEq : pending.value * 64 + (UInt8.ofNat (value % 0x40 + 0x80)).toNat % 64 = value := by
    rw [toNat_tail, whole]
    omega
  rw [decodeFrom_of_inner accepted inner, valueEq]

theorem toNat_cases (character : Char) :
    character.toNat < 0xd800 ∨ 0xdfff < character.toNat ∧ character.toNat < 0x110000 :=
  character.valid

private theorem first_of_pair {lead : Nat} (low : 2 ≤ lead) (high : lead < 32) :
    first (UInt8.ofNat (lead + 0xc0)) = ([], some ⟨lead, 0, 0x80, 0xbf⟩) := by
  have small : lead % 32 = lead := Nat.mod_eq_of_lt high
  have payload : (lead + 0xc0) % 32 = lead := by omega
  rw [first_eq, toNat_ofNat_of_lt (by omega), if_neg (by omega), if_neg (by omega),
    if_pos (by omega), payload]

private theorem first_of_triple {lead : Nat} (high : lead < 16) :
    first (UInt8.ofNat (lead + 0xe0))
      = ([], some ⟨lead, 1, if lead = 0 then 0xa0 else 0x80,
          if lead = 13 then 0x9f else 0xbf⟩) := by
  have payload : (lead + 0xe0) % 16 = lead := by omega
  have least : (lead + 0xe0 = 0xe0) = (lead = 0) := by simp
  have surrogate : (lead + 0xe0 = 0xed) = (lead = 13) := by simp
  rw [first_eq, toNat_ofNat_of_lt (by omega), if_neg (by omega), if_neg (by omega),
    if_neg (by omega), if_pos (by omega), payload]
  simp only [least, surrogate]

private theorem first_of_quadruple {lead : Nat} (high : lead < 5) :
    first (UInt8.ofNat (lead + 0xf0))
      = ([], some ⟨lead, 2, if lead = 0 then 0x90 else 0x80,
          if lead = 4 then 0x8f else 0xbf⟩) := by
  have payload : (lead + 0xf0) % 8 = lead := by omega
  have least : (lead + 0xf0 = 0xf0) = (lead = 0) := by simp
  have greatest : (lead + 0xf0 = 0xf4) = (lead = 4) := by simp
  rw [first_eq, toNat_ofNat_of_lt (by omega), if_neg (by omega), if_neg (by omega),
    if_neg (by omega), if_neg (by omega), if_pos (by omega), payload]
  simp only [least, greatest]

private theorem accepts_tail_of_any (value count more : Nat) :
    (Pending.mk count more 0x80 0xbf).accepts (UInt8.ofNat (value % 0x40 + 0x80)) = true := by
  apply accepts_tail
  · exact Nat.le_add_left _ _
  · change value % 64 + 128 ≤ 191
    omega

/-- The decoder takes the bytes of a character as that character. -/
theorem decodeFrom_utf8EncodeChar (character : Char) (rest : List UInt8) :
    decodeFrom none (String.utf8EncodeChar character ++ rest)
      = character :: decodeFrom none rest := by
  have range := toNat_cases character
  have restored : Char.ofNat character.toNat = character := Char.ofNat_toNat character
  have valueEq : character.val.toNat = character.toNat := rfl
  rw [String.utf8EncodeChar, valueEq]
  generalize character.toNat = value at range restored
  split
  · have leadEq : (UInt8.ofNat value).toNat = value := toNat_ofNat_of_lt (by omega)
    rw [List.cons_append, List.nil_append, decodeFrom_cons, step, first_eq, leadEq,
      if_pos (by omega), restored]
    rfl
  split
  · have leadEq : value / 64 % 0x20 = value / 64 := by omega
    rw [leadEq, List.cons_append, List.cons_append, List.nil_append,
      decodeFrom_of_lead (first_of_pair (by omega) (by omega)),
      decodeFrom_of_last_tail (accepts_tail_of_any _ _ _) rfl rfl, restored]
  split
  · have leadEq : value / 4096 % 0x10 = value / 4096 := by omega
    rw [leadEq, List.cons_append, List.cons_append, List.cons_append, List.nil_append,
      decodeFrom_of_lead (first_of_triple (by omega)),
      decodeFrom_of_inner_tail (accepts_tail ?_ ?_) rfl (by dsimp only; omega),
      decodeFrom_of_last_tail (accepts_tail_of_any _ _ _) rfl rfl, restored]
    · dsimp only
      split
      · change 0xa0 ≤ _
        omega
      · exact Nat.le_add_left _ _
    · dsimp only
      split
      · change _ ≤ 0x9f
        omega
      · change _ ≤ 0xbf
        omega
  · have leadEq : value / 262144 % 0x08 = value / 262144 := by omega
    rw [leadEq, List.cons_append, List.cons_append, List.cons_append, List.cons_append,
      List.nil_append, decodeFrom_of_lead (first_of_quadruple (by omega)),
      decodeFrom_of_inner_tail (accepts_tail ?_ ?_) rfl (by dsimp only; omega),
      decodeFrom_of_inner_tail (accepts_tail_of_any _ _ _) rfl (by dsimp only; omega),
      decodeFrom_of_last_tail (accepts_tail_of_any _ _ _) rfl rfl, restored]
    · dsimp only
      split
      · change 0x90 ≤ _
        omega
      · exact Nat.le_add_left _ _
    · dsimp only
      split
      · change _ ≤ 0x8f
        omega
      · change _ ≤ 0xbf
        omega

theorem decode_encode (characters : List Char) : decode (encode characters) = characters := by
  induction characters with
  | nil => rfl
  | cons character rest ih =>
      rw [decode, encode, List.flatMap_cons, decodeFrom_utf8EncodeChar]
      exact congrArg (List.cons character) ih

theorem text_bytes (content : String) : text (bytes content) = content := by
  rw [text, bytes, decode_encode, String.ofList_toList]

/-! ### ASCII characters stand for themselves -/

def tailRange : Nat → Nat
  | 0 => 1
  | more + 1 => 64 * tailRange more

def Pending.least (pending : Pending) : Nat :=
  (pending.value * 64 + (pending.low.toNat - 0x80)) * tailRange pending.afterNext

/-- The values that a pending character can still have are below this one. -/
def Pending.bound (pending : Pending) : Nat :=
  (pending.value * 64 + (pending.high.toNat - 0x80) + 1) * tailRange pending.afterNext

/-- A pending character takes tail bytes only, and becomes a character beyond ASCII whichever of
them come. -/
structure Pending.Sound (pending : Pending) : Prop where
  low_le : 0x80 ≤ pending.low.toNat
  high_le : pending.high.toNat ≤ 0xbf
  few : pending.afterNext ≤ 2
  beyond : 0x80 ≤ pending.least
  scalar : pending.bound ≤ 0xd800 ∨ 0xe000 ≤ pending.least ∧ pending.bound ≤ 0x110000

def SoundState (state : Option Pending) : Prop :=
  ∀ pending, state = some pending → pending.Sound

theorem soundState_none : SoundState none :=
  fun _pending impossible => nomatch impossible

private theorem soundState_some {pending : Pending} (sound : pending.Sound) :
    SoundState (some pending) :=
  fun _other same => Option.some.inj same ▸ sound

private theorem soundState_first (byte : UInt8) : SoundState (first byte).2 := by
  rw [first_eq]
  split
  · exact soundState_none
  split
  · exact soundState_none
  split
  · apply soundState_some
    constructor <;> simp [Pending.least, Pending.bound, tailRange] <;> omega
  split
  · apply soundState_some
    constructor <;> simp [Pending.least, Pending.bound, tailRange] <;> (repeat' split) <;>
      simp <;> omega
  split
  · apply soundState_some
    constructor <;> simp [Pending.least, Pending.bound, tailRange] <;> (repeat' split) <;>
      simp <;> omega
  · exact soundState_none

theorem Pending.Sound.payload {pending : Pending} (sound : pending.Sound) {byte : UInt8}
    (accepted : pending.accepts byte = true) :
    pending.low.toNat - 0x80 ≤ byte.toNat % 64 ∧
      byte.toNat % 64 ≤ pending.high.toNat - 0x80 := by
  have bounds := (accepts_iff _ _).mp accepted
  have low_le := sound.low_le
  have high_le := sound.high_le
  omega

theorem Pending.Sound.inner {pending : Pending} (sound : pending.Sound) {byte : UInt8}
    (accepted : pending.accepts byte = true) {more : Nat} (count : pending.afterNext = more + 1) :
    (Pending.mk (pending.value * 64 + byte.toNat % 64) more 0x80 0xbf).Sound := by
  have payload := sound.payload accepted
  generalize nextEq : Pending.mk (pending.value * 64 + byte.toNat % 64) more 0x80 0xbf = next
  have lowest : (0x80 : UInt8).toNat - 0x80 = 0 := rfl
  have highest : (0xbf : UInt8).toNat - 0x80 = 63 := rfl
  have leastEq : next.least = (pending.value * 64 + byte.toNat % 64) * tailRange (more + 1) := by
    rw [← nextEq, Pending.least, lowest, tailRange, ← Nat.mul_assoc, Nat.add_zero]
  have boundEq : next.bound
      = (pending.value * 64 + byte.toNat % 64 + 1) * tailRange (more + 1) := by
    rw [← nextEq, Pending.bound, highest, tailRange, ← Nat.mul_assoc, Nat.add_mul _ 1 64]
  have least_le : pending.least ≤ next.least := by
    rw [leastEq, Pending.least, count]
    exact Nat.mul_le_mul_right _ (Nat.add_le_add_left payload.1 _)
  have bound_le : next.bound ≤ pending.bound := by
    rw [boundEq, Pending.bound, count]
    exact Nat.mul_le_mul_right _ (Nat.succ_le_succ (Nat.add_le_add_left payload.2 _))
  have few := sound.few
  have beyond := sound.beyond
  have scalar := sound.scalar
  refine ⟨?_, ?_, ?_, Nat.le_trans beyond least_le, ?_⟩
  · rw [← nextEq]
    exact Nat.le_refl _
  · rw [← nextEq]
    exact Nat.le_refl _
  · rw [← nextEq]
    dsimp only
    omega
  · omega

theorem toNat_ofNat_of_scalar {value : Nat}
    (scalar : value < 0xd800 ∨ 0xdfff < value ∧ value < 0x110000) :
    (Char.ofNat value).toNat = value := by
  have made : Char.ofNat value = Char.ofNatAux value scalar := by
    unfold Char.ofNat
    exact dif_pos scalar
  exact congrArg Char.toNat made

theorem Pending.Sound.last {pending : Pending} (sound : pending.Sound) {byte : UInt8}
    (accepted : pending.accepts byte = true) (count : pending.afterNext = 0) :
    0x80 ≤ (Char.ofNat (pending.value * 64 + byte.toNat % 64)).toNat := by
  have payload := sound.payload accepted
  have beyond := sound.beyond
  have scalar := sound.scalar
  rw [Pending.least, count, tailRange, Nat.mul_one] at beyond
  rw [Pending.least, Pending.bound, count, tailRange, Nat.mul_one, Nat.mul_one] at scalar
  rw [toNat_ofNat_of_scalar (by omega)]
  omega

private theorem toNat_replacement : replacement.toNat = 0xfffd := rfl

private theorem toNat_of_mem_first {byte : UInt8} {character : Char}
    (member : character ∈ (first byte).1) (ascii : character.toNat < 0x80) :
    byte.toNat = character.toNat := by
  rw [first_eq] at member
  split at member
  · rw [List.mem_singleton.mp member, toNat_ofNat_of_scalar (by omega)]
  split at member
  · rw [List.mem_singleton.mp member, toNat_replacement] at ascii
    omega
  split at member
  · cases member
  split at member
  · cases member
  split at member
  · cases member
  · rw [List.mem_singleton.mp member, toNat_replacement] at ascii
    omega

theorem step_ascii {state : Option Pending} (sound : SoundState state) (byte : UInt8) :
    SoundState (step state byte).2 ∧
      ∀ character ∈ (step state byte).1, character.toNat < 0x80 →
        byte.toNat = character.toNat := by
  cases state with
  | none => exact ⟨soundState_first byte, fun _ member ascii => toNat_of_mem_first member ascii⟩
  | some pending =>
      have soundPending := sound pending rfl
      rw [step]
      split
      · rename_i accepted
        cases count : pending.afterNext with
        | zero =>
            refine ⟨soundState_none, ?_⟩
            intro character member ascii
            have beyond := soundPending.last accepted count
            rw [List.mem_singleton.mp member] at ascii
            omega
        | succ more =>
            refine ⟨soundState_some (soundPending.inner accepted count), ?_⟩
            intro character member
            cases member
      · refine ⟨soundState_first byte, ?_⟩
        intro character member ascii
        rcases List.mem_cons.mp member with here | later
        · rw [here, toNat_replacement] at ascii
          omega
        · exact toNat_of_mem_first later ascii

private theorem exists_byte_of_mem_decodeFrom {state : Option Pending} (sound : SoundState state)
    {content : List UInt8} {character : Char} (member : character ∈ decodeFrom state content)
    (ascii : character.toNat < 0x80) : ∃ byte ∈ content, byte.toNat = character.toNat := by
  induction content generalizing state with
  | nil =>
      cases state with
      | none => cases member
      | some pending =>
          rw [List.mem_singleton.mp member, toNat_replacement] at ascii
          omega
  | cons byte rest ih =>
      rw [decodeFrom_cons] at member
      have stepped := step_ascii sound byte
      rcases List.mem_append.mp member with now | later
      · exact ⟨byte, List.mem_cons_self, stepped.2 character now ascii⟩
      · obtain ⟨found, inRest, same⟩ := ih stepped.1 later
        exact ⟨found, List.mem_cons_of_mem _ inRest, same⟩

/-- Decoding makes no ASCII character up: each stands in the bytes. -/
theorem exists_byte_of_mem_decode {content : List UInt8} {character : Char}
    (member : character ∈ decode content) (ascii : character.toNat < 0x80) :
    ∃ byte ∈ content, byte.toNat = character.toNat :=
  exists_byte_of_mem_decodeFrom soundState_none member ascii

/-! ### Something is decoded from something -/

private theorem step_progress (state : Option Pending) (byte : UInt8) :
    (step state byte).1 ≠ [] ∨ ∃ pending, (step state byte).2 = some pending := by
  cases state with
  | none =>
      rw [step, first_eq]
      repeat' split
      all_goals first
        | exact Or.inl (List.cons_ne_nil _ _)
        | exact Or.inr ⟨_, rfl⟩
  | some pending =>
      rw [step]
      split
      · cases pending.afterNext with
        | zero => exact Or.inl (List.cons_ne_nil _ _)
        | succ more => exact Or.inr ⟨_, rfl⟩
      · exact Or.inl (List.cons_ne_nil _ _)

private theorem decodeFrom_some_ne_nil (pending : Pending) (content : List UInt8) :
    decodeFrom (some pending) content ≠ [] := by
  induction content generalizing pending with
  | nil => exact List.cons_ne_nil _ _
  | cons byte rest ih =>
      rw [decodeFrom_cons]
      rcases step_progress (some pending) byte with given | ⟨next, left⟩
      · exact List.append_ne_nil_of_left_ne_nil given _
      · rw [left]
        exact List.append_ne_nil_of_right_ne_nil _ (ih next)

private theorem decode_ne_nil {content : List UInt8} (filled : content ≠ []) :
    decode content ≠ [] := by
  cases content with
  | nil => exact absurd rfl filled
  | cons byte rest =>
      rw [decode, decodeFrom_cons]
      rcases step_progress none byte with given | ⟨next, left⟩
      · exact List.append_ne_nil_of_left_ne_nil given _
      · rw [left]
        exact List.append_ne_nil_of_right_ne_nil _ (decodeFrom_some_ne_nil next rest)

theorem text_ne_empty {content : List UInt8} (filled : content ≠ []) : text content ≠ "" := by
  intro empty
  have noCharacters : decode content = [] := by
    rw [← String.toList_ofList (l := decode content)]
    exact congrArg String.toList empty
  exact decode_ne_nil filled noCharacters

end PipelineShell.Utf8

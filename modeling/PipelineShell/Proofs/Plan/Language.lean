import PipelineShell.Proofs.Shell.AndOr
import PipelineShell.Proofs.Text.Plain

/-!
The lines that have a plan. They are said here without the planner: commands with a connective
between any two, where each command has a name and holds no NUL byte. Every other line has a
leftmost fault. Stages can be written as positions again, and nothing of the line is lost.
-/

namespace PipelineShell

def Command.IsNulFree (command : Command) : Prop :=
  ∀ text ∈ command.program :: command.arguments, (0 : UInt8) ∉ Utf8.bytes text

def Item.completed : Item → Item
  | .command step => .command step.completed
  | .connective join => .connective join

def Gate.connective? : Gate → Option Connective
  | .always => none
  | .afterSuccess => some .and
  | .afterFailure => some .or

def Gate.items (gate : Gate) : List Item :=
  (gate.connective?.map Item.connective).toList

/-- A stage as positions: its commands joined by pipes, behind the connective of its gate. -/
def Stage.items (stage : Stage) : List Item :=
  stage.gate.items ++ (stage.commands.map Item.command).intersperse (.connective .pipe)

namespace Plan

inductive IsPlannable : List Item → Prop where
  | single {command : Command} (named : command.program ≠ "") (nulFree : command.IsNulFree) :
      IsPlannable [.command command]
  | joined {command : Command} {rest : List Item} (named : command.program ≠ "")
      (nulFree : command.IsNulFree) (join : Connective) (later : IsPlannable rest) :
      IsPlannable (.command command :: .connective join :: rest)

def Need.other : Need → Need
  | .command => .connective
  | .connective => .command

def Need.behind (need : Need) : Nat → Need
  | 0 => need
  | distance + 1 => need.other.behind distance

/-- The fault of what stands where something is due. Nothing stands at the end of a line. -/
inductive IsFault : Need → Option Item → PlanFault → Prop where
  | unexpectedCommand (command : Command) : IsFault .connective (some (.command command)) .malformed
  | unexpectedConnective (join : Connective) :
      IsFault .command (some (.connective join)) .malformed
  | missingCommand : IsFault .command none .malformed
  | unnamed {command : Command} (nameless : command.program = "") :
      IsFault .command (some (.command command)) .malformed
  | holdsNul {command : Command} (named : command.program ≠ "") (nul : ¬ command.IsNulFree) :
      IsFault .command (some (.command command)) .holdsNul

/-- The fault that stands furthest left, where the end of the line is a position as well. -/
def IsLeftmostFault (need : Need) (items : List Item) (fault : PlanFault) : Prop :=
  ∃ index ≤ items.length, IsFault (need.behind index) items[index]? fault ∧
    ∀ earlier < index, ∀ cause, ¬ IsFault (need.behind earlier) items[earlier]? cause

/-! ### One command -/

private theorem hasNul_iff (text : String) :
    hasNul text = true ↔ (0 : UInt8) ∈ Utf8.bytes text := by
  unfold hasNul
  rw [List.any_eq_true]
  constructor
  · rintro ⟨character, inText, same⟩
    have isNul : character = Char.ofNat 0 := beq_iff_eq.mp same
    rw [isNul] at inText
    exact List.mem_flatMap.mpr ⟨Char.ofNat 0, inText, by decide⟩
  · intro member
    obtain ⟨character, inText, inCharacter⟩ := List.mem_flatMap.mp member
    rcases Utf8.toNat_of_mem_utf8EncodeChar inCharacter with whole | beyond
    · have isNul : character = Char.ofNat 0 := Char.toNat_inj.mp whole.symm
      exact ⟨character, inText, beq_iff_eq.mpr isNul⟩
    · have ascii : (0 : UInt8).toNat = 0 := rfl
      omega

private theorem isNulFree_iff (command : Command) :
    command.IsNulFree ↔
      (hasNul command.program || command.arguments.any hasNul) = false := by
  unfold Command.IsNulFree
  rw [List.forall_mem_cons, Bool.or_eq_false_iff, List.any_eq_false]
  simp only [← hasNul_iff, Bool.not_eq_true]

private theorem prepare_of_nulFree {command : Command} (nulFree : command.IsNulFree) :
    command.prepare = .ok command.completed := by
  unfold Command.prepare
  rw [(isNulFree_iff command).mp nulFree]
  rfl

private theorem prepare_of_nul {command : Command} (nul : ¬ command.IsNulFree) :
    command.prepare = .error .holdsNul := by
  unfold Command.prepare
  rw [isNulFree_iff, Bool.not_eq_false] at nul
  rw [nul]
  rfl

section Positions

variable {gate : Gate} {before : List Command} {command : Command} {rest items : List Item}
  {need : Need} {item : Item} {fault cause : PlanFault} {stages : List Stage}

private theorem stages_of_unnamed (nameless : command.program = "") :
    Plan.stages gate before .command (.command command :: rest) = .error .malformed := by
  rw [Plan.stages, if_pos nameless]

private theorem stages_of_nul (named : command.program ≠ "") (nul : ¬ command.IsNulFree) :
    Plan.stages gate before .command (.command command :: rest) = .error .holdsNul := by
  rw [Plan.stages, if_neg named, prepare_of_nul nul]
  rfl

private theorem stages_of_sound (named : command.program ≠ "") (nulFree : command.IsNulFree) :
    Plan.stages gate before .command (.command command :: rest)
      = Plan.stages gate (before ++ [command.completed]) .connective rest := by
  rw [Plan.stages, if_neg named, prepare_of_nulFree nulFree]
  rfl

private theorem error_of_gate {stage : Stage} {later : Except PlanFault (List Stage)} :
    (do let others ← later; return stage :: others) = .error fault ↔ later = .error fault := by
  cases later with
  | error cause => exact Iff.rfl
  | ok others => constructor <;> exact fun impossible => by cases impossible

/-! ### Faults -/

theorem IsFault.unique {given : Option Item} (faulty : IsFault need given fault)
    (also : IsFault need given cause) : fault = cause := by
  cases faulty with
  | unexpectedCommand command => cases also; rfl
  | unexpectedConnective join => cases also; rfl
  | missingCommand => cases also; rfl
  | unnamed nameless =>
      cases also with
      | unnamed _ => rfl
      | holdsNul named _ => exact absurd nameless named
  | holdsNul named nul =>
      cases also with
      | unnamed nameless => exact absurd nameless named
      | holdsNul _ _ => rfl

private theorem isLeftmostFault_nil : IsLeftmostFault need [] fault ↔ IsFault need none fault := by
  constructor
  · rintro ⟨index, bound, faulty, _⟩
    have isFirst : index = 0 := Nat.le_zero.mp bound
    rw [isFirst] at faulty
    exact faulty
  · intro faulty
    exact ⟨0, Nat.le_refl 0, faulty, fun earlier impossible => absurd impossible (by omega)⟩

private theorem isLeftmostFault_of_fault (faulty : IsFault need (some item) cause) :
    IsLeftmostFault need (item :: rest) fault ↔ fault = cause := by
  constructor
  · rintro ⟨index, _, further, sound⟩
    cases index with
    | zero => exact further.unique faulty
    | succ index => exact absurd faulty (sound 0 (by omega) cause)
  · intro same
    rw [same]
    exact ⟨0, by omega, faulty, fun earlier impossible => absurd impossible (by omega)⟩

private theorem isLeftmostFault_of_sound (sound : ∀ cause, ¬ IsFault need (some item) cause) :
    IsLeftmostFault need (item :: rest) fault ↔ IsLeftmostFault need.other rest fault := by
  constructor
  · rintro ⟨index, bound, faulty, earlierSound⟩
    cases index with
    | zero => exact absurd faulty (sound fault)
    | succ index =>
        refine ⟨index, by simpa using bound, faulty, fun earlier inside => ?_⟩
        exact earlierSound (earlier + 1) (by omega)
  · rintro ⟨index, bound, faulty, earlierSound⟩
    refine ⟨index + 1, by simpa using bound, faulty, fun earlier inside => ?_⟩
    cases earlier with
    | zero => exact sound
    | succ earlier => exact earlierSound earlier (by omega)

/-- Planning stops at the leftmost fault, whatever has been read before. -/
theorem stages_eq_error_iff :
    Plan.stages gate before need items = .error fault ↔ IsLeftmostFault need items fault := by
  have malformed : ∀ cause : PlanFault,
      (.error .malformed : Except PlanFault (List Stage)) = .error cause ↔ cause = .malformed :=
    fun cause => ⟨fun same => (Except.error.inj same).symm, fun same => by rw [same]⟩
  induction items generalizing gate before need with
  | nil =>
      rw [isLeftmostFault_nil]
      cases need with
      | command =>
          rw [Plan.stages.eq_def, malformed]
          exact ⟨fun same => same ▸ .missingCommand, fun faulty => faulty.unique .missingCommand⟩
      | connective =>
          rw [Plan.stages]
          constructor <;> exact fun impossible => by cases impossible
  | cons item rest ih =>
      cases need with
      | command =>
          cases item with
          | connective join =>
              rw [isLeftmostFault_of_fault (.unexpectedConnective join), ← malformed]
              exact Iff.rfl
          | command given =>
              by_cases nameless : given.program = ""
              · rw [isLeftmostFault_of_fault (.unnamed nameless), stages_of_unnamed nameless]
                exact malformed fault
              by_cases nulFree : given.IsNulFree
              · have sound : ∀ cause, ¬ IsFault .command (some (.command given)) cause := by
                  intro cause faulty
                  cases faulty with
                  | unnamed noName => exact nameless noName
                  | holdsNul _ nul => exact nul nulFree
                rw [stages_of_sound nameless nulFree, isLeftmostFault_of_sound sound]
                exact ih
              · rw [isLeftmostFault_of_fault (.holdsNul nameless nulFree),
                  stages_of_nul nameless nulFree]
                exact ⟨fun same => (Except.error.inj same).symm, fun same => by rw [same]⟩
      | connective =>
          cases item with
          | command given =>
              rw [isLeftmostFault_of_fault (.unexpectedCommand given), ← malformed]
              exact Iff.rfl
          | connective join =>
              have sound : ∀ cause, ¬ IsFault .connective (some (.connective join)) cause := by
                intro cause faulty
                cases faulty
              rw [isLeftmostFault_of_sound sound]
              -- the connectives differ in the stage that is read, and not in what is due next
              cases join with
              | pipe => exact ih
              | and => exact error_of_gate.trans ih
              | or => exact error_of_gate.trans ih

/-! ### Lines that have a plan -/

theorem exists_stages_of_isPlannable (plannable : IsPlannable items) :
    ∃ stages, Plan.stages gate before .command items = .ok stages := by
  induction plannable generalizing gate before with
  | @single command named nulFree => exact ⟨_, stages_of_sound named nulFree⟩
  | @joined command rest named nulFree join later ih =>
      rw [stages_of_sound named nulFree]
      cases join with
      | pipe => exact ih
      | and =>
          obtain ⟨others, planned⟩ := @ih .afterSuccess []
          rw [Plan.stages, planned]
          exact ⟨_, rfl⟩
      | or =>
          obtain ⟨others, planned⟩ := @ih .afterFailure []
          rw [Plan.stages, planned]
          exact ⟨_, rfl⟩

/-- What positions that can be planned look like from a position at which something is due. -/
def IsPlannableFrom : Need → List Item → Prop
  | .command, items => IsPlannable items
  | .connective, items => items = [] ∨
      ∃ join rest, items = .connective join :: rest ∧ IsPlannable rest

theorem isPlannableFrom_of_stages (planned : Plan.stages gate before need items = .ok stages) :
    IsPlannableFrom need items := by
  induction items generalizing gate before need stages with
  | nil =>
      cases need with
      | command => cases planned
      | connective => exact Or.inl rfl
  | cons item rest ih =>
      cases need with
      | command =>
          cases item with
          | connective join => cases planned
          | command given =>
              by_cases nameless : given.program = ""
              · rw [stages_of_unnamed nameless] at planned
                cases planned
              by_cases nulFree : given.IsNulFree
              · rw [stages_of_sound nameless nulFree] at planned
                rcases ih planned with nothing | ⟨join, others, restEq, plannable⟩
                · rw [nothing]
                  exact IsPlannable.single nameless nulFree
                · rw [restEq]
                  exact IsPlannable.joined nameless nulFree join plannable
              · rw [stages_of_nul nameless nulFree] at planned
                cases planned
      | connective =>
          cases item with
          | command given => cases planned
          | connective join =>
              refine Or.inr ⟨join, rest, rfl, ?_⟩
              cases join with
              | pipe => exact ih planned
              | and =>
                  obtain ⟨later, plannedLater, _⟩ := AndOr.exists_later_of_gate planned
                  exact ih plannedLater
              | or =>
                  obtain ⟨later, plannedLater, _⟩ := AndOr.exists_later_of_gate planned
                  exact ih plannedLater

/-! ### Writing the stages as positions -/

def readSoFar (gate : Gate) (before : List Command) : Need → List Item
  | .command => gate.items ++ before.flatMap fun step => [.command step, .connective .pipe]
  | .connective => Stage.items ⟨gate, before⟩

private theorem intersperse_concat (before : List Command) (last : Command) :
    ((before ++ [last]).map Item.command).intersperse (.connective .pipe)
      = (before.flatMap fun step => [.command step, .connective .pipe]) ++ [.command last] := by
  induction before with
  | nil => rfl
  | cons first rest ih =>
      rw [List.flatMap_cons, List.append_assoc, ← ih]
      cases rest with
      | nil => rfl
      | cons second others => rfl

private theorem readSoFar_command :
    readSoFar gate (before ++ [command]) .connective
      = readSoFar gate before .command ++ [.command command] := by
  unfold readSoFar Stage.items
  rw [intersperse_concat, List.append_assoc]

private theorem readSoFar_pipe (filled : before ≠ []) :
    readSoFar gate before .command
      = readSoFar gate before .connective ++ [.connective .pipe] := by
  obtain ⟨front, last, split⟩ := (List.eq_nil_or_concat before).resolve_left filled
  rw [List.concat_eq_append] at split
  rw [split, readSoFar_command]
  simp [readSoFar]

/-- What the stages have kept of the positions they have been read from. -/
structure Continues (gate : Gate) (before : List Command) (need : Need) (items : List Item)
    (stages : List Stage) : Prop where
  filled : ∀ stage ∈ stages, stage.commands ≠ []
  gates : ∃ later, stages.map Stage.gate = gate :: later ∧ .always ∉ later
  written : stages.flatMap Stage.items = readSoFar gate before need ++ items.map Item.completed

theorem Continues.behind {next : Gate} {join : Connective}
    (continues : Continues next [] .command rest stages) (opening : next.connective? = some join)
    (filled : before ≠ []) :
    Continues gate before .connective (.connective join :: rest) (⟨gate, before⟩ :: stages) := by
  obtain ⟨later, gatesEq, unconditional⟩ := continues.gates
  refine ⟨List.forall_mem_cons.mpr ⟨filled, continues.filled⟩, ⟨next :: later, ?_, ?_⟩, ?_⟩
  · rw [List.map_cons, gatesEq]
  · intro member
    rcases List.mem_cons.mp member with same | behind
    · rw [← same] at opening
      cases opening
    · exact unconditional behind
  · have gateItems : next.items = [.connective join] := by
      rw [Gate.items, opening]
      rfl
    rw [List.flatMap_cons, continues.written]
    simp [readSoFar, gateItems, Item.completed]

private theorem continues_of_stages (filled : need = .connective → before ≠ [])
    (planned : Plan.stages gate before need items = .ok stages) :
    Continues gate before need items stages := by
  induction items generalizing gate before need stages with
  | nil =>
      cases need with
      | command => cases planned
      | connective =>
          cases planned
          have isFilled := filled rfl
          refine ⟨by simpa using isFilled, ⟨[], rfl, List.not_mem_nil⟩, ?_⟩
          simp [readSoFar]
  | cons item rest ih =>
      cases need with
      | command =>
          cases item with
          | connective join => cases planned
          | command given =>
              have isFilled : before ++ [given.completed] ≠ [] := by simp
              have continues := ih (fun _ => isFilled) (AndOr.stages_of_command planned)
              refine ⟨continues.filled, continues.gates, ?_⟩
              rw [continues.written, readSoFar_command, List.append_assoc]
              rfl
      | connective =>
          have isFilled := filled rfl
          cases item with
          | command given => cases planned
          | connective join =>
              cases join with
              | pipe =>
                  have continues : Continues gate before .command rest stages :=
                    ih (fun impossible => by cases impossible) planned
                  refine ⟨continues.filled, continues.gates, ?_⟩
                  rw [continues.written, readSoFar_pipe isFilled, List.append_assoc]
                  rfl
              | and =>
                  obtain ⟨later, plannedLater, stagesEq⟩ := AndOr.exists_later_of_gate planned
                  have continues : Continues .afterSuccess [] .command rest later :=
                    ih (fun impossible => by cases impossible) plannedLater
                  rw [stagesEq]
                  exact continues.behind rfl isFilled
              | or =>
                  obtain ⟨later, plannedLater, stagesEq⟩ := AndOr.exists_later_of_gate planned
                  have continues : Continues .afterFailure [] .command rest later :=
                    ih (fun impossible => by cases impossible) plannedLater
                  rw [stagesEq]
                  exact continues.behind rfl isFilled

end Positions

end Plan

/-- The stages of a plan, as positions, are the line itself. -/
theorem CommandLine.continues_of_plan {line : CommandLine} {stages : List Stage}
    (planned : line.plan = .ok stages) :
    Plan.Continues .always [] .command line.items stages :=
  Plan.continues_of_stages (fun impossible => by cases impossible) planned

theorem CommandLine.plan_ne_nil {line : CommandLine} {stages : List Stage}
    (planned : line.plan = .ok stages) : stages ≠ [] := by
  intro nothing
  obtain ⟨_, gatesEq, _⟩ := (continues_of_plan planned).gates
  rw [nothing] at gatesEq
  cases gatesEq

end PipelineShell

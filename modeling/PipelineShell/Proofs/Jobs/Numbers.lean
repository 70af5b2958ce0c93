import Mathlib.Data.List.Perm.Subperm
import PipelineShell.Proofs.Jobs.History

/-!
The numbers of jobs. A new job takes the first free slot, and so the least number that leads to no
job. No call leaves a free slot behind the others; so a table has no slots just if it has no jobs.
-/

namespace PipelineShell

/-- The job is still the same, though more may be known of its processes. -/
structure Job.Persists (job later : Job) : Prop where
  description : later.description = job.description
  pids : later.processes.map JobProcess.pid = job.processes.map JobProcess.pid
  known : ∀ (place : Nat) pid status, job.processes[place]? = some ⟨pid, some status⟩ →
    later.processes[place]? = some ⟨pid, some status⟩

theorem Job.persists_observe (id : Nat) (sightings : List Sighting) (job : Job) :
    job.Persists (job.observe id sightings) := by
  refine ⟨rfl, ?_, ?_⟩
  · apply List.ext_getElem?
    intro place
    simp only [observe, List.getElem?_map, List.getElem?_mapIdx, Option.map_map]
    rfl
  · intro place pid status found
    rw [observe, List.getElem?_mapIdx, found]
    rfl

namespace JobTable

/-! ### The first free slot -/

private theorem exists_of_lt_fill (job : Job) {slots : List (Option Job)} {index : Nat}
    (before : index < (fill job slots).1) : ∃ other, (slots[index]?).join = some other := by
  induction slots generalizing index with
  | nil => exact absurd before (Nat.not_lt_zero index)
  | cons slot rest ih =>
      cases slot with
      | none => exact absurd before (Nat.not_lt_zero index)
      | some other =>
          cases index with
          | zero => exact ⟨other, rfl⟩
          | succ index =>
              have shifted : index < (fill job rest).1 := Nat.lt_of_succ_lt_succ before
              exact ih shifted

private theorem le_of_get?_eq_none (jobs : JobTable) (pids : List Pid) (description : String)
    {id : Nat}
    (positive : 1 ≤ id) (free : jobs.get? id = none) :
    (jobs.insert pids description).1 ≤ id := by
  obtain ⟨index, rfl⟩ := Nat.exists_eq_add_of_le' positive
  by_cases before : index < (fill (.ofPids pids description) jobs.slots).1
  · obtain ⟨other, held⟩ := exists_of_lt_fill _ before
    rw [get?_succ, held] at free
    cases free
  · change (fill (.ofPids pids description) jobs.slots).1 + 1 ≤ index + 1
    omega

/-! ### The last slot -/

def EndsHeld (slots : List (Option Job)) : Prop :=
  slots.getLast? ≠ some none

private theorem endsHeld_cons_some (job : Job) {slots : List (Option Job)} :
    EndsHeld (some job :: slots) ↔ EndsHeld slots := by
  unfold EndsHeld
  rw [List.getLast?_cons]
  cases slots.getLast? with
  | none => simp
  | some last => simp

private theorem endsHeld_fill (job : Job) {slots : List (Option Job)} (held : EndsHeld slots) :
    EndsHeld (fill job slots).2 := by
  induction slots with
  | nil => exact (endsHeld_cons_some job).mpr held
  | cons slot rest ih =>
      cases slot with
      | none =>
          refine (endsHeld_cons_some job).mpr fun free => held ?_
          rw [List.getLast?_cons, free]
          rfl
      | some other =>
          exact (endsHeld_cons_some other).mpr (ih ((endsHeld_cons_some other).mp held))

private theorem endsHeld_trim (slots : List (Option Job)) : EndsHeld (trim slots) := by
  induction slots with
  | nil => simp [EndsHeld, trim]
  | cons slot rest ih =>
      cases slot with
      | some job => exact (endsHeld_cons_some job).mpr ih
      | none =>
          unfold trim
          cases trimmed : trim rest with
          | nil => simp [EndsHeld]
          | cons first others =>
              rw [trimmed] at ih
              unfold EndsHeld at ih ⊢
              rw [List.getLast?_cons_cons]
              exact ih

theorem MakesAll.endsHeld {calls : List JobCall} {jobs : JobTable}
    (made : MakesAll .empty calls jobs) : EndsHeld jobs.slots := by
  induction made with
  | nothing => simp [EndsHeld, JobTable.empty]
  | @further middle later calls call earlier made ih =>
      cases made with
      | push added =>
          have laterEq : _ = later := congrArg Prod.snd (push?_eq_some_iff.mp added).2
          rw [← laterEq]
          exact endsHeld_fill _ ih
      | reap leads members =>
          obtain ⟨front, ⟨finished, left⟩, back, _, _, returned⟩ := Routine.Leads.of_bind leads
          obtain ⟨_, pairEq⟩ := returned.of_pure
          cases pairEq
          exact endsHeld_trim left

private theorem isEmpty_iff_of_endsHeld {jobs : JobTable} (held : EndsHeld jobs.slots) :
    jobs.isEmpty = true ↔ ∀ id, jobs.get? id = none := by
  rw [isEmpty, List.isEmpty_iff]
  constructor
  · intro nothing id
    cases id with
    | zero => rfl
    | succ index =>
        rw [get?_succ, nothing]
        rfl
  · intro free
    by_contra filled
    have present := List.getLast?_eq_some_getLast filled
    have last := free (jobs.slots.length - 1 + 1)
    rw [get?_succ, ← List.getLast?_eq_getElem?, present, Option.join_some] at last
    rw [EndsHeld, present, last] at held
    exact held rfl

/-! ### The numbers in use -/

def numbers (jobs : JobTable) : List Nat :=
  (List.range' 1 jobs.slots.length).filter fun id => (jobs.get? id).isSome

private theorem mem_numbers {jobs : JobTable} {id : Nat} :
    id ∈ jobs.numbers ↔ (jobs.get? id).isSome = true := by
  rw [numbers, List.mem_filter, and_iff_right_iff_imp, List.mem_range'_1]
  intro present
  cases id with
  | zero => cases present
  | succ index =>
      have inside : index < jobs.slots.length := by
        by_contra outside
        rw [get?_succ, List.getElem?_eq_none (Nat.not_lt.mp outside)] at present
        cases present
      omega

private theorem le_length_numbers {jobs : JobTable} {id : Nat}
    (held : ∀ other, 1 ≤ other → other ≤ id → (jobs.get? other).isSome = true) :
    id ≤ jobs.numbers.length := by
  have inside : List.range' 1 id ⊆ jobs.numbers := by
    intro other member
    obtain ⟨low, high⟩ := List.mem_range'_1.mp member
    exact mem_numbers.mpr (held other low (by omega))
  have distinct : (List.range' 1 id).Nodup := List.nodup_range'
  have bound := (distinct.subperm inside).length_le
  rw [List.length_range'] at bound
  exact bound

private theorem insert_le_length_numbers (jobs : JobTable) (pids : List Pid)
    (description : String) :
    (jobs.insert pids description).1 ≤ (jobs.insert pids description).2.numbers.length := by
  apply le_length_numbers
  intro other low high
  rw [get?_insert]
  by_cases same : other = (jobs.insert pids description).1
  · rw [if_pos same]
    rfl
  · rw [if_neg same]
    by_contra free
    rw [Option.not_isSome_iff_eq_none] at free
    have least := le_of_get?_eq_none jobs pids description low free
    omega

/-! ### Reaping -/

namespace Reaped

variable {jobs later : JobTable} {sightings : List Sighting} {finished : List FinishedJob}

private theorem rel_persists (reaped : jobs.Reaped sightings finished later) {id : Nat}
    (unreported : ∀ report ∈ finished, report.id ≠ id) :
    Option.Rel Job.Persists (jobs.get? id) (later.get? id) := by
  cases found : jobs.get? id with
  | none =>
      rw [reaped.kept, found]
      exact .none
  | some job =>
      have remains : later.get? id = some (job.observe id sightings) := by
        refine reaped.get?_eq_some_iff.mpr ⟨?_, job, found, rfl⟩
        rintro ⟨report, member, same⟩
        exact unreported report member same
      rw [remains]
      exact .some (job.persists_observe id sightings)

end Reaped

/-- In every table that calls lead to, whatever the processes reply: a push of processes gives the
least number that leads to no job, which is at most the number of jobs there are then, and it lets
just that number lead to the new job; a reap frees the numbers that it reports, each of which has
led to a job, and under any other number there is the same job as before or none; and the table is
empty just if no number leads to a job. -/
theorem least_free_number_is_given {calls : List JobCall} {jobs : JobTable}
    (made : MakesAll .empty calls jobs) :
    (∀ pids description, pids ≠ [] → ∃ id later, jobs.push? pids description = some (id, later) ∧
      (1 ≤ id ∧ jobs.get? id = none ∧ ∀ other, 1 ≤ other → jobs.get? other = none → id ≤ other) ∧
      id ≤ later.numbers.length ∧ later.get? id = some (.ofPids pids description) ∧
      ∀ other, other ≠ id → later.get? other = jobs.get? other) ∧
    (∀ events finished later, jobs.reap.Leads events (finished, later) →
      (∀ report ∈ finished, (jobs.get? report.id).isSome = true ∧ later.get? report.id = none) ∧
      ∀ id, (∀ report ∈ finished, report.id ≠ id) →
        Option.Rel Job.Persists (jobs.get? id) (later.get? id)) ∧
    (jobs.isEmpty = true ↔ ∀ id, jobs.get? id = none) := by
  refine ⟨?_, ?_, isEmpty_iff_of_endsHeld made.endsHeld⟩
  · intro pids description nonempty
    refine ⟨_, _, push?_eq_some_iff.mpr ⟨nonempty, rfl⟩, ⟨Nat.succ_le_succ (Nat.zero_le _),
      get?_insert_id jobs pids description, ?_⟩, insert_le_length_numbers jobs pids description,
      get?_insert_self jobs pids description, ?_⟩
    · intro other positive free
      exact le_of_get?_eq_none jobs pids description positive free
    · intro other different
      exact (get?_insert jobs pids description other).trans (if_neg different)
  · intro events finished later leads
    obtain ⟨sightings, _, reaped⟩ := exists_reaped leads
    refine ⟨fun report member => ⟨?_, reaped.get?_of_mem member⟩, fun id => reaped.rel_persists⟩
    obtain ⟨job, found, _⟩ := (reaped.reported report).mp member
    rw [found]
    rfl

/-- Of the jobs `a &`, `b &` and `c &` the second has been reported. Its number is given to the next
job; and when the third has been reported as well, no slot is left behind the first. -/
theorem least_free_number_is_given_of_gap :
    let first : Job := .ofPids [⟨7⟩] "a &"
    let jobs : JobTable := ⟨[some first, none, some (.ofPids [⟨9⟩] "c &")]⟩
    let running : Sighting := ⟨⟨1, 0, ⟨7⟩⟩, .ok none⟩
    let ended : Sighting := ⟨⟨2, 0, ⟨8⟩⟩, .ok (some (.exited 5))⟩
    let last : Sighting := ⟨⟨3, 0, ⟨9⟩⟩, .ok none⟩
    let killed : Sighting := ⟨⟨3, 0, ⟨9⟩⟩, .ok (some (.killed 9))⟩
    MakesAll .empty [.pushed [⟨7⟩] "a &" 1, .pushed [⟨8⟩] "b &" 2, .pushed [⟨9⟩] "c &" 3,
        .reaped [running, ended, last] [⟨2, "b &", 5⟩]] jobs ∧
      (∃ later, jobs.push? [⟨10⟩] "d &" = some (2, later) ∧ 2 ≤ later.numbers.length ∧
        later.get? 2 = some (.ofPids [⟨10⟩] "d &")) ∧
      jobs.reap.Leads [running.event, killed.event] ([⟨3, "c &", 137⟩], ⟨[some first]⟩) ∧
      Option.Rel Job.Persists (jobs.get? 1) (some first) ∧ jobs.isEmpty = false := by
  intro first jobs running ended last killed
  have pushed : MakesAll .empty ([] ++ [.pushed [⟨7⟩] "a &" 1] ++ [.pushed [⟨8⟩] "b &" 2] ++
      [.pushed [⟨9⟩] "c &" 3])
      ⟨[some first, some (.ofPids [⟨8⟩] "b &"), some (.ofPids [⟨9⟩] "c &")]⟩ :=
    .further (.further (.further (.nothing _) (.push rfl)) (.push rfl)) (.push rfl)
  have made : MakesAll .empty ([] ++ [.pushed [⟨7⟩] "a &" 1] ++ [.pushed [⟨8⟩] "b &" 2] ++
      [.pushed [⟨9⟩] "c &" 3] ++ [.reaped [running, ended, last] [⟨2, "b &", 5⟩]]) jobs :=
    .further pushed (.reap (.ask _ (.ask _ (.ask _ (.finished _)))) rfl)
  have reaping : jobs.reap.Leads [running.event, killed.event]
      ([⟨3, "c &", 137⟩], ⟨[some first]⟩) :=
    .ask _ (.ask _ (.finished _))
  obtain ⟨adding, freeing, emptiness⟩ := least_free_number_is_given made
  obtain ⟨id, later, added, _, few, held, _⟩ := adding [⟨10⟩] "d &" (List.cons_ne_nil _ _)
  have same : jobs.push? [⟨10⟩] "d &" = some (2, later) := by
    cases added
    rfl
  have idEq : id = 2 := by
    rw [added] at same
    exact congrArg Prod.fst (Option.some.inj same)
  rw [idEq] at few held
  refine ⟨made, ⟨later, same, few, held⟩, reaping, ?_, ?_⟩
  · refine (freeing _ _ _ reaping).2 1 fun report member => ?_
    rw [List.mem_singleton.mp member]
    decide
  · refine Bool.eq_false_iff.mpr fun isEmpty => ?_
    cases emptiness.mp isEmpty 1

end JobTable

end PipelineShell

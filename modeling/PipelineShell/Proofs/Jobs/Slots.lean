import PipelineShell.Job

/-!
The job table by number. All that later proofs know about slots is which job a number leads to:
adding a job takes a number that leads nowhere and changes no other, and forgetting the free slots
at the end changes nothing.
-/

namespace PipelineShell

namespace JobTable

theorem get?_succ (jobs : JobTable) (index : Nat) :
    jobs.get? (index + 1) = (jobs.slots[index]?).join :=
  rfl

theorem get?_empty (id : Nat) : empty.get? id = none := by
  cases id <;> rfl

/-! ### Adding a job -/

private theorem join_getElem?_fill (job : Job) (slots : List (Option Job)) :
    (slots[(fill job slots).1]?).join = none ∧
      ∀ index, ((fill job slots).2[index]?).join
        = if index = (fill job slots).1 then some job else (slots[index]?).join := by
  induction slots with
  | nil =>
      refine ⟨rfl, fun index => ?_⟩
      cases index <;> rfl
  | cons slot rest ih =>
      cases slot with
      | none =>
          refine ⟨rfl, fun index => ?_⟩
          cases index <;> rfl
      | some other =>
          obtain ⟨free, filled⟩ := ih
          refine ⟨free, fun index => ?_⟩
          cases index with
          | zero => rfl
          | succ index =>
              change ((fill job rest).2[index]?).join = _
              rw [filled index]
              change _ = if index + 1 = (fill job rest).1 + 1 then some job else (rest[index]?).join
              simp only [Nat.add_right_cancel_iff]

theorem get?_insert_id (jobs : JobTable) (pids : List Pid) (description : String) :
    jobs.get? (jobs.insert pids description).1 = none :=
  (join_getElem?_fill _ jobs.slots).1

theorem get?_insert (jobs : JobTable) (pids : List Pid) (description : String) (id : Nat) :
    (jobs.insert pids description).2.get? id
      = if id = (jobs.insert pids description).1 then some (.ofPids pids description)
        else jobs.get? id := by
  cases id with
  | zero => rfl
  | succ index =>
      change ((fill _ jobs.slots).2[index]?).join = _
      rw [(join_getElem?_fill _ jobs.slots).2 index]
      change _ = if index + 1 = (fill _ jobs.slots).1 + 1 then _ else (jobs.slots[index]?).join
      simp only [Nat.add_right_cancel_iff]

theorem get?_insert_self (jobs : JobTable) (pids : List Pid) (description : String) :
    (jobs.insert pids description).2.get? (jobs.insert pids description).1
      = some (.ofPids pids description) := by
  rw [get?_insert, if_pos rfl]

theorem push?_eq_some_iff {jobs later : JobTable} {pids : List Pid} {description : String}
    {id : Nat} :
    jobs.push? pids description = some (id, later) ↔
      pids ≠ [] ∧ jobs.insert pids description = (id, later) := by
  cases pids with
  | nil => simp [push?]
  | cons pid rest => simp [push?]

theorem ne_of_push? {jobs later : JobTable} {pids : List Pid} {description : String}
    {id number : Nat} {job : Job} (added : jobs.push? pids description = some (number, later))
    (held : jobs.get? id = some job) : id ≠ number := by
  have free := get?_insert_id jobs pids description
  rw [(push?_eq_some_iff.mp added).2] at free
  rintro rfl
  rw [held] at free
  cases free

theorem get?_of_push? {jobs later : JobTable} {pids : List Pid} {description : String}
    {id number : Nat} {job : Job} (added : jobs.push? pids description = some (number, later))
    (held : jobs.get? id = some job) : later.get? id = some job := by
  have found := get?_insert jobs pids description id
  rw [(push?_eq_some_iff.mp added).2, if_neg (ne_of_push? added held)] at found
  exact found.trans held

/-! ### Forgetting free slots -/

theorem join_getElem?_trim (slots : List (Option Job)) (index : Nat) :
    ((trim slots)[index]?).join = (slots[index]?).join := by
  induction slots generalizing index with
  | nil => rfl
  | cons slot rest ih =>
      cases slot with
      | some job =>
          cases index with
          | zero => rfl
          | succ index => exact ih index
      | none =>
          unfold trim
          cases trimmed : trim rest with
          | nil =>
              cases index with
              | zero => rfl
              | succ index =>
                  have free := ih index
                  rw [trimmed] at free
                  exact free
          | cons first others =>
              cases index with
              | zero => rfl
              | succ index =>
                  have same := ih index
                  rw [trimmed] at same
                  exact same

end JobTable

end PipelineShell

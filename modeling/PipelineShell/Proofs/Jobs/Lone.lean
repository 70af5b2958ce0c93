import PipelineShell.Proofs.Jobs.History

/-!
Jobs of one process. Such a job stays in its place, whatever is called on the table, until a reap
finds its process ended; that reap reports it, with the status of that process.
-/

namespace PipelineShell

namespace JobTable

variable {jobs later last : JobTable} {calls : List JobCall} {call : JobCall} {id : Nat} {pid : Pid}
  {description : String} {sightings : List Sighting} {finished : List FinishedJob}

private theorem observe_lone (id : Nat) (pid : Pid) (description : String)
    (sightings : List Sighting) :
    (Job.ofPids [pid] description).observe id sightings
      = ⟨[⟨pid, Sighting.known sightings id 0⟩], description⟩ := by
  have processes := @Job.processes_observe_ofPids [pid] description id sightings
  rw [List.mapIdx_cons, List.mapIdx_nil] at processes
  rw [← processes]
  rfl

theorem Reaped.exists_sighting (reaped : jobs.Reaped sightings finished later)
    (held : jobs.get? id = some (.ofPids [pid] description)) :
    ∃ sighting ∈ sightings, sighting.toJobMember = ⟨id, 0, pid⟩ ∧
      Sighting.known sightings id 0 = sighting.status? := by
  have awaited : (⟨id, 0, pid⟩ : JobMember) ∈ jobs.awaited := mem_awaited.mpr ⟨_, held, rfl⟩
  have members := awaited
  rw [← reaped.members] at members
  obtain ⟨sighting, seen, same⟩ := List.mem_map.mp members
  have here : sighting.IsOf id 0 := by
    constructor
    · exact congrArg JobMember.id same
    · exact congrArg JobMember.place same
  have single : (sightings.map Sighting.toJobMember).Nodup := by
    rw [reaped.members]
    exact nodup_awaitedFrom 1 jobs.slots
  have only : ∀ other ∈ sightings, other.IsOf id 0 → other = sighting := by
    intro other seenOther hereOther
    have sameMember : other.toJobMember = sighting.toJobMember := by
      rw [same]
      exact eq_of_mem_awaited (reaped.mem_awaited_of_mem seenOther) awaited hereOther.1 hereOther.2
    exact List.inj_on_of_nodup_map single seenOther seen sameMember
  refine ⟨sighting, seen, same, ?_⟩
  cases statusEq : sighting.status? with
  | none =>
      refine Sighting.known_eq_none_iff.mpr fun other seenOther hereOther => ?_
      rw [only other seenOther hereOther]
      exact statusEq
  | some status =>
      have isKnown : (Sighting.known sightings id 0).isSome :=
        Sighting.isSome_known_iff.mpr ⟨sighting, seen, here, by rw [statusEq]; rfl⟩
      obtain ⟨found, knownEq⟩ := Option.isSome_iff_exists.mp isKnown
      obtain ⟨other, seenOther, hereOther, otherEq⟩ := Sighting.exists_of_known knownEq
      rw [only other seenOther hereOther, statusEq] at otherEq
      rw [knownEq, otherEq]

theorem Makes.get?_of_running (made : jobs.Makes call later)
    (held : jobs.get? id = some (.ofPids [pid] description))
    (running : ∀ sighting ∈ call.sightings, sighting.IsOf id 0 → sighting.reply = .ok none) :
    later.get? id = some (.ofPids [pid] description) := by
  cases made with
  | push added => exact get?_of_push? added held
  | @reap _ sightings finished leads members =>
      have reaped := (Makes.reap leads members).reaped
      have unknown : Sighting.known sightings id 0 = none := by
        refine Sighting.known_eq_none_iff.mpr fun sighting seen here => ?_
        rw [Sighting.status?, running sighting seen here]
      rw [reaped.kept, held, Option.map_some, observe_lone, unknown]
      rfl

theorem MakesAll.get?_of_running (made : jobs.MakesAll calls last)
    (held : jobs.get? id = some (.ofPids [pid] description))
    (running : ∀ call ∈ calls, ∀ sighting ∈ call.sightings,
      sighting.IsOf id 0 → sighting.reply = .ok none) :
    last.get? id = some (.ofPids [pid] description) := by
  induction made with
  | nothing => exact held
  | further earlier made ih =>
      have before := ih fun call member => running call (List.mem_append_left _ member)
      exact made.get?_of_running before (running _ (List.mem_append_right _ List.mem_cons_self))

/-- The job is reported by the reap that finds its process ended, and not before, with the status
of that death. -/
def WillReport (jobs : JobTable) (id : Nat) (pid : Pid) (description : String) (death : Death)
    (status : Int) : Prop :=
  ∀ calls last, jobs.MakesAll calls last →
    (∀ call ∈ calls, ∀ sighting ∈ call.sightings,
      sighting.IsOf id 0 → sighting.reply = .ok none) →
    last.get? id = some (.ofPids [pid] description) ∧
    ∀ sightings finished later, last.Makes (.reaped sightings finished) later →
      ∃ sighting ∈ sightings, sighting.toJobMember = ⟨id, 0, pid⟩ ∧
        (sighting.reply = .ok none → ∀ report ∈ finished, report.id ≠ id) ∧
        (sighting.reply = .ok (some death) →
          ∀ report, report ∈ finished ∧ report.id = id ↔ report = ⟨id, description, status⟩)

theorem willReport_of_held (held : jobs.get? id = some (.ofPids [pid] description)) {death : Death}
    {status : Int} (found : death.status = .ok status) :
    jobs.WillReport id pid description death status := by
  intro calls last made running
  have kept := made.get?_of_running held running
  refine ⟨kept, fun sightings finished later reaping => ?_⟩
  have reaped := reaping.reaped
  obtain ⟨sighting, seen, same, knownEq⟩ := reaped.exists_sighting kept
  refine ⟨sighting, seen, same, ?_, ?_⟩
  · intro stillRunning report member sameId
    have unknown : Sighting.known sightings id 0 = none := by
      rw [knownEq, Sighting.status?, stillRunning]
    obtain ⟨job, foundJob, done, _⟩ := (reaped.reported report).mp member
    rw [sameId, kept] at foundJob
    cases foundJob
    rw [sameId, observe_lone, unknown] at done
    cases done
  · intro ended report
    have isKnown : Sighting.known sightings id 0 = some status := by
      rw [knownEq, Sighting.status?, ended]
      dsimp only
      rw [found]
      rfl
    have observed : (Job.ofPids [pid] description).observe id sightings
        = ⟨[⟨pid, some status⟩], description⟩ := by
      rw [observe_lone, isKnown]
    constructor
    · rintro ⟨member, sameId⟩
      obtain ⟨job, foundJob, done, reportEq⟩ := (reaped.reported report).mp member
      rw [sameId, kept] at foundJob
      cases foundJob
      rw [sameId, observed] at reportEq
      exact reportEq
    · intro reportEq
      rw [reportEq]
      refine ⟨(reaped.reported _).mpr ⟨_, kept, ?_, ?_⟩, rfl⟩
      · rw [observed]
        rfl
      · rw [observed]
        rfl

end JobTable

end PipelineShell

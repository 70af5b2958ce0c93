import PipelineShell.Proofs.Jobs.History

/-!
Jobs by the deaths of their processes. A death tells a status, which a parent can read as long as it
knows the signal. If every reply about a process is that it runs or how it has died, then the job is
reported by the first reap that has found all of them dead, with the status of the last death, if
that can be read, and with status zero, as if nothing had happened, if not.
-/

namespace PipelineShell

namespace Death

/-- The status that a death stands for: the exit code, or 128 and the number of the signal. -/
def code : Death → Int
  | .exited code => code.toNat
  | .killed signal => 128 + signal

def IsKnown : Death → Prop
  | .exited _ => True
  | .killed signal => signal < firstUnknownSignal

instance : DecidablePred IsKnown
  | .exited _ => inferInstanceAs (Decidable True)
  | .killed signal => inferInstanceAs (Decidable (signal < firstUnknownSignal))

theorem status_of_isKnown {death : Death} (known : death.IsKnown) :
    death.status = .ok death.code := by
  cases death with
  | exited code => rfl
  | killed signal =>
      have below : signal < firstUnknownSignal := known
      rw [status, if_pos below]
      rfl

theorem status_of_not_isKnown {death : Death} (unknown : ¬ death.IsKnown) :
    death.status = .error .invalidArgument := by
  cases death with
  | exited code => exact absurd trivial unknown
  | killed signal =>
      have above : ¬ signal < firstUnknownSignal := unknown
      rw [status, if_neg above]

def recorded (death : Death) : Int :=
  if death.IsKnown then death.code else 0

private theorem recorded_eq (death : Death) : death.status.toOption.getD 0 = death.recorded := by
  rw [recorded]
  by_cases known : death.IsKnown
  · rw [status_of_isKnown known, if_pos known]
    rfl
  · rw [status_of_not_isKnown known, if_neg known]
    rfl

theorem recorded_ne_zero_of_killed {signal : Nat} (known : signal < firstUnknownSignal) :
    (killed signal).recorded ≠ 0 := by
  have isKnown : (killed signal).IsKnown := known
  rw [recorded, if_pos isKnown, code]
  omega

end Death

namespace Sighting

/-- Whatever has been asked of the processes of the job, the replies are that a process still runs
or that it has died the death of its place. -/
def TellDeaths (id : Nat) (deaths : List Death) (sightings : List Sighting) : Prop :=
  ∀ sighting ∈ sightings, sighting.id = id → sighting.reply = .ok none ∨
    ∃ death, deaths[sighting.place]? = some death ∧ sighting.reply = .ok (some death)

variable {id place : Nat} {deaths : List Death} {sightings : List Sighting} {sighting : Sighting}

theorem TellDeaths.isSome_status?_iff (tell : TellDeaths id deaths sightings)
    (member : sighting ∈ sightings) (same : sighting.id = id) :
    sighting.status?.isSome ↔ sighting.reply ≠ .ok none := by
  rcases tell sighting member same with running | ⟨death, _, dead⟩
  · simp [status?, running]
  · simp [status?, dead]

theorem TellDeaths.known_eq (tell : TellDeaths id deaths sightings) {status : Int}
    (found : known sightings id place = some status) :
    ∃ death, deaths[place]? = some death ∧ status = death.recorded := by
  obtain ⟨sighting, member, here, statusEq⟩ := exists_of_known found
  rcases tell sighting member here.1 with running | ⟨death, isDeath, dead⟩
  · rw [status?, running] at statusEq
    cases statusEq
  · rw [here.2] at isDeath
    rw [status?, dead] at statusEq
    refine ⟨death, isDeath, ?_⟩
    rw [← death.recorded_eq]
    exact (Option.some.inj statusEq).symm

end Sighting

namespace JobTable

variable {jobs middle later table : JobTable} {calls : List JobCall} {call : JobCall} {id : Nat}
  {job : Job}

theorem Makes.get?_of_unreported (made : jobs.Makes call later) (held : jobs.get? id = some job)
    (unreported : ¬ call.Returns id) :
    later.get? id = some (job.observe id call.sightings) := by
  cases made with
  | push added =>
      rw [JobCall.sightings, Job.observe_nil]
      exact get?_of_push? added held
  | reap leads members =>
      have reaped := (Makes.reap leads members).reaped
      exact reaped.get?_eq_some_iff.mpr ⟨unreported, job, held, rfl⟩

theorem MakesAll.get?_of_unreported (made : jobs.MakesAll calls table)
    (held : jobs.get? id = some job) (unreported : ∀ call ∈ calls, ¬ call.Returns id) :
    table.get? id = some (job.observe id (calls.flatMap JobCall.sightings)) := by
  induction made with
  | nothing =>
      rw [List.flatMap_nil, Job.observe_nil]
      exact held
  | further earlier made ih =>
      have before := ih fun call member => unreported call (List.mem_append_left _ member)
      have behind := made.get?_of_unreported before
        (unreported _ (List.mem_append_right _ List.mem_cons_self))
      rw [behind, List.flatMap_append, Job.observe_append, List.flatMap_singleton]

/-- The first reap that has found all processes of a job dead reports it, with what is recorded of
the last death. -/
theorem reports_of_deaths {pids : List Pid} {description : String} {deaths : List Death}
    {final : Death} (held : jobs.get? id = some (.ofPids pids description))
    (each : deaths.length = pids.length) (last : deaths.getLast? = some final)
    (made : jobs.MakesAll calls table) (unreported : ∀ call ∈ calls, ¬ call.Returns id)
    {sightings : List Sighting} {finished : List FinishedJob}
    (reaping : table.Makes (.reaped sightings finished) later)
    (tell : Sighting.TellDeaths id deaths (sightingsUntil calls sightings)) :
    ((∃ report ∈ finished, report.id = id) ↔ ∀ place < pids.length,
      ∃ sighting ∈ sightingsUntil calls sightings,
        sighting.IsOf id place ∧ sighting.reply ≠ .ok none) ∧
      ∀ report ∈ finished, report.id = id → report = ⟨id, description, final.recorded⟩ := by
  have reaped := reaping.reaped
  have kept := made.get?_of_unreported held unreported
  have nonempty : pids ≠ [] := by
    rintro rfl
    rw [List.eq_nil_of_length_eq_zero each] at last
    cases last
  constructor
  · rw [reaped.exists_report_iff kept nonempty]
    refine forall₂_congr fun place _ => exists_congr fun sighting => ?_
    refine and_congr_right fun member => ?_
    exact and_congr_right fun here => tell.isSome_status?_iff member here.1
  · intro report member same
    obtain ⟨_, textEq, statusEq⟩ := (reaped.mem_finished_iff kept nonempty same).mp member
    obtain ⟨death, isDeath, recordedEq⟩ := tell.known_eq statusEq
    rw [List.getLast?_eq_getElem?, each, isDeath] at last
    cases last
    obtain ⟨number, text, status⟩ := report
    cases same
    cases textEq
    cases recordedEq
    rfl

end JobTable

end PipelineShell

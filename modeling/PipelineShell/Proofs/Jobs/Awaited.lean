import Mathlib.Data.List.Nodup
import PipelineShell.Proofs.Jobs.Reaping

/-!
The processes that a table awaits, through the calls on it. A job that is added brings its processes
and no other; a reap takes just those that it finds ended, as long as no two have one number.
-/

namespace PipelineShell.JobTable

def awaitedPids (jobs : JobTable) : List Pid :=
  jobs.awaited.map JobMember.pid

theorem eq_of_mem_awaited {jobs : JobTable} {member other : JobMember}
    (awaited : member ∈ jobs.awaited) (otherAwaited : other ∈ jobs.awaited)
    (sameJob : member.id = other.id) (samePlace : member.place = other.place) :
    member = other := by
  obtain ⟨job, found, unknown⟩ := mem_awaited.mp awaited
  obtain ⟨otherJob, otherFound, otherUnknown⟩ := mem_awaited.mp otherAwaited
  rw [← sameJob, found] at otherFound
  cases otherFound
  rw [← samePlace, unknown] at otherUnknown
  have samePid := congrArg JobProcess.pid (Option.some.inj otherUnknown)
  obtain ⟨id, place, pid⟩ := member
  obtain ⟨otherId, otherPlace, otherPid⟩ := other
  cases sameJob
  cases samePlace
  cases samePid
  rfl

/-! ### A new job -/

private theorem pids_awaited_ofPids (id : Nat) (pids : List Pid) (description : String) :
    ((Job.ofPids pids description).awaited id).map JobMember.pid = pids := by
  have each : ∀ place, (Job.awaitedFrom id place (pids.map fun pid => ⟨pid, none⟩)).map
      JobMember.pid = pids := by
    induction pids with
    | nil => exact fun place => rfl
    | cons pid rest ih => exact fun place => congrArg (List.cons pid) (ih (place + 1))
  exact each 0

private theorem pids_awaitedFrom_fill (id : Nat) (pids : List Pid) (description : String)
    (slots : List (Option Job)) :
    ((awaitedFrom id (fill (.ofPids pids description) slots).2).map JobMember.pid).Perm
      (pids ++ (awaitedFrom id slots).map JobMember.pid) := by
  have atFront : ∀ place members, (((Job.ofPids pids description).awaited place ++ members).map
      JobMember.pid).Perm (pids ++ members.map JobMember.pid) := by
    intro place members
    rw [List.map_append, pids_awaited_ofPids]
  induction slots generalizing id with
  | nil => exact atFront id []
  | cons slot rest ih =>
      cases slot with
      | none => exact atFront id (awaitedFrom (id + 1) rest)
      | some other =>
          change ((other.awaited id ++ awaitedFrom (id + 1) _).map JobMember.pid).Perm
            (pids ++ (other.awaited id ++ awaitedFrom (id + 1) rest).map JobMember.pid)
          rw [List.map_append, List.map_append]
          exact ((ih (id + 1)).append_left _).trans (List.perm_append_comm_assoc _ _ _)

theorem awaitedPids_insert (jobs : JobTable) (pids : List Pid) (description : String) :
    (jobs.insert pids description).2.awaitedPids.Perm (pids ++ jobs.awaitedPids) :=
  pids_awaitedFrom_fill 1 pids description jobs.slots

/-! ### Reaping -/

namespace Reaped

variable {jobs later : JobTable} {sightings : List Sighting} {finished : List FinishedJob}

theorem get?_eq_some_iff (reaped : jobs.Reaped sightings finished later) {id : Nat} {job : Job} :
    later.get? id = some job ↔
      (¬ ∃ report ∈ finished, report.id = id) ∧
        ∃ given, jobs.get? id = some given ∧ job = given.observe id sightings := by
  rw [reaped.kept, Option.filter_eq_some_iff, Option.map_eq_some_iff]
  constructor
  · rintro ⟨⟨given, found, seen⟩, unfinished⟩
    refine ⟨?_, given, found, seen.symm⟩
    rintro ⟨report, member, same⟩
    obtain ⟨other, foundOther, done, _⟩ := (reaped.reported report).mp member
    rw [same] at foundOther done
    rw [found] at foundOther
    cases foundOther
    rw [seen] at done
    rw [done] at unfinished
    cases unfinished
  · rintro ⟨unreported, given, found, seen⟩
    refine ⟨⟨given, found, seen.symm⟩, ?_⟩
    cases done : job.isFinished with
    | false => rfl
    | true =>
        rw [seen] at done
        exact (unreported ⟨_, (reaped.reported ((given.observe id sightings).report id)).mpr
          ⟨given, found, done, rfl⟩, rfl⟩).elim

theorem get?_of_mem (reaped : jobs.Reaped sightings finished later) {report : FinishedJob}
    (member : report ∈ finished) : later.get? report.id = none := by
  cases found : later.get? report.id with
  | none => rfl
  | some job => exact ((reaped.get?_eq_some_iff.mp found).1 ⟨report, member, rfl⟩).elim

theorem mem_awaited_of_mem (reaped : jobs.Reaped sightings finished later) {sighting : Sighting}
    (member : sighting ∈ sightings) : sighting.toJobMember ∈ jobs.awaited := by
  rw [← reaped.members]
  exact List.mem_map_of_mem member

theorem mem_awaited_iff (reaped : jobs.Reaped sightings finished later) {member : JobMember} :
    member ∈ later.awaited ↔
      member ∈ jobs.awaited ∧ Sighting.known sightings member.id member.place = none := by
  constructor
  · intro awaited
    obtain ⟨job, found, unknown⟩ := mem_awaited.mp awaited
    obtain ⟨_, given, foundGiven, seen⟩ := reaped.get?_eq_some_iff.mp found
    rw [seen, Job.observe, List.getElem?_mapIdx] at unknown
    obtain ⟨process, inside, observed⟩ := Option.map_eq_some_iff.mp unknown
    obtain ⟨pid, status⟩ := process
    obtain ⟨pidEq, statusEq⟩ := JobProcess.mk.inj observed
    obtain ⟨statusNone, knownNone⟩ := Option.or_eq_none_iff.mp statusEq
    refine ⟨mem_awaited.mpr ⟨given, foundGiven, ?_⟩, knownNone⟩
    rw [inside]
    exact congrArg some (congr (congrArg JobProcess.mk pidEq) statusNone)
  · rintro ⟨awaited, unknown⟩
    obtain ⟨job, found, inside⟩ := mem_awaited.mp awaited
    have remains : (job.observe member.id sightings).processes[member.place]?
        = some ⟨member.pid, none⟩ := by
      rw [Job.observe, List.getElem?_mapIdx, inside]
      exact congrArg some (congrArg (JobProcess.mk member.pid) unknown)
    refine mem_awaited.mpr ⟨_, reaped.get?_eq_some_iff.mpr ⟨?_, job, found, rfl⟩, remains⟩
    rintro ⟨report, isReported, same⟩
    obtain ⟨other, foundOther, done, _⟩ := (reaped.reported report).mp isReported
    rw [same] at foundOther done
    rw [found] at foundOther
    cases foundOther
    have known := List.all_eq_true.mp done _ (List.mem_of_getElem? remains)
    cases known

/-- As long as no two awaited processes have one number, the numbers of those that are left awaited
are just those that have not been found ended. -/
theorem mem_awaitedPids_iff (reaped : jobs.Reaped sightings finished later)
    (distinct : jobs.awaitedPids.Nodup) {pid : Pid} :
    pid ∈ later.awaitedPids ↔ pid ∈ jobs.awaitedPids ∧
      ∀ sighting ∈ sightings, sighting.pid = pid → sighting.status? = none := by
  constructor
  · intro remains
    obtain ⟨member, awaited, same⟩ := List.mem_map.mp remains
    obtain ⟨before, unknown⟩ := reaped.mem_awaited_iff.mp awaited
    refine ⟨List.mem_map.mpr ⟨member, before, same⟩, fun sighting seen samePid => ?_⟩
    -- Its number tells the sighting from those of all other processes.
    have isMember : sighting.toJobMember = member :=
      List.inj_on_of_nodup_map distinct (reaped.mem_awaited_of_mem seen) before
        (samePid.trans same.symm)
    rw [← isMember] at unknown
    exact Sighting.known_eq_none_iff.mp unknown sighting seen ⟨rfl, rfl⟩
  · rintro ⟨before, running⟩
    obtain ⟨member, awaited, same⟩ := List.mem_map.mp before
    refine List.mem_map.mpr ⟨member, reaped.mem_awaited_iff.mpr ⟨awaited, ?_⟩, same⟩
    refine Sighting.known_eq_none_iff.mpr fun sighting seen here => running sighting seen ?_
    rw [eq_of_mem_awaited (reaped.mem_awaited_of_mem seen) awaited here.1 here.2]
    exact same

theorem nodup_awaitedPids (reaped : jobs.Reaped sightings finished later)
    (distinct : jobs.awaitedPids.Nodup) : later.awaitedPids.Nodup := by
  refine List.Nodup.map_on ?_ (nodup_awaitedFrom 1 later.slots)
  intro member remains other otherRemains same
  exact List.inj_on_of_nodup_map distinct (reaped.mem_awaited_iff.mp remains).1
    (reaped.mem_awaited_iff.mp otherRemains).1 same

end Reaped

end PipelineShell.JobTable

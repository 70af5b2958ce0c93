import PipelineShell.Proofs.Jobs.Slots
import PipelineShell.Proofs.System.Path

/-!
What is found out about the processes of jobs. A sighting is one process that has been asked after,
with the reply; sightings, in order, tell the status of a process once one of them has found it
ended. A process is awaited as long as its status is not known.
-/

namespace PipelineShell

/-- A process in its place among the processes of the job with the number. -/
structure JobMember where
  id : Nat
  place : Nat
  pid : Pid
deriving DecidableEq

structure Sighting extends JobMember where
  reply : Except LastingErrno (Option Death)

namespace Sighting

def event (sighting : Sighting) : Event System.interface :=
  ⟨.poll sighting.pid, sighting.reply⟩

/-- The status that is recorded for the process, if it has been found ended. It is zero if the
process cannot be asked after, also because its death has no status. -/
def status? (sighting : Sighting) : Option Int :=
  match sighting.reply with
  | .ok none => none
  | .ok (some death) => some (death.status.toOption.getD 0)
  | .error _ => some 0

def recorded : Except Errno (Option Int) → Option Int
  | .ok status => status
  | .error _ => some 0

theorem status?_eq (sighting : Sighting) :
    sighting.status? = recorded ((sighting.reply.mapError LastingErrno.errno).bind fun
      | none => .ok none
      | some death => death.status.map some) := by
  obtain ⟨member, reply⟩ := sighting
  cases reply with
  | error errno => rfl
  | ok found =>
      cases found with
      | none => rfl
      | some death =>
          change some (death.status.toOption.getD 0) = recorded (death.status.map some)
          cases death.status <;> rfl

def IsOf (sighting : Sighting) (id place : Nat) : Prop :=
  sighting.id = id ∧ sighting.place = place

instance (sighting : Sighting) (id place : Nat) : Decidable (sighting.IsOf id place) :=
  inferInstanceAs (Decidable (_ ∧ _))

/-- The first status that sightings give of the process at a place of a job. -/
def known (sightings : List Sighting) (id place : Nat) : Option Int :=
  sightings.findSome? fun sighting => if sighting.IsOf id place then sighting.status? else none

theorem known_append (sightings more : List Sighting) (id place : Nat) :
    known (sightings ++ more) id place = (known sightings id place).or (known more id place) :=
  List.findSome?_append

private theorem known_of_absent {sightings : List Sighting} {id place : Nat}
    (absent : ∀ sighting ∈ sightings, ¬ sighting.IsOf id place) :
    known sightings id place = none := by
  rw [known, List.findSome?_eq_none_iff]
  intro sighting member
  exact if_neg (absent sighting member)

theorem known_append_of_absent {sightings more : List Sighting} {id place : Nat}
    (absent : ∀ sighting ∈ more, ¬ sighting.IsOf id place) :
    known (sightings ++ more) id place = known sightings id place := by
  rw [known_append, known_of_absent absent, Option.or_none]

theorem known_append_of_absent_before {sightings more : List Sighting} {id place : Nat}
    (absent : ∀ sighting ∈ sightings, ¬ sighting.IsOf id place) :
    known (sightings ++ more) id place = known more id place := by
  rw [known_append, known_of_absent absent, Option.none_or]

theorem known_eq_none_iff {sightings : List Sighting} {id place : Nat} :
    known sightings id place = none ↔
      ∀ sighting ∈ sightings, sighting.IsOf id place → sighting.status? = none := by
  rw [known, List.findSome?_eq_none_iff]
  constructor
  · intro nowhere sighting member here
    have found := nowhere sighting member
    rw [if_pos here] at found
    exact found
  · intro running sighting member
    split
    · exact running sighting member (by assumption)
    · rfl

theorem exists_of_known {sightings : List Sighting} {id place : Nat} {status : Int}
    (found : known sightings id place = some status) :
    ∃ sighting ∈ sightings, sighting.IsOf id place ∧ sighting.status? = some status := by
  obtain ⟨sighting, member, gives⟩ := List.exists_of_findSome?_eq_some found
  split at gives
  · exact ⟨sighting, member, by assumption, gives⟩
  · cases gives

theorem isSome_known_iff {sightings : List Sighting} {id place : Nat} :
    (known sightings id place).isSome ↔
      ∃ sighting ∈ sightings, sighting.IsOf id place ∧ sighting.status?.isSome := by
  constructor
  · intro found
    obtain ⟨status, knownEq⟩ := Option.isSome_iff_exists.mp found
    obtain ⟨sighting, member, here, gives⟩ := exists_of_known knownEq
    exact ⟨sighting, member, here, by rw [gives]; rfl⟩
  · rintro ⟨sighting, member, here, ended⟩
    cases knownEq : known sightings id place with
    | some status => rfl
    | none =>
        rw [known_eq_none_iff.mp knownEq sighting member here] at ended
        cases ended

theorem eq_of_events_of_members {sightings others : List Sighting}
    (sameEvents : sightings.map event = others.map event)
    (sameMembers : sightings.map toJobMember = others.map toJobMember) : sightings = others := by
  induction sightings generalizing others with
  | nil =>
      cases others with
      | nil => rfl
      | cons other rest => cases sameEvents
  | cons sighting rest ih =>
      cases others with
      | nil => cases sameEvents
      | cons other more =>
          obtain ⟨eventEq, eventsEq⟩ := List.cons.inj sameEvents
          obtain ⟨memberEq, membersEq⟩ := List.cons.inj sameMembers
          rw [ih eventsEq membersEq]
          obtain ⟨⟨id, place, pid⟩, reply⟩ := sighting
          obtain ⟨⟨otherId, otherPlace, otherPid⟩, otherReply⟩ := other
          cases memberEq
          cases eventEq
          rfl

end Sighting

/-! ### The processes that are asked after -/

def JobProcess.awaited (id place : Nat) (process : JobProcess) : List JobMember :=
  match process.status with
  | none => [⟨id, place, process.pid⟩]
  | some _ => []

def Job.awaitedFrom (id : Nat) : Nat → List JobProcess → List JobMember
  | _, [] => []
  | place, process :: rest => process.awaited id place ++ awaitedFrom id (place + 1) rest

def Job.awaited (id : Nat) (job : Job) : List JobMember :=
  awaitedFrom id 0 job.processes

def JobTable.awaitedFrom : Nat → List (Option Job) → List JobMember
  | _, [] => []
  | id, slot :: rest => slot.elim [] (Job.awaited id) ++ awaitedFrom (id + 1) rest

/-- The processes whose statuses are not known, by job and place. -/
def JobTable.awaited (jobs : JobTable) : List JobMember :=
  awaitedFrom 1 jobs.slots

theorem Job.mem_awaitedFrom {id place : Nat} {processes : List JobProcess} {member : JobMember} :
    member ∈ awaitedFrom id place processes ↔
      member.id = id ∧ ∃ index, member.place = place + index ∧
        processes[index]? = some ⟨member.pid, none⟩ := by
  induction processes generalizing place with
  | nil => simp [awaitedFrom]
  | cons process rest ih =>
      obtain ⟨pid, status⟩ := process
      obtain ⟨number, position, memberPid⟩ := member
      rw [awaitedFrom, List.mem_append, ih]
      constructor
      · rintro (here | ⟨same, index, placed, found⟩)
        · cases status with
          | none =>
              cases List.mem_singleton.mp here
              exact ⟨rfl, 0, rfl, rfl⟩
          | some status => cases here
        · exact ⟨same, index + 1, by omega, found⟩
      · rintro ⟨same, index, placed, found⟩
        cases index with
        | zero =>
            cases found
            cases same
            cases placed
            exact Or.inl List.mem_cons_self
        | succ index => exact Or.inr ⟨same, index, by omega, found⟩

theorem Job.mem_awaited {id : Nat} {job : Job} {member : JobMember} :
    member ∈ job.awaited id ↔
      member.id = id ∧ job.processes[member.place]? = some ⟨member.pid, none⟩ := by
  rw [awaited, mem_awaitedFrom]
  simp

theorem JobTable.mem_awaitedFrom {id : Nat} {slots : List (Option Job)} {member : JobMember} :
    member ∈ awaitedFrom id slots ↔
      ∃ (index : Nat) (job : Job), (slots[index]?).join = some job ∧
        member ∈ job.awaited (id + index) := by
  induction slots generalizing id with
  | nil => simp [awaitedFrom]
  | cons slot rest ih =>
      rw [awaitedFrom, List.mem_append, ih]
      constructor
      · rintro (here | ⟨index, job, found, inside⟩)
        · cases slot with
          | none => cases here
          | some job => exact ⟨0, job, rfl, here⟩
        · refine ⟨index + 1, job, found, ?_⟩
          rw [← Nat.add_assoc, Nat.add_right_comm]
          exact inside
      · rintro ⟨index, job, found, inside⟩
        cases index with
        | zero =>
            cases slot with
            | none => cases found
            | some other =>
                cases found
                exact Or.inl inside
        | succ index =>
            refine Or.inr ⟨index, job, found, ?_⟩
            rw [← Nat.add_assoc, Nat.add_right_comm] at inside
            exact inside

theorem JobTable.mem_awaited {jobs : JobTable} {member : JobMember} :
    member ∈ jobs.awaited ↔
      ∃ job, jobs.get? member.id = some job ∧
        job.processes[member.place]? = some ⟨member.pid, none⟩ := by
  rw [awaited, mem_awaitedFrom]
  constructor
  · rintro ⟨index, job, found, inside⟩
    obtain ⟨same, unknown⟩ := Job.mem_awaited.mp inside
    refine ⟨job, ?_, unknown⟩
    rw [same, Nat.add_comm]
    exact found
  · rintro ⟨job, found, unknown⟩
    cases numbered : member.id with
    | zero =>
        rw [numbered] at found
        cases found
    | succ index =>
        rw [numbered] at found
        refine ⟨index, job, found, Job.mem_awaited.mpr ⟨?_, unknown⟩⟩
        rw [numbered, Nat.add_comm]

theorem Job.nodup_awaitedFrom (id place : Nat) (processes : List JobProcess) :
    (awaitedFrom id place processes).Nodup := by
  induction processes generalizing place with
  | nil => exact List.nodup_nil
  | cons process rest ih =>
      rw [awaitedFrom, List.nodup_append]
      refine ⟨?_, ih (place + 1), ?_⟩
      · rw [JobProcess.awaited]
        split
        · exact List.pairwise_singleton _ _
        · exact List.nodup_nil
      · intro member here other behind same
        obtain ⟨_, index, placed, _⟩ := mem_awaitedFrom.mp behind
        rw [JobProcess.awaited] at here
        split at here
        · rw [← same, List.mem_singleton.mp here] at placed
          change place = place + 1 + index at placed
          omega
        · cases here

theorem JobTable.nodup_awaitedFrom (id : Nat) (slots : List (Option Job)) :
    (awaitedFrom id slots).Nodup := by
  induction slots generalizing id with
  | nil => exact List.nodup_nil
  | cons slot rest ih =>
      rw [awaitedFrom, List.nodup_append]
      refine ⟨?_, ih (id + 1), ?_⟩
      · cases slot with
        | none => exact List.nodup_nil
        | some job => exact Job.nodup_awaitedFrom id 0 job.processes
      · intro member here other behind same
        obtain ⟨index, job, _, inside⟩ := mem_awaitedFrom.mp behind
        have later := (Job.mem_awaited.mp inside).1
        cases slot with
        | none => cases here
        | some job =>
            have first := (Job.mem_awaited.mp here).1
            rw [← same] at later
            omega

end PipelineShell

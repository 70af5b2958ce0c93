import PipelineShell.Proofs.Jobs.Sightings

/-!
Asking after jobs. A reap asks after every process whose status is not known, once, by the numbers
of the jobs and from left to right in each, and after no other. A job whose last status it makes
known is reported and leaves its slot; every other job stays, with what has been found.
-/

namespace PipelineShell

/-! ### One job -/

def JobProcess.observe (process : JobProcess) (found : Option Int) : JobProcess :=
  { process with status := process.status.or found }

/-- A job with what the sightings say of its processes. -/
def Job.observe (id : Nat) (sightings : List Sighting) (job : Job) : Job :=
  { job with
    processes := job.processes.mapIdx fun place process =>
      process.observe (Sighting.known sightings id place) }

def Job.report (id : Nat) (job : Job) : FinishedJob :=
  ⟨id, job.description, job.status⟩

private theorem exists_sightings_of_poll {process later : JobProcess}
    {events : List (Event System.interface)} (id place : Nat)
    (leads : process.poll.Leads events later) :
    ∃ sightings : List Sighting, events = sightings.map Sighting.event ∧
      sightings.map Sighting.toJobMember = process.awaited id place ∧
      later = process.observe (Sighting.known sightings id place) := by
  obtain ⟨pid, status⟩ := process
  cases status with
  | some status =>
      obtain ⟨nothing, laterEq⟩ := leads.of_pure
      exact ⟨[], nothing, rfl, laterEq⟩
  | none =>
      obtain ⟨front, outcome, back, split, asked, recorded⟩ := Routine.Leads.of_bind leads
      obtain ⟨first, reply, second, splitAsked, polled, mapped⟩ := asked.of_bind
      obtain ⟨nothing, outcomeEq⟩ := mapped.of_pure
      let sighting : Sighting := ⟨⟨id, place, pid⟩, reply⟩
      have knownEq : Sighting.known [sighting] id place = sighting.status? := by
        simp [Sighting.known, Sighting.IsOf, sighting]
      have statusEq : sighting.status? = Sighting.recorded outcome := by
        rw [outcomeEq]
        exact sighting.status?_eq
      have laterEq : back = [] ∧ later = ⟨pid, sighting.status?⟩ := by
        rw [statusEq]
        cases outcome with
        | error errno => exact recorded.of_pure
        | ok status => exact recorded.of_pure
      refine ⟨[sighting], ?_, rfl, ?_⟩
      · rw [split, splitAsked, nothing, laterEq.1, polled.of_request]
        rfl
      · rw [laterEq.2, knownEq]
        rfl

private theorem exists_sightings_of_pollProcesses {processes later : List JobProcess}
    {events : List (Event System.interface)} (id place : Nat)
    (leads : (Job.pollProcesses processes).Leads events later) :
    ∃ sightings : List Sighting, events = sightings.map Sighting.event ∧
      sightings.map Sighting.toJobMember = Job.awaitedFrom id place processes ∧
      later = processes.mapIdx fun index process =>
        process.observe (Sighting.known sightings id (place + index)) := by
  induction processes generalizing place events later with
  | nil =>
      obtain ⟨nothing, laterEq⟩ := leads.of_pure
      exact ⟨[], nothing, rfl, laterEq⟩
  | cons process rest ih =>
      obtain ⟨front, first, middle, split, polled, leadsRest⟩ := Routine.Leads.of_bind leads
      obtain ⟨behind, others, back, splitRest, polledRest, returned⟩ := leadsRest.of_bind
      obtain ⟨nothing, laterEq⟩ := returned.of_pure
      obtain ⟨own, ownEvents, ownMembers, firstEq⟩ := exists_sightings_of_poll id place polled
      obtain ⟨more, moreEvents, moreMembers, othersEq⟩ := ih (place + 1) polledRest
      -- A process is told by its place from those behind it, so neither is told by the other's.
      have ownPlace : ∀ sighting ∈ own, sighting.place = place := by
        intro sighting member
        have awaited := List.mem_map_of_mem (f := Sighting.toJobMember) member
        rw [ownMembers, JobProcess.awaited] at awaited
        split at awaited
        · rw [List.mem_singleton.mp awaited]
        · cases awaited
      have morePlace : ∀ sighting ∈ more, place < sighting.place := by
        intro sighting member
        have awaited := List.mem_map_of_mem (f := Sighting.toJobMember) member
        rw [moreMembers] at awaited
        obtain ⟨_, index, placed, _⟩ := Job.mem_awaitedFrom.mp awaited
        omega
      refine ⟨own ++ more, ?_, ?_, ?_⟩
      · rw [split, splitRest, nothing, ownEvents, moreEvents, List.append_nil, List.map_append]
      · rw [List.map_append, ownMembers, moreMembers, Job.awaitedFrom]
      · rw [laterEq, firstEq, othersEq, List.mapIdx_cons]
        congr 1
        · refine congrArg process.observe (Sighting.known_append_of_absent ?_).symm
          intro sighting member here
          have behindPlace := morePlace sighting member
          have samePlace := here.2
          omega
        · apply List.mapIdx_eq_mapIdx_iff.mpr
          intro index inside
          rw [Sighting.known_append_of_absent_before, Nat.add_right_comm]
          · rfl
          · intro sighting member here
            have samePlace := ownPlace sighting member
            have otherPlace := here.2
            omega

private theorem exists_sightings_of_pollJob {job later : Job}
    {events : List (Event System.interface)}
    (id : Nat) (leads : job.poll.Leads events later) :
    ∃ sightings : List Sighting, events = sightings.map Sighting.event ∧
      sightings.map Sighting.toJobMember = job.awaited id ∧ later = job.observe id sightings := by
  obtain ⟨front, processes, back, split, polled, returned⟩ := Routine.Leads.of_bind leads
  obtain ⟨nothing, laterEq⟩ := returned.of_pure
  obtain ⟨sightings, eventsEq, members, processesEq⟩ :=
    exists_sightings_of_pollProcesses id 0 polled
  refine ⟨sightings, by rw [split, nothing, List.append_nil, eventsEq], members, ?_⟩
  rw [laterEq, processesEq, Job.observe]
  simp only [Nat.zero_add]

/-! ### The whole table -/

/-- What a reap over slots, the first of which has the number `id`, has found and left. -/
structure JobTable.SlotsReaped (id : Nat) (slots : List (Option Job)) (sightings : List Sighting)
    (finished : List FinishedJob) (later : List (Option Job)) : Prop where
  members : sightings.map Sighting.toJobMember = awaitedFrom id slots
  kept : ∀ index, (later[index]?).join
    = ((slots[index]?).join.map (Job.observe (id + index) sightings)).filter (!·.isFinished)
  reported : ∀ report, report ∈ finished ↔ ∃ (index : Nat) (job : Job),
    (slots[index]?).join = some job ∧ (job.observe (id + index) sightings).isFinished ∧
    report = (job.observe (id + index) sightings).report (id + index)
  ordered : finished.Pairwise fun report other => report.id < other.id

structure JobTable.Reaped (jobs : JobTable) (sightings : List Sighting)
    (finished : List FinishedJob) (later : JobTable) : Prop where
  members : sightings.map Sighting.toJobMember = jobs.awaited
  kept : ∀ id, later.get? id
    = ((jobs.get? id).map (Job.observe id sightings)).filter (!·.isFinished)
  reported : ∀ report, report ∈ finished ↔ ∃ job, jobs.get? report.id = some job ∧
    (job.observe report.id sightings).isFinished ∧
    report = (job.observe report.id sightings).report report.id
  ordered : finished.Pairwise fun report other => report.id < other.id

theorem Job.observe_congr {id : Nat} {sightings others : List Sighting}
    (same : ∀ place, Sighting.known sightings id place = Sighting.known others id place)
    (job : Job) : job.observe id sightings = job.observe id others := by
  simp only [observe, same]

theorem JobTable.SlotsReaped.id_le {id : Nat} {slots later : List (Option Job)}
    {sightings : List Sighting} {finished : List FinishedJob}
    (reaped : SlotsReaped id slots sightings finished later) {sighting : Sighting}
    (member : sighting ∈ sightings) : id ≤ sighting.id := by
  have awaited := List.mem_map_of_mem (f := Sighting.toJobMember) member
  rw [reaped.members] at awaited
  obtain ⟨index, job, _, inside⟩ := mem_awaitedFrom.mp awaited
  rw [(Job.mem_awaited.mp inside).1]
  exact Nat.le_add_right _ _

theorem JobTable.SlotsReaped.cons {id : Nat} {slot : Option Job} {rest later : List (Option Job)}
    {own more : List Sighting} {finished : List FinishedJob}
    (ownMembers : own.map Sighting.toJobMember = slot.elim [] (Job.awaited id))
    (reaped : SlotsReaped (id + 1) rest more finished later) :
    SlotsReaped id (slot :: rest) (own ++ more)
      ((((slot.map (Job.observe id own)).filter Job.isFinished).map (Job.report id)).toList
        ++ finished)
      ((slot.map (Job.observe id own)).filter (!·.isFinished) :: later) := by
  have ownId : ∀ sighting ∈ own, sighting.id = id := by
    intro sighting member
    have awaited := List.mem_map_of_mem (f := Sighting.toJobMember) member
    rw [ownMembers] at awaited
    cases slot with
    | none => cases awaited
    | some job => exact (Job.mem_awaited.mp awaited).1
  -- Each job is told by its own sightings alone, since the numbers behind are greater.
  have atFront : Job.observe id (own ++ more) = Job.observe id own := by
    funext job
    apply Job.observe_congr
    intro place
    apply Sighting.known_append_of_absent
    intro sighting member here
    have bound := reaped.id_le member
    have same := here.1
    omega
  have behind : ∀ index, Job.observe (id + 1 + index) (own ++ more)
      = Job.observe (id + 1 + index) more := by
    intro index
    funext job
    apply Job.observe_congr
    intro place
    apply Sighting.known_append_of_absent_before
    intro sighting member here
    have same := ownId sighting member
    have other := here.1
    omega
  have numbered : ∀ index, id + (index + 1) = id + 1 + index := by
    intro index
    omega
  refine ⟨?_, ?_, ?_, ?_⟩
  · rw [List.map_append, ownMembers, reaped.members, awaitedFrom]
  · intro index
    cases index with
    | zero =>
        change (slot.map (Job.observe id own)).filter _ = (slot.map (Job.observe id _)).filter _
        rw [atFront]
    | succ index =>
        rw [numbered, behind]
        exact reaped.kept index
  · intro report
    rw [List.mem_append, reaped.reported, Option.mem_toList, Option.map_eq_some_iff]
    constructor
    · rintro (⟨job, done, reportEq⟩ | ⟨index, job, found, done, reportEq⟩)
      · obtain ⟨seen, isDone⟩ := Option.filter_eq_some_iff.mp done
        obtain ⟨given, slotEq, seenEq⟩ := Option.map_eq_some_iff.mp seen
        refine ⟨0, given, slotEq, ?_, ?_⟩
        · rw [Nat.add_zero, atFront, seenEq]
          exact isDone
        · rw [Nat.add_zero, atFront, seenEq]
          exact reportEq.symm
      · refine ⟨index + 1, job, found, ?_, ?_⟩
        · rw [numbered, behind]
          exact done
        · rw [numbered, behind]
          exact reportEq
    · rintro ⟨index, job, found, done, reportEq⟩
      cases index with
      | zero =>
          rw [Nat.add_zero, atFront] at done reportEq
          have slotEq : slot = some job := found
          refine Or.inl ⟨job.observe id own, ?_, reportEq.symm⟩
          rw [slotEq]
          exact Option.filter_eq_some_iff.mpr ⟨rfl, done⟩
      | succ index =>
          rw [numbered, behind] at done reportEq
          exact Or.inr ⟨index, job, found, done, reportEq⟩
  · rw [List.pairwise_append]
    refine ⟨?_, reaped.ordered, ?_⟩
    · cases (((slot.map (Job.observe id own)).filter Job.isFinished).map (Job.report id)) with
      | none => exact List.Pairwise.nil
      | some report => exact List.pairwise_singleton _ _
    · intro report here other there
      rw [Option.mem_toList, Option.map_eq_some_iff] at here
      obtain ⟨job, _, reportEq⟩ := here
      obtain ⟨index, found, _, _, otherEq⟩ := (reaped.reported other).mp there
      rw [← reportEq, otherEq]
      change id < id + 1 + index
      omega

theorem JobTable.exists_slotsReaped {id : Nat} {slots later : List (Option Job)}
    {finished : List FinishedJob} {events : List (Event System.interface)}
    (leads : (reapSlots id slots).Leads events (finished, later)) :
    ∃ sightings : List Sighting, events = sightings.map Sighting.event ∧
      SlotsReaped id slots sightings finished later := by
  induction slots generalizing id events finished later with
  | nil =>
      obtain ⟨nothing, pairEq⟩ := leads.of_pure
      cases pairEq
      refine ⟨[], nothing, rfl, fun index => rfl, fun report => ?_, List.Pairwise.nil⟩
      simp
  | cons slot rest ih =>
      cases slot with
      | none =>
          obtain ⟨front, ⟨others, left⟩, back, split, reapedRest, returned⟩ :=
            Routine.Leads.of_bind leads
          obtain ⟨nothing, pairEq⟩ := returned.of_pure
          cases pairEq
          obtain ⟨more, eventsEq, reaped⟩ := ih reapedRest
          refine ⟨more, by rw [split, nothing, List.append_nil, eventsEq], ?_⟩
          exact @SlotsReaped.cons id none rest left [] more finished rfl reaped
      | some job =>
          obtain ⟨front, seen, middle, split, polled, leadsRest⟩ := Routine.Leads.of_bind leads
          obtain ⟨behind, ⟨others, left⟩, back, splitRest, reapedRest, returned⟩ :=
            leadsRest.of_bind
          obtain ⟨own, ownEvents, ownMembers, seenEq⟩ := exists_sightings_of_pollJob id polled
          obtain ⟨more, moreEvents, reaped⟩ := ih reapedRest
          have whole := @SlotsReaped.cons id (some job) rest left own more others ownMembers reaped
          rw [Option.map_some, ← seenEq] at whole
          have outcome : back = [] ∧
              (finished, later) = (((((some seen).filter Job.isFinished).map (Job.report id)).toList
                ++ others), (some seen).filter (!·.isFinished) :: left) := by
            dsimp only at returned
            cases done : seen.isFinished with
            | true =>
                rw [done, if_pos rfl] at returned
                obtain ⟨nothing, pairEq⟩ := returned.of_pure
                refine ⟨nothing, ?_⟩
                rw [pairEq]
                simp [Option.filter, done, Job.report]
            | false =>
                rw [done, if_neg Bool.false_ne_true] at returned
                obtain ⟨nothing, pairEq⟩ := returned.of_pure
                refine ⟨nothing, ?_⟩
                rw [pairEq]
                simp [Option.filter, done]
          obtain ⟨nothing, pairEq⟩ := outcome
          cases pairEq
          refine ⟨own ++ more, ?_, whole⟩
          rw [split, splitRest, nothing, ownEvents, moreEvents, List.append_nil, List.map_append]

/-- Every way a reap may go is one of asking after the processes whose statuses are not known. -/
theorem JobTable.exists_reaped {jobs later : JobTable} {finished : List FinishedJob}
    {events : List (Event System.interface)} (leads : jobs.reap.Leads events (finished, later)) :
    ∃ sightings : List Sighting, events = sightings.map Sighting.event ∧
      jobs.Reaped sightings finished later := by
  obtain ⟨front, ⟨others, left⟩, back, split, reapedSlots, returned⟩ := Routine.Leads.of_bind leads
  obtain ⟨nothing, pairEq⟩ := returned.of_pure
  cases pairEq
  obtain ⟨sightings, eventsEq, reaped⟩ := exists_slotsReaped reapedSlots
  have numbered : ∀ index, 1 + index = index + 1 := fun index => Nat.add_comm 1 index
  refine ⟨sightings, by rw [split, nothing, List.append_nil, eventsEq], reaped.members, ?_, ?_,
    reaped.ordered⟩
  · intro id
    cases id with
    | zero => rfl
    | succ index =>
        rw [get?_succ, get?_succ, join_getElem?_trim, reaped.kept index, numbered]
  · intro report
    rw [reaped.reported]
    constructor
    · rintro ⟨index, job, found, done, reportEq⟩
      rw [numbered] at done reportEq
      have same : report.id = index + 1 := by
        rw [reportEq]
        rfl
      rw [same]
      exact ⟨job, found, done, reportEq⟩
    · rintro ⟨job, found, done, reportEq⟩
      cases same : report.id with
      | zero =>
          rw [same] at found
          cases found
      | succ index =>
          rw [same] at found done reportEq
          exact ⟨index, job, found, by rw [numbered]; exact done, by rw [numbered]; exact reportEq⟩

end PipelineShell

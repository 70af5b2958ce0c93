import PipelineShell.Proofs.Jobs.Awaited

/-!
The job table over its whole life. Calls that add jobs and calls that reap are logged with what
they come to; the log alone says which jobs the table holds, what is known of their processes, and
which of them the next reap reports. Nothing is assumed of the replies: every order in which
processes end, and every poll that fails, is some log.
-/

namespace PipelineShell

inductive JobCall where
  | pushed (pids : List Pid) (description : String) (id : Nat)
  | reaped (sightings : List Sighting) (finished : List FinishedJob)

namespace JobCall

def sightings : JobCall → List Sighting
  | .pushed _ _ _ => []
  | .reaped sightings _ => sightings

def pids : JobCall → List Pid
  | .pushed pids _ _ => pids
  | .reaped _ _ => []

def Returns (id : Nat) : JobCall → Prop
  | .pushed _ _ _ => False
  | .reaped _ finished => ∃ report ∈ finished, report.id = id

/-- The call gives the number to a job or takes it from one. -/
def Settles (id : Nat) : JobCall → Prop
  | .pushed _ _ other => other = id
  | .reaped _ finished => ∃ report ∈ finished, report.id = id

/-- The calls push a job under the number, and behind the push there are the calls `since`, of
which none is of the excluded kind. -/
def PushedBefore (excluded : JobCall → Prop) (calls : List JobCall) (id : Nat) (pids : List Pid)
    (description : String) (since : List JobCall) : Prop :=
  ∃ before, calls = before ++ .pushed pids description id :: since ∧
    ∀ call ∈ since, ¬ excluded call

abbrev Pending (calls : List JobCall) (id : Nat) (pids : List Pid) (description : String)
    (since : List JobCall) : Prop :=
  PushedBefore (Returns id) calls id pids description since

abbrev Latest (calls : List JobCall) (id : Nat) (pids : List Pid) (description : String)
    (since : List JobCall) : Prop :=
  PushedBefore (Settles id) calls id pids description since

theorem Returns.settles {id : Nat} {call : JobCall} (returns : call.Returns id) :
    call.Settles id := by
  cases call with
  | pushed pids description other => exact returns.elim
  | reaped sightings finished => exact returns

variable {calls since : List JobCall} {call : JobCall} {id : Nat} {pids : List Pid}
  {description : String}

theorem Latest.pending (latest : Latest calls id pids description since) :
    Pending calls id pids description since := by
  obtain ⟨before, callsEq, unsettled⟩ := latest
  exact ⟨before, callsEq, fun call member returns => unsettled call member returns.settles⟩

private theorem not_pushedBefore_nil {excluded : JobCall → Prop} :
    ¬ PushedBefore excluded [] id pids description since := by
  rintro ⟨before, callsEq, _⟩
  cases before <;> cases callsEq

private theorem pushedBefore_snoc {excluded : JobCall → Prop} :
    PushedBefore excluded (calls ++ [call]) id pids description since ↔
      (since = [] ∧ call = .pushed pids description id) ∨
      ∃ earlier, since = earlier ++ [call] ∧ ¬ excluded call ∧
        PushedBefore excluded calls id pids description earlier := by
  constructor
  · rintro ⟨before, callsEq, allowed⟩
    rcases List.eq_nil_or_concat since with sinceEq | ⟨earlier, last, sinceEq⟩
    · rw [sinceEq] at callsEq
      obtain ⟨_, lastEq⟩ := List.append_inj' callsEq rfl
      exact Or.inl ⟨sinceEq, (List.cons.inj lastEq).1⟩
    · rw [List.concat_eq_append] at sinceEq
      rw [sinceEq, ← List.cons_append, ← List.append_assoc] at callsEq
      obtain ⟨frontEq, lastEq⟩ := List.append_inj' callsEq rfl
      obtain ⟨callEq, _⟩ := List.cons.inj lastEq
      rw [sinceEq] at allowed
      refine Or.inr ⟨earlier, by rw [sinceEq, callEq], ?_, before, frontEq, ?_⟩
      · rw [callEq]
        exact allowed last (List.mem_append_right _ List.mem_cons_self)
      · intro other member
        exact allowed other (List.mem_append_left _ member)
  · rintro (⟨sinceEq, callEq⟩ | ⟨earlier, sinceEq, allowed, before, callsEq, others⟩)
    · rw [sinceEq, callEq]
      exact ⟨calls, rfl, fun other member => nomatch member⟩
    · rw [sinceEq]
      refine ⟨before, by rw [callsEq, List.append_assoc, List.cons_append], ?_⟩
      intro other member
      rcases List.mem_append.mp member with inside | isLast
      · exact others other inside
      · rw [List.mem_singleton.mp isLast]
        exact allowed

end JobCall

namespace JobTable

/-- A call on a table, and the table it leaves. The processes that a reap asks after are told by
the table, their replies by the world. -/
inductive Makes : JobTable → JobCall → JobTable → Prop where
  | push {jobs later : JobTable} {pids : List Pid} {description : String} {id : Nat}
      (added : jobs.push? pids description = some (id, later)) :
      Makes jobs (.pushed pids description id) later
  | reap {jobs later : JobTable} {sightings : List Sighting} {finished : List FinishedJob}
      (leads : jobs.reap.Leads (sightings.map Sighting.event) (finished, later))
      (members : sightings.map Sighting.toJobMember = jobs.awaited) :
      Makes jobs (.reaped sightings finished) later

inductive MakesAll : JobTable → List JobCall → JobTable → Prop where
  | nothing (jobs : JobTable) : MakesAll jobs [] jobs
  | further {jobs middle later : JobTable} {calls : List JobCall} {call : JobCall}
      (earlier : MakesAll jobs calls middle) (made : Makes middle call later) :
      MakesAll jobs (calls ++ [call]) later

/-! ### One call -/

theorem Makes.reaped {jobs later : JobTable} {sightings : List Sighting}
    {finished : List FinishedJob} (made : jobs.Makes (.reaped sightings finished) later) :
    jobs.Reaped sightings finished later := by
  cases made with
  | reap leads members =>
      obtain ⟨others, eventsEq, reaped⟩ := exists_reaped leads
      rw [Sighting.eq_of_events_of_members eventsEq (members.trans reaped.members.symm)]
      exact reaped

theorem exists_makes_of_reap {jobs later : JobTable} {finished : List FinishedJob}
    {events : List (Event System.interface)} (leads : jobs.reap.Leads events (finished, later)) :
    ∃ sightings : List Sighting, events = sightings.map Sighting.event ∧
      jobs.Makes (.reaped sightings finished) later := by
  obtain ⟨sightings, eventsEq, reaped⟩ := exists_reaped leads
  rw [eventsEq] at leads
  exact ⟨sightings, eventsEq, .reap leads reaped.members⟩

end JobTable

/-! ### A job by its sightings -/

namespace Job

theorem observe_append (id : Nat) (sightings more : List Sighting) (job : Job) :
    job.observe id (sightings ++ more) = (job.observe id sightings).observe id more := by
  rw [observe, observe, observe, List.mapIdx_mapIdx]
  simp only [Sighting.known_append, Function.comp_def, JobProcess.observe, Option.or_assoc]

theorem observe_nil (id : Nat) (job : Job) : job.observe id [] = job := by
  have same : (job.processes.mapIdx fun place process =>
      process.observe (Sighting.known [] id place)) = job.processes := by
    apply List.ext_getElem?
    intro place
    rw [List.getElem?_mapIdx]
    cases job.processes[place]? with
    | none => rfl
    | some process => exact congrArg some (congrArg (JobProcess.mk _) Option.or_none)
  rw [observe, same]

variable {pids : List Pid} {description : String} {id : Nat} {sightings : List Sighting}

theorem processes_observe_ofPids :
    ((ofPids pids description).observe id sightings).processes
      = pids.mapIdx fun place pid => ⟨pid, Sighting.known sightings id place⟩ := by
  apply List.ext_getElem?
  intro place
  rw [observe, ofPids, List.getElem?_mapIdx, List.getElem?_mapIdx, List.getElem?_map,
    Option.map_map]
  rfl

private theorem isFinished_observe_ofPids :
    ((ofPids pids description).observe id sightings).isFinished ↔
      ∀ place < pids.length, (Sighting.known sightings id place).isSome := by
  rw [isFinished, processes_observe_ofPids, List.all_eq_true]
  constructor
  · intro every place inside
    exact every _ (List.mem_mapIdx.mpr ⟨place, inside, rfl⟩)
  · intro every process member
    obtain ⟨place, inside, processEq⟩ := List.mem_mapIdx.mp member
    rw [← processEq]
    exact every place inside

private theorem finalPid?_observe_ofPids :
    ((ofPids pids description).observe id sightings).finalPid? = pids.getLast? := by
  rw [finalPid?, processes_observe_ofPids, List.getLast?_mapIdx, Option.map_map]
  exact Option.map_id'

private theorem status_observe_ofPids (nonempty : pids ≠ []) :
    ((ofPids pids description).observe id sightings).status
      = (Sighting.known sightings id (pids.length - 1)).getD 0 := by
  rw [status, processes_observe_ofPids, List.getLast?_mapIdx,
    List.getLast?_eq_some_getLast nonempty]
  rfl

end Job

namespace JobTable

/-! ### The log and the table -/

/-- The table holds the jobs that the log tells of, with what their sightings have made known. -/
def IsTold (calls : List JobCall) (jobs : JobTable) : Prop :=
  ∀ id job, jobs.get? id = some job ↔ ∃ pids description since,
    JobCall.Latest calls id pids description since ∧
      job = (Job.ofPids pids description).observe id (since.flatMap JobCall.sightings)

private theorem isTold_empty : IsTold [] .empty := by
  intro id job
  rw [get?_empty]
  constructor
  · intro impossible
    cases impossible
  · rintro ⟨pids, description, since, latest, _⟩
    exact (JobCall.not_pushedBefore_nil latest).elim

theorem IsTold.push {calls : List JobCall} {jobs later : JobTable} (told : IsTold calls jobs)
    {pids : List Pid} {description : String} {id : Nat}
    (inserted : jobs.insert pids description = (id, later)) :
    IsTold (calls ++ [.pushed pids description id]) later := by
  intro other job
  have found := get?_insert jobs pids description other
  rw [inserted] at found
  dsimp only at found
  rw [found]
  simp only [JobCall.pushedBefore_snoc]
  constructor
  · intro given
    split at given
    · rename_i same
      cases given
      refine ⟨pids, description, [], Or.inl ⟨rfl, by rw [same]⟩, ?_⟩
      exact (Job.observe_nil other _).symm
    · rename_i different
      obtain ⟨others, text, since, latest, jobEq⟩ := (told other job).mp given
      refine ⟨others, text, since ++ [.pushed pids description id],
        Or.inr ⟨since, rfl, fun same => different same.symm, latest⟩, ?_⟩
      rw [jobEq, List.flatMap_append]
      simp [JobCall.sightings]
  · rintro ⟨others, text, since, ⟨sinceEq, callEq⟩ | ⟨before, sinceEq, unsettled, latest⟩, jobEq⟩
    · cases callEq
      rw [if_pos rfl, jobEq, sinceEq]
      exact congrArg some (Job.observe_nil _ _).symm
    · rw [if_neg fun same => unsettled same.symm]
      refine (told other job).mpr ⟨others, text, before, latest, ?_⟩
      rw [jobEq, sinceEq, List.flatMap_append]
      simp [JobCall.sightings]

theorem IsTold.reap {calls : List JobCall} {jobs later : JobTable} (told : IsTold calls jobs)
    {sightings : List Sighting} {finished : List FinishedJob}
    (reaped : jobs.Reaped sightings finished later) :
    IsTold (calls ++ [.reaped sightings finished]) later := by
  intro id job
  rw [reaped.get?_eq_some_iff]
  simp only [JobCall.pushedBefore_snoc]
  constructor
  · rintro ⟨unreported, given, found, seen⟩
    obtain ⟨pids, description, since, latest, givenEq⟩ := (told id given).mp found
    refine ⟨pids, description, since ++ [.reaped sightings finished],
      Or.inr ⟨since, rfl, unreported, latest⟩, ?_⟩
    rw [seen, givenEq, List.flatMap_append, Job.observe_append]
    simp [JobCall.sightings]
  · rintro ⟨pids, description, since, ⟨_, impossible⟩ | ⟨before, sinceEq, unsettled, latest⟩, jobEq⟩
    · cases impossible
    · refine ⟨unsettled, _, (told id _).mpr ⟨pids, description, before, latest, rfl⟩, ?_⟩
      rw [jobEq, sinceEq, List.flatMap_append, Job.observe_append]
      simp [JobCall.sightings]

theorem MakesAll.isTold {calls : List JobCall} {jobs : JobTable}
    (made : MakesAll .empty calls jobs) : IsTold calls jobs := by
  induction made with
  | nothing => exact isTold_empty
  | further earlier made told =>
      cases made with
      | push added => exact told.push (push?_eq_some_iff.mp added).2
      | reap leads members => exact told.reap (Makes.reap leads members).reaped

/-- A job that has not been reported keeps its number to itself. -/
theorem MakesAll.latest {calls since : List JobCall} {jobs : JobTable}
    (made : MakesAll .empty calls jobs) {id : Nat} {pids : List Pid} {description : String}
    (pending : JobCall.Pending calls id pids description since) :
    JobCall.Latest calls id pids description since := by
  induction made generalizing since with
  | nothing => exact (JobCall.not_pushedBefore_nil pending).elim
  | @further middle later calls call earlier made ih =>
      rw [JobCall.Latest, JobCall.pushedBefore_snoc]
      rcases JobCall.pushedBefore_snoc.mp pending with
        isPush | ⟨before, sinceEq, unreported, pendingBefore⟩
      · exact Or.inl isPush
      · refine Or.inr ⟨before, sinceEq, ?_, ih pendingBefore⟩
        cases made with
        | reap leads members => exact unreported
        | @push _ others text number added =>
            intro same
            change number = id at same
            -- The number would be one that is in use.
            have held := (earlier.isTold id _).mpr ⟨_, _, _, ih pendingBefore, rfl⟩
            exact ne_of_push? added held same.symm

theorem MakesAll.nonempty {calls since : List JobCall} {jobs : JobTable}
    (made : MakesAll .empty calls jobs) {id : Nat} {pids : List Pid} {description : String}
    (pending : JobCall.Pending calls id pids description since) : pids ≠ [] := by
  induction made generalizing since with
  | nothing => exact (JobCall.not_pushedBefore_nil pending).elim
  | @further middle later calls call earlier made ih =>
      rcases JobCall.pushedBefore_snoc.mp pending with
        ⟨_, callEq⟩ | ⟨before, _, _, pendingBefore⟩
      · rw [callEq] at made
        cases made with
        | push added => exact (push?_eq_some_iff.mp added).1
      · exact ih pendingBefore

/-! ### What the next reap does -/

section NextReap

variable {calls since : List JobCall} {jobs later : JobTable} {id : Nat} {pids : List Pid}
  {description : String} {sightings : List Sighting} {finished : List FinishedJob}

/-- The sightings of a pending job up to a reap, its own included. -/
def sightingsUntil (since : List JobCall) (sightings : List Sighting) : List Sighting :=
  since.flatMap JobCall.sightings ++ sightings

theorem MakesAll.get?_of_pending (made : MakesAll .empty calls jobs)
    (pending : JobCall.Pending calls id pids description since) :
    jobs.get? id
      = some ((Job.ofPids pids description).observe id (since.flatMap JobCall.sightings)) :=
  (made.isTold id _).mpr ⟨_, _, _, made.latest pending, rfl⟩

theorem Reaped.mem_finished_iff {before : List Sighting}
    (held : jobs.get? id = some ((Job.ofPids pids description).observe id before))
    (nonempty : pids ≠ []) (reaped : jobs.Reaped sightings finished later) {report : FinishedJob}
    (same : report.id = id) :
    report ∈ finished ↔
      (∀ place < pids.length, (Sighting.known (before ++ sightings) id place).isSome) ∧
      report.description = description ∧
      Sighting.known (before ++ sightings) id (pids.length - 1) = some report.status := by
  rw [reaped.reported, same]
  constructor
  · rintro ⟨job, found, done, reportEq⟩
    rw [held] at found
    cases found
    rw [← Job.observe_append] at done reportEq
    have known := Job.isFinished_observe_ofPids.mp done
    refine ⟨known, by rw [reportEq]; rfl, ?_⟩
    obtain ⟨status, statusEq⟩ := Option.isSome_iff_exists.mp
      (known (pids.length - 1) (Nat.sub_lt (List.length_pos_iff.mpr nonempty) Nat.one_pos))
    rw [reportEq, Job.report, Job.status_observe_ofPids nonempty, statusEq]
    rfl
  · rintro ⟨known, textEq, statusEq⟩
    refine ⟨_, held, ?_, ?_⟩
    · rw [← Job.observe_append]
      exact Job.isFinished_observe_ofPids.mpr known
    · obtain ⟨number, text, status⟩ := report
      cases same
      cases textEq
      rw [← Job.observe_append, Job.report, Job.status_observe_ofPids nonempty, statusEq]
      rfl

theorem Reaped.exists_report_iff {before : List Sighting}
    (held : jobs.get? id = some ((Job.ofPids pids description).observe id before))
    (nonempty : pids ≠ []) (reaped : jobs.Reaped sightings finished later) :
    (∃ report ∈ finished, report.id = id) ↔ ∀ place < pids.length,
      ∃ sighting ∈ before ++ sightings, sighting.IsOf id place ∧ sighting.status?.isSome := by
  simp only [← Sighting.isSome_known_iff]
  constructor
  · rintro ⟨report, member, same⟩
    exact ((reaped.mem_finished_iff held nonempty same).mp member).1
  · intro ended
    have lastPlace : pids.length - 1 < pids.length :=
      Nat.sub_lt (List.length_pos_iff.mpr nonempty) Nat.one_pos
    obtain ⟨status, statusEq⟩ := Option.isSome_iff_exists.mp (ended _ lastPlace)
    exact ⟨⟨id, description, status⟩,
      (reaped.mem_finished_iff held nonempty rfl).mpr ⟨ended, rfl, statusEq⟩, rfl⟩

theorem MakesAll.mem_finished_iff (made : MakesAll .empty calls jobs)
    (pending : JobCall.Pending calls id pids description since)
    (reaped : jobs.Reaped sightings finished later) {report : FinishedJob}
    (same : report.id = id) :
    report ∈ finished ↔
      (∀ place < pids.length, (Sighting.known (sightingsUntil since sightings) id place).isSome) ∧
      report.description = description ∧
      Sighting.known (sightingsUntil since sightings) id (pids.length - 1)
        = some report.status :=
  reaped.mem_finished_iff (made.get?_of_pending pending) (made.nonempty pending) same

theorem MakesAll.exists_report_iff (made : MakesAll .empty calls jobs)
    (pending : JobCall.Pending calls id pids description since)
    (reaped : jobs.Reaped sightings finished later) :
    (∃ report ∈ finished, report.id = id) ↔ ∀ place < pids.length,
      ∃ sighting ∈ sightingsUntil since sightings,
        sighting.IsOf id place ∧ sighting.status?.isSome :=
  reaped.exists_report_iff (made.get?_of_pending pending) (made.nonempty pending)

/-- A process that is awaited is one of a pending job, and no sighting so far has found it ended. -/
theorem MakesAll.exists_pending_of_awaited (made : MakesAll .empty calls jobs)
    {member : JobMember} (awaited : member ∈ jobs.awaited) :
    ∃ pids description since, JobCall.Pending calls member.id pids description since ∧
      pids[member.place]? = some member.pid ∧
      ∀ earlier ∈ since.flatMap JobCall.sightings,
        earlier.IsOf member.id member.place → earlier.status? = none := by
  obtain ⟨job, found, unknown⟩ := mem_awaited.mp awaited
  obtain ⟨pids, description, since, latest, jobEq⟩ := (made.isTold _ _).mp found
  rw [jobEq, Job.processes_observe_ofPids, List.getElem?_mapIdx] at unknown
  obtain ⟨pid, inside, processEq⟩ := Option.map_eq_some_iff.mp unknown
  obtain ⟨pidEq, knownNone⟩ := JobProcess.mk.inj processEq
  refine ⟨pids, description, since, latest.pending, ?_, Sighting.known_eq_none_iff.mp knownNone⟩
  rw [inside, pidEq]

end NextReap

/-! ### Processes by their numbers -/

/-- A number that is not awaited is not asked after, and stays so unless it is pushed. -/
theorem Makes.unasked {jobs later : JobTable} {call : JobCall} (made : jobs.Makes call later)
    {pid : Pid} (unpushed : pid ∉ call.pids) (absent : pid ∉ jobs.awaitedPids) :
    (∀ sighting ∈ call.sightings, sighting.pid ≠ pid) ∧ pid ∉ later.awaitedPids := by
  cases made with
  | @push _ pids description id added =>
      refine ⟨fun sighting member => (List.not_mem_nil member).elim, ?_⟩
      have inserted := jobs.awaitedPids_insert pids description
      rw [(push?_eq_some_iff.mp added).2] at inserted
      rw [inserted.mem_iff, List.mem_append, not_or]
      exact ⟨unpushed, absent⟩
  | reap leads members =>
      have reaped := (Makes.reap leads members).reaped
      refine ⟨fun sighting member same => absent ?_, fun awaited => ?_⟩
      · exact List.mem_map.mpr ⟨_, reaped.mem_awaited_of_mem member, same⟩
      · obtain ⟨member, remains, same⟩ := List.mem_map.mp awaited
        exact absent (List.mem_map.mpr ⟨member, (reaped.mem_awaited_iff.mp remains).1, same⟩)

theorem MakesAll.unasked {jobs last : JobTable} {calls : List JobCall}
    (made : jobs.MakesAll calls last) {pid : Pid} (unpushed : ∀ call ∈ calls, pid ∉ call.pids)
    (absent : pid ∉ jobs.awaitedPids) :
    (∀ call ∈ calls, ∀ sighting ∈ call.sightings, sighting.pid ≠ pid) ∧
      pid ∉ last.awaitedPids := by
  induction made with
  | nothing => exact ⟨fun call member => (List.not_mem_nil member).elim, absent⟩
  | @further middle later calls call earlier made ih =>
      obtain ⟨before, absentBefore⟩ :=
        ih fun other member => unpushed other (List.mem_append_left _ member)
      obtain ⟨here, absentHere⟩ :=
        made.unasked (unpushed call (List.mem_append_right _ List.mem_cons_self)) absentBefore
      refine ⟨fun other member => ?_, absentHere⟩
      rcases List.mem_append.mp member with inside | isLast
      · exact before other inside
      · rw [List.mem_singleton.mp isLast]
        exact here

/-! ### Reports -/

/-- Over the whole life of a job table, whatever its processes reply and whenever they end. A job
that has been pushed and not reported is found under its number, with its last process; the next
reap reports it just if each of its processes has been found ended by then, and then under its
number, with its description and the status that was found of its last process. Reports are of such
jobs only, in the order of their numbers. A reap asks once after each process of such a job that
has not been found ended, and after nothing else; if no two awaited processes have one number, then
a number under which a status has been found is not asked after again before it is pushed again. -/
theorem reports_follow_calls {calls : List JobCall} {jobs : JobTable}
    (made : MakesAll .empty calls jobs) :
    (∀ id pids description since, JobCall.Pending calls id pids description since →
      (∃ job, jobs.get? id = some job ∧ job.finalPid? = pids.getLast? ∧
        job.description = description) ∧
      ∀ sightings finished later, jobs.Makes (.reaped sightings finished) later →
        ((∃ report ∈ finished, report.id = id) ↔ ∀ place < pids.length,
          ∃ sighting ∈ sightingsUntil since sightings,
            sighting.IsOf id place ∧ sighting.status?.isSome) ∧
        ∀ report ∈ finished, report.id = id →
          report.description = description ∧
          ∃ sighting ∈ sightingsUntil since sightings, sighting.IsOf id (pids.length - 1) ∧
            sighting.status? = some report.status) ∧
    (∀ sightings finished later, jobs.Makes (.reaped sightings finished) later →
      (finished.Pairwise fun report other => report.id < other.id) ∧
      (∀ report ∈ finished, later.get? report.id = none ∧ ∃ pids description since,
        JobCall.Pending calls report.id pids description since) ∧
      (sightings.map Sighting.toJobMember).Nodup ∧
      (∀ sighting ∈ sightings, ∃ pids description since,
        JobCall.Pending calls sighting.id pids description since ∧
        pids[sighting.place]? = some sighting.pid ∧
        ∀ earlier ∈ since.flatMap JobCall.sightings,
          earlier.IsOf sighting.id sighting.place → earlier.status? = none) ∧
      ((jobs.awaited.map JobMember.pid).Nodup → ∀ sighting ∈ sightings, sighting.status?.isSome →
        ∀ more last, later.MakesAll more last → (∀ call ∈ more, sighting.pid ∉ call.pids) →
          ∀ call ∈ more, ∀ other ∈ call.sightings, other.pid ≠ sighting.pid)) ∧
    ∀ events finished later, jobs.reap.Leads events (finished, later) →
      ∃ sightings : List Sighting, events = sightings.map Sighting.event ∧
        jobs.Makes (.reaped sightings finished) later := by
  refine ⟨fun id pids description since pending => ⟨?_, ?_⟩, ?_, ?_⟩
  · have held := made.get?_of_pending pending
    exact ⟨_, held, Job.finalPid?_observe_ofPids, rfl⟩
  · intro sightings finished later reaping
    refine ⟨made.exists_report_iff pending reaping.reaped, fun report member same => ?_⟩
    obtain ⟨_, textEq, statusEq⟩ := (made.mem_finished_iff pending reaping.reaped same).mp member
    exact ⟨textEq, Sighting.exists_of_known statusEq⟩
  · intro sightings finished later reaping
    have reaped := reaping.reaped
    refine ⟨reaped.ordered, fun report member => ?_, ?_, fun sighting member => ?_, ?_⟩
    · obtain ⟨job, found, _⟩ := (reaped.reported report).mp member
      obtain ⟨pids, description, since, latest, _⟩ := (made.isTold _ _).mp found
      exact ⟨reaped.get?_of_mem member, pids, description, since, latest.pending⟩
    · rw [reaped.members]
      exact nodup_awaitedFrom 1 jobs.slots
    · exact made.exists_pending_of_awaited (reaped.mem_awaited_of_mem member)
    · intro distinct sighting member ended more last further unpushed
      refine (further.unasked unpushed fun remains => ?_).1
      rw [((reaped.mem_awaitedPids_iff distinct).mp remains).2 sighting member rfl] at ended
      cases ended
  · intro events finished later leads
    exact exists_makes_of_reap leads

/-- The job `a | b`, of which the last process is found ended first. -/
theorem reports_follow_calls_of_last_ended_first :
    let first : Sighting := ⟨⟨1, 1, ⟨8⟩⟩, .ok (some (.exited 5))⟩
    let second : Sighting := ⟨⟨1, 0, ⟨7⟩⟩, .ok (some (.exited 0))⟩
    let reaping : JobCall := .reaped [⟨⟨1, 0, ⟨7⟩⟩, .ok none⟩, first] []
    let jobs : JobTable := ⟨[some ⟨[⟨⟨7⟩, none⟩, ⟨⟨8⟩, some 5⟩], "a | b"⟩]⟩
    MakesAll .empty [.pushed [⟨7⟩, ⟨8⟩] "a | b" 1, reaping] jobs ∧
      jobs.Makes (.reaped [second] [⟨1, "a | b", 5⟩]) .empty ∧
      ∃ sighting ∈ sightingsUntil [reaping] [second],
        sighting.IsOf 1 1 ∧ sighting.status? = some 5 := by
  intro first second reaping jobs
  have added : MakesAll .empty ([] ++ [.pushed [⟨7⟩, ⟨8⟩] "a | b" 1])
      ⟨[some (.ofPids [⟨7⟩, ⟨8⟩] "a | b")]⟩ :=
    .further (.nothing _) (.push rfl)
  have asked : MakesAll .empty ([] ++ [.pushed [⟨7⟩, ⟨8⟩] "a | b" 1] ++ [reaping]) jobs :=
    .further added (.reap (.ask _ (.ask _ (.finished _))) rfl)
  have reported : jobs.Makes (.reaped [second] [⟨1, "a | b", 5⟩]) .empty :=
    .reap (.ask _ (.finished _)) rfl
  have pending : JobCall.Pending ([] ++ [.pushed [⟨7⟩, ⟨8⟩] "a | b" 1] ++ [reaping]) 1
      [⟨7⟩, ⟨8⟩] "a | b" [reaping] := by
    refine ⟨[], rfl, fun call member returns => ?_⟩
    rw [List.mem_singleton.mp member] at returns
    obtain ⟨report, impossible, _⟩ := returns
    cases impossible
  refine ⟨asked, reported, ?_⟩
  have report := ((reports_follow_calls asked).1 1 _ _ _ pending).2 _ _ _ reported
  exact (report.2 _ List.mem_cons_self rfl).2

end JobTable

end PipelineShell

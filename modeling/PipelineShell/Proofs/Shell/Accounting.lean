import PipelineShell.Proofs.Jobs.Awaited
import PipelineShell.Proofs.Shell.Builtins
import PipelineShell.Proofs.Shell.Custody
import PipelineShell.Proofs.Shell.Outcome

/-!
The account of children. Between lines, the children in custody are exactly the processes that the
job table awaits: a line in the foreground leaves none of its own, a line in the background hands
its own to the table, and a reap collects just those that it finds ended.
-/

namespace PipelineShell

namespace Custody

open Monitor Routine

/-! ### Reaping -/

private theorem nodup_after {spared children : List Pid} {event : Event System.interface}
    (single : children.Nodup) (possible : (custody spared).Allows children event) :
    ((custody spared).after children event).Nodup := by
  change (event.custody?.elim children (CustodyEvent.after children)).Nodup
  change event.custody?.elim True (CustodyEvent.IsPossible children) at possible
  cases meaning : event.custody? with
  | none => exact single
  | some change =>
      rw [meaning] at possible
      cases change with
      | started pid => exact List.nodup_cons.mpr ⟨possible, single⟩
      | asked pid reply =>
          cases reply with
          | unknown => exact single
          | running => exact single
          | ended => exact single.erase pid

private theorem along_nodup {spared children : List Pid} {events : List (Event System.interface)}
    (single : children.Nodup)
    (allowed : (custody spared).Along (custody spared).Allows children events) :
    ((custody spared).afterAll children events).Nodup :=
  Along.invariant (custody spared) (fun _ _ => nodup_after) single allowed

private theorem demands_of_sighting {sighting : Sighting} {children : List Pid}
    (single : children.Nodup)
    (inside : sighting.pid ∈ children)
    (possible : (custody []).Allows children sighting.event) :
    (custody []).Demands children sighting.event ∧
      ∀ pid, pid ∈ (custody []).after children sighting.event ↔
        pid ∈ children ∧ (sighting.pid = pid → sighting.status? = none) := by
  obtain ⟨⟨id, place, pid⟩, reply⟩ := sighting
  cases reply with
  | error errno => exact (possible inside).elim
  | ok found =>
      refine ⟨?_, fun other => ?_⟩
      · cases found <;> exact ⟨inside, List.not_mem_nil⟩
      · cases found with
        | none => exact ⟨fun remains => ⟨remains, fun _ => rfl⟩, And.left⟩
        | some death =>
            refine (single.mem_erase_iff).trans (and_comm.trans (and_congr_right fun _ => ?_))
            exact ⟨fun different same => (different same.symm).elim,
              fun running same => Option.some_ne_none _ (running same.symm)⟩

private theorem along_sightings {sightings : List Sighting} {children : List Pid}
    (single : children.Nodup) (distinct : (sightings.map fun sighting => sighting.pid).Nodup)
    (inside : ∀ sighting ∈ sightings, sighting.pid ∈ children)
    (allowed : (custody []).Along (custody []).Allows children (sightings.map Sighting.event)) :
    (custody []).Along (custody []).Demands children (sightings.map Sighting.event) ∧
      ∀ pid, pid ∈ (custody []).afterAll children (sightings.map Sighting.event) ↔
        pid ∈ children ∧ ∀ sighting ∈ sightings, sighting.pid = pid → sighting.status? = none := by
  induction sightings generalizing children with
  | nil => exact ⟨trivial, fun pid => ⟨fun member => ⟨member, List.forall_mem_nil _⟩, And.left⟩⟩
  | cons sighting rest ih =>
      obtain ⟨fresh, others⟩ := List.nodup_cons.mp distinct
      obtain ⟨here, behind⟩ := List.forall_mem_cons.mp inside
      obtain ⟨possible, allowedRest⟩ := allowed
      obtain ⟨proper, stays⟩ := demands_of_sighting single here possible
      -- The sightings that follow are of other children, which are still in custody.
      have insideRest : ∀ other ∈ rest,
          other.pid ∈ (custody []).after children sighting.event := by
        intro other member
        refine (stays other.pid).mpr ⟨behind other member, fun same => ?_⟩
        exact (fresh (List.mem_map.mpr ⟨other, member, same.symm⟩)).elim
      obtain ⟨properRest, left⟩ := ih (nodup_after single possible) others insideRest allowedRest
      refine ⟨⟨proper, properRest⟩, fun pid => (left pid).trans ?_⟩
      rw [stays, and_assoc, List.forall_mem_cons]

private theorem triple_reap (jobs : JobTable) :
    (custody []).Triple (fun children => children.Perm jobs.awaitedPids ∧ children.Nodup)
      jobs.reap fun result children => children.Perm result.2.awaitedPids := by
  rintro children events ⟨finished, later⟩ ⟨holds, single⟩ leads allowed
  obtain ⟨sightings, eventsEq, reaped⟩ := JobTable.exists_reaped leads
  have distinct : jobs.awaitedPids.Nodup := holds.nodup_iff.mp single
  have pidsEq : (sightings.map fun sighting => sighting.pid) = jobs.awaitedPids := by
    rw [JobTable.awaitedPids, ← reaped.members, List.map_map]
    rfl
  rw [eventsEq] at allowed ⊢
  have inside : ∀ sighting ∈ sightings, sighting.pid ∈ children := fun sighting member =>
    holds.mem_iff.mpr (List.mem_map_of_mem (reaped.mem_awaited_of_mem member))
  obtain ⟨proper, remains⟩ :=
    along_sightings single (by rw [pidsEq]; exact distinct) inside allowed
  refine ⟨proper, ?_⟩
  have singleLater := along_nodup single allowed
  refine (List.perm_ext_iff_of_nodup singleLater (reaped.nodup_awaitedPids distinct)).mpr ?_
  intro pid
  rw [remains, reaped.mem_awaitedPids_iff distinct, holds.mem_iff]

/-! ### Running a line -/

private theorem custody?_of_isOwn (event : Event System.interface) (own : event.request.IsOwn) :
    event.custody? = none := by
  obtain ⟨request, reply⟩ := event
  cases own <;> rfl

private theorem jobs_of_builtin {builtin : Shell.Builtin} {shell : Shell} {arguments : List String}
    {events : List (Event System.interface)} {result : Int × Shell}
    (leads : (builtin.run shell arguments).Leads events result) :
    result.2.jobs = shell.jobs := by
  rw [Shell.gives_builtin builtin shell arguments events result leads]
  cases builtin with
  | changeDirectory => rfl
  | exit => rfl

/-- The children that a line leaves in custody are those that the table awaits from now on. A line
in the foreground leaves none. -/
def Enters (shell : Shell) (line : CommandLine) (kept : List Pid) (later : Shell)
    (children : List Pid) : Prop :=
  ∃ pids, children.Perm (pids ++ kept) ∧
    later.jobs.awaitedPids.Perm (pids ++ shell.jobs.awaitedPids) ∧
    (line.background = false → pids = [])

private theorem enters_nothing {shell later : Shell} {line : CommandLine} {kept children : List Pid}
    (holds : children.Perm kept) (same : later.jobs = shell.jobs) :
    Enters shell line kept later children :=
  ⟨[], holds, by rw [same]; exact List.Perm.refl _, fun _ => rfl⟩

private theorem triple_run (shell : Shell) (line : CommandLine) (kept : List Pid) :
    (custody kept).Triple (fun children => children.Perm kept) (shell.run line)
      fun result => Enters shell line kept result.2 := by
  cases isBuiltin : Shell.builtin? line with
  | some own =>
      obtain ⟨builtin, arguments⟩ := own
      rw [Shell.run_of_builtin isBuiltin]
      have silent : (custody kept).Triple (fun children => children.Perm kept)
          (builtin.run shell arguments) fun _ children => children.Perm kept :=
        triple_of_never (Shell.Builtin.never_run custody?_of_isOwn builtin shell arguments)
      apply (silent.with_value fun _ _ leads => jobs_of_builtin leads).bind
      intro result
      exact triple_pure fun children holds => enters_nothing holds.1 holds.2
  | none =>
      cases plan : line.plan with
      | error fault =>
          rw [Shell.run_of_unplanned isBuiltin plan]
          exact triple_pure fun children holds => enters_nothing holds rfl
      | ok stages =>
          cases background : line.background with
          | true =>
              rw [Shell.run_of_background plan isBuiltin background]
              apply (triple_startBackground stages line.output kept).bind
              intro outcome
              cases outcome with
              | error fault => exact triple_pure fun children holds => enters_nothing holds rfl
              | ok pids =>
                  refine triple_pure fun children holds =>
                    ⟨pids, holds.1, JobTable.awaitedPids_insert shell.jobs pids line.render,
                      fun foreground => ?_⟩
                  rw [background] at foreground
                  cases foreground
          | false =>
              rw [Shell.run_of_plan plan isBuiltin background]
              apply (triple_runGated line.output 0 stages kept).bind
              intro outcome
              cases outcome <;> exact triple_pure fun children holds => enters_nothing holds rfl

private theorem demands_of_spared (children : List Pid) (event : Event System.interface)
    (proper : (custody spared).Demands children event) : (custody []).Demands children event := by
  change event.custody?.elim True (CustodyEvent.IsProper spared children) at proper
  change event.custody?.elim True (CustodyEvent.IsProper [] children)
  cases meaning : event.custody? with
  | none => trivial
  | some change =>
      rw [meaning] at proper
      cases change with
      | started pid => trivial
      | asked pid reply => exact ⟨proper.1, List.not_mem_nil⟩

end Custody

namespace Shell

open Monitor Custody

/-- What may have happened to a shell since it was new: it has run lines and reaped, in any order
and with whatever replies. -/
inductive History : List (Event System.interface) → Shell → Prop where
  | new : History [] .new
  | run {shell later : Shell} {events more : List (Event System.interface)} {line : CommandLine}
      {outcome : Except RunFault Completion} (earlier : History events shell)
      (leads : (shell.run line).Leads more (outcome, later)) : History (events ++ more) later
  | reap {shell : Shell} {events more : List (Event System.interface)}
      {finished : List FinishedJob} {jobs : JobTable} (earlier : History events shell)
      (leads : shell.jobs.reap.Leads more (finished, jobs)) :
      History (events ++ more) { shell with jobs }

theorem History.account {shell : Shell} {events : List (Event System.interface)}
    (history : History events shell)
    (allowed : (custody []).Along (custody []).Allows [] events) :
    (custody []).Along (custody []).Demands [] events ∧
      ((custody []).afterAll [] events).Perm shell.jobs.awaitedPids := by
  induction history with
  | new => exact ⟨trivial, List.Perm.refl _⟩
  | @run shell later events more line outcome earlier leads ih =>
      obtain ⟨allowedBefore, allowedHere⟩ := (along_append _).mp allowed
      obtain ⟨proper, holds⟩ := ih allowedBefore
      -- Nothing that was in custody before the line is asked after during it.
      obtain ⟨properHere, pids, left, entered, _⟩ :=
        triple_run shell line _ ((custody []).afterAll [] events) more _ (List.Perm.refl _) leads
          (allowedHere.imp (fun _ _ => rfl) fun _ _ => id)
      refine ⟨(along_append _).mpr ⟨proper, properHere.imp (fun _ _ => rfl) demands_of_spared⟩, ?_⟩
      rw [afterAll_append]
      exact left.trans ((holds.append_left pids).trans entered.symm)
  | @reap shell events more finished jobs earlier leads ih =>
      obtain ⟨allowedBefore, allowedHere⟩ := (along_append _).mp allowed
      obtain ⟨proper, holds⟩ := ih allowedBefore
      obtain ⟨properHere, left⟩ := triple_reap shell.jobs _ more _
        ⟨holds, along_nodup List.nodup_nil allowedBefore⟩ leads allowedHere
      refine ⟨(along_append _).mpr ⟨proper, properHere⟩, ?_⟩
      rw [afterAll_append]
      exact left

/-- Between the calls on a shell, the children in custody are the processes that its jobs await,
each in one place of one job. The shell has asked after none that it has already collected. A line
in the foreground, whatever it comes to, asks after no child that was there before it, and leaves
in custody those that were there and no other. -/
theorem children_are_awaited {shell : Shell} {events : List (Event System.interface)}
    (history : History events shell)
    (allowed : (custody []).Along (custody []).Allows [] events) :
    let children := (custody []).afterAll [] events
    children.Nodup ∧
    (∀ pid, pid ∈ children ↔ ∃ member ∈ shell.jobs.awaited, member.pid = pid) ∧
    (∀ member ∈ shell.jobs.awaited, ∀ other ∈ shell.jobs.awaited,
      member.pid = other.pid → member = other) ∧
    (custody []).Along (custody []).Demands [] events ∧
    ∀ line outcome later more, (shell.run line).Leads more (outcome, later) →
      line.background = false → (custody children).Along (custody children).Allows children more →
      (custody children).Along (custody children).Demands children more ∧
      ((custody children).afterAll children more).Perm children := by
  intro children
  obtain ⟨proper, holds⟩ := history.account allowed
  have single : children.Nodup := along_nodup List.nodup_nil allowed
  have distinct : shell.jobs.awaitedPids.Nodup := holds.nodup_iff.mp single
  refine ⟨single, fun pid => ?_, ?_, proper, ?_⟩
  · rw [holds.mem_iff, JobTable.awaitedPids, List.mem_map]
  · intro member awaited other otherAwaited same
    exact List.inj_on_of_nodup_map distinct awaited otherAwaited same
  · intro line outcome later more leads foreground possible
    obtain ⟨properHere, pids, left, _, own⟩ :=
      triple_run shell line children children more _ (List.Perm.refl _) leads possible
    rw [own foreground] at left
    exact ⟨properHere, left⟩

/-- The lines `a &` and `b`, where `a` goes on running and `b` fails. -/
theorem children_are_awaited_of_running_job :
    let shell : Shell := ⟨⟨[some ⟨[⟨⟨7⟩, none⟩], "a &"⟩]⟩, 1, none⟩
    let events : List (Event System.interface) := [
      ⟨.fork (.segment ⟨⟨"a", ["a"]⟩, none, none⟩), .ok ⟨7⟩⟩,
      ⟨.fork (.segment ⟨⟨"b", ["b"]⟩, none, none⟩), .ok ⟨8⟩⟩,
      ⟨.wait ⟨8⟩, .ok (.exited 1)⟩]
    History events shell ∧ (custody []).Along (custody []).Allows [] events ∧
      ∀ pid, pid ∈ [Pid.mk 7] ↔ ∃ member ∈ shell.jobs.awaited, member.pid = pid := by
  intro shell events
  let between : Shell := ⟨⟨[some ⟨[⟨⟨7⟩, none⟩], "a &"⟩]⟩, 0, none⟩
  have background : (Shell.new.run ⟨[.command ⟨"a", ["a"]⟩], .inherited, true⟩).Leads
      (events.take 1) (.ok (.background 1), between) :=
    .ask _ (.finished _)
  have foreground : (between.run ⟨[.command ⟨"b", ["b"]⟩], .inherited, false⟩).Leads
      (events.drop 1) (.ok (.done 1), shell) :=
    .ask _ (.ask _ (.finished _))
  have history : History (([] ++ events.take 1) ++ events.drop 1) shell :=
    .run (.run .new background) foreground
  have allowed : (custody []).Along (custody []).Allows [] events :=
    ⟨(List.not_mem_nil : (⟨7⟩ : Pid) ∉ []), (by decide : (⟨8⟩ : Pid) ∉ [⟨7⟩]),
      (by decide : (⟨8⟩ : Pid) ∈ [⟨8⟩, ⟨7⟩]), trivial⟩
  exact ⟨history, allowed, (children_are_awaited history allowed).2.1⟩

end Shell

end PipelineShell

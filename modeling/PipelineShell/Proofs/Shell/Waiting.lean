import PipelineShell.Proofs.Shell.Subshell

/-!
The status of a pipeline. All of its children are started before the first is waited for, and a
start fails only where the system refuses it; a program that cannot be executed is a matter of its
own child. Waiting passes over failures, of which the first is what the pipeline comes to.
-/

namespace PipelineShell

def Event.wait? : Event System.interface → Option (Pid × Except LastingErrno Death)
  | ⟨.wait pid, reply⟩ => some (pid, reply)
  | _ => none

def waits (events : List (Event System.interface)) : List (Pid × Except LastingErrno Death) :=
  events.filterMap Event.wait?

theorem waits_append (events more : List (Event System.interface)) :
    waits (events ++ more) = waits events ++ waits more :=
  List.filterMap_append

/-- The fault of a stage of which the system refuses a pipe or a child. -/
def Event.refusal? : Event System.interface → Option Shell.RunFault
  | ⟨.makePipe, .error errno⟩ => some (.pipe errno)
  | ⟨.duplicateAbove _ _, .error errno⟩ => some (.pipe errno)
  | ⟨.fork _, .error errno⟩ => some (.fork errno)
  | _ => none

def refusals (events : List (Event System.interface)) : List Shell.RunFault :=
  events.filterMap Event.refusal?

theorem refusals_append (events more : List (Event System.interface)) :
    refusals (events ++ more) = refusals events ++ refusals more :=
  List.filterMap_append

def Launch.Has (launch : Launch) (fd target : Fd) : Prop :=
  launch.input = some fd ∧ target = Fd.input ∨ launch.output = some fd ∧ target = Fd.output

namespace Shell

open Routine

variable {events : List (Event System.interface)}

/-! ### Refusals -/

def faults {α : Type} : Except RunFault α → List RunFault
  | .ok _ => []
  | .error fault => [fault]

private theorem refusals_of_raise {fd : Fd} {moved : Except Errno Fd}
    (leads : (raise fd).Leads events moved) :
    refusals events = faults (moved.mapError RunFault.pipe) := by
  rw [raise] at leads
  split at leads
  · obtain ⟨nothing, movedEq⟩ := leads.of_pure
    rw [nothing, movedEq]
    rfl
  · obtain ⟨reply, _, eventsEq, later⟩ := leads.of_ask
    obtain ⟨_, back, backEq, returned⟩ := later.of_ask
    obtain ⟨nothing, movedEq⟩ := returned.of_pure
    rw [eventsEq, backEq, nothing, movedEq]
    cases reply <;> rfl

private theorem refusals_of_given_up {α : Type} {fd : Fd} {fault : RunFault}
    {made : Except RunFault α}
    (leads : (do System.call (.close fd); throw fault : Attempt α).run.Leads events made) :
    refusals events = [] ∧ made = .error fault := by
  obtain ⟨_, back, eventsEq, thrown⟩ := leads.of_attempt_ask
  obtain ⟨nothing, madeEq⟩ := Leads.of_pure thrown
  rw [eventsEq, nothing]
  exact ⟨rfl, madeEq⟩

private theorem refusals_of_openPipe {made : Except RunFault (Fd × Fd)}
    (leads : openPipe.run.Leads events made) : refusals events = faults made := by
  obtain ⟨reply, back, eventsEq, later⟩ := leads.of_attempt_ask
  rw [eventsEq]
  cases reply with
  | error errno =>
      obtain ⟨nothing, madeEq⟩ := Leads.of_pure later
      rw [nothing, madeEq]
      rfl
  | ok ends =>
      change refusals back = faults made
      obtain ⟨inner, reading, rest, splitBack, raised, afterReading⟩ :=
        Leads.of_attempt_lift_bind later
      rw [splitBack, refusals_append, refusals_of_raise raised]
      cases reading with
      | error errno =>
          obtain ⟨nothing, madeEq⟩ := refusals_of_given_up afterReading
          rw [nothing, madeEq]
          rfl
      | ok reading =>
          change refusals rest = faults made
          obtain ⟨inmost, writing, last, splitRest, alsoRaised, afterWriting⟩ :=
            Leads.of_attempt_lift_bind afterReading
          rw [splitRest, refusals_append, refusals_of_raise alsoRaised]
          cases writing with
          | error errno =>
              obtain ⟨nothing, madeEq⟩ := refusals_of_given_up afterWriting
              rw [nothing, madeEq]
              rfl
          | ok writing =>
              obtain ⟨nothing, madeEq⟩ := Leads.of_pure afterWriting
              rw [nothing, madeEq]
              rfl

private theorem refusals_of_startSegments {input output : Option Fd} {commands : List Command}
    {started : Started} (leads : (startSegments input output commands).Leads events started) :
    refusals events = started.fault.toList := by
  have quiet : ∀ fd reply, Event.refusal? ⟨.close fd, reply⟩ = none := fun _ _ => rfl
  induction commands generalizing input events started with
  | nil =>
      obtain ⟨nothing, startedEq⟩ := eq_of_release quiet leads
      rw [refusals, nothing, startedEq]
      rfl
  | cons command rest ih =>
      cases rest with
      | nil =>
          obtain ⟨reply, back, eventsEq, later⟩ := leads.of_ask
          rw [eventsEq]
          cases reply with
          | error errno =>
              obtain ⟨nothing, startedEq⟩ := eq_of_release quiet later
              change .fork errno :: back.filterMap Event.refusal? = _
              rw [nothing, startedEq]
              rfl
          | ok pid =>
              obtain ⟨nothing, startedEq⟩ := eq_of_release quiet later
              change back.filterMap Event.refusal? = _
              rw [nothing, startedEq]
              rfl
      | cons second others =>
          obtain ⟨front, made, back, split, piped, later⟩ := Leads.of_bind leads
          rw [split, refusals_append, refusals_of_openPipe piped]
          cases made with
          | error fault =>
              obtain ⟨nothing, startedEq⟩ := eq_of_release quiet later
              rw [refusals, nothing, startedEq]
              rfl
          | ok ends =>
              change refusals back = _
              obtain ⟨reply, last, backEq, afterFork⟩ := Leads.of_ask later
              rw [backEq]
              cases reply with
              | error errno =>
                  obtain ⟨_, same, inner⟩ := exists_leads_behind_release quiet afterFork
                  obtain ⟨nothing, startedEq⟩ := eq_of_release quiet inner
                  change .fork errno :: last.filterMap Event.refusal? = _
                  rw [same, nothing, startedEq]
                  rfl
              | ok pid =>
                  obtain ⟨_, same, inner⟩ := exists_leads_behind_release quiet afterFork
                  obtain ⟨behind, recursion, startedEq⟩ := leads_bind_pure_iff.mp inner
                  change last.filterMap Event.refusal? = _
                  rw [same, startedEq]
                  change refusals _ = behind.fault.toList
                  exact ih recursion

/-! ### Waiting -/

def statusOf (reply : Except LastingErrno Death) : Except Errno Int :=
  (reply.mapError LastingErrno.errno).bind Death.status

/-- What waiting makes of the statuses that are left, after the last status and the first failure
so far. -/
def verdict (last : Int) (failure : Option Errno) : List (Except Errno Int) → Except Errno Int
  | [] => failure.elim (.ok last) .error
  | .ok status :: rest => verdict status failure rest
  | .error errno :: rest => verdict last (failure.or (some errno)) rest

private theorem exists_reply_of_waitRemaining {last : Int} {failure : Option Errno} {pid : Pid}
    {rest : List Pid} {outcome : Except Errno Int}
    (leads : (waitRemaining last failure (pid :: rest)).Leads events outcome) :
    ∃ reply back status passed, waits events = (pid, reply) :: waits back ∧
      (∀ ends, verdict last failure (statusOf reply :: ends) = verdict status passed ends) ∧
      (waitRemaining status passed rest).Leads back outcome := by
  obtain ⟨front, given, back, split, waited, later⟩ := leads.of_bind
  obtain ⟨reply, asked, givenEq⟩ := leads_bind_pure_iff.mp waited
  have waitsEq : waits events = (pid, reply) :: waits back := by
    rw [split, waits_append, asked.of_request]
    rfl
  refine ⟨reply, back, ?_⟩
  change given = statusOf reply at givenEq
  rw [← givenEq]
  cases given with
  | ok status => exact ⟨status, failure, waitsEq, fun _ => rfl, later⟩
  | error errno => exact ⟨last, failure.or (some errno), waitsEq, fun _ => rfl, later⟩

/-- Every child is waited for, whatever the waits for those before it have given. -/
theorem exists_replies_of_waitRemaining {last : Int} {failure : Option Errno} {pids : List Pid}
    {outcome : Except Errno Int}
    (leads : (waitRemaining last failure pids).Leads events outcome) :
    ∃ replies, replies.length = pids.length ∧ waits events = pids.zip replies ∧
      outcome = verdict last failure (replies.map statusOf) := by
  induction pids generalizing last failure events with
  | nil =>
      have ended : events = [] ∧ outcome = failure.elim (.ok last) .error := by
        cases failure with
        | none => exact leads.of_pure
        | some errno => exact leads.of_pure
      refine ⟨[], rfl, ?_, ended.2⟩
      rw [ended.1]
      rfl
  | cons pid rest ih =>
      obtain ⟨reply, back, _, _, waitsEq, same, later⟩ := exists_reply_of_waitRemaining leads
      obtain ⟨replies, each, behind, outcomeEq⟩ := ih later
      refine ⟨reply :: replies, congrArg Nat.succ each, ?_, ?_⟩
      · rw [waitsEq, behind]
        rfl
      · rw [outcomeEq, List.map_cons, same]

theorem verdict_of_failure (last : Int) (errno : Errno) (ends : List (Except Errno Int)) :
    verdict last (some errno) ends = .error errno := by
  induction ends generalizing last with
  | nil => rfl
  | cons ended rest ih =>
      cases ended with
      | ok status => exact ih status
      | error other => exact ih last

def GiveStatuses (replies : List (Except LastingErrno Death)) : Prop :=
  ∀ reply ∈ replies, ∃ status, statusOf reply = .ok status

private theorem giveStatuses_nil : GiveStatuses [] :=
  List.forall_mem_nil _

/-- What a pipeline comes to by what the waits for its children have given: the first failure, or
else the exit code of the last child, or 128 and the signal that has killed it. -/
inductive ComesTo (replies : List (Except LastingErrno Death)) : Except RunFault Int → Prop where
  | failed {before after : List (Except LastingErrno Death)}
      {reply : Except LastingErrno Death} {errno : Errno}
      (split : replies = before ++ reply :: after) (fine : GiveStatuses before)
      (failure : statusOf reply = .error errno) : ComesTo replies (.error (.wait errno))
  | exited {before : List (Except LastingErrno Death)} {code : UInt8}
      (split : replies = before ++ [.ok (.exited code)]) (fine : GiveStatuses before) :
      ComesTo replies (.ok code.toNat)
  | killed {before : List (Except LastingErrno Death)} {signal : Nat}
      (split : replies = before ++ [.ok (.killed signal)]) (fine : GiveStatuses before)
      (isKnown : signal < Death.firstUnknownSignal) : ComesTo replies (.ok (128 + signal))

theorem ComesTo.behind {replies : List (Except LastingErrno Death)}
    {reply : Except LastingErrno Death}
    {status : Int} {outcome : Except RunFault Int} (comesTo : ComesTo replies outcome)
    (found : statusOf reply = .ok status) : ComesTo (reply :: replies) outcome := by
  have alsoFine : ∀ {before}, GiveStatuses before → GiveStatuses (reply :: before) :=
    fun fine => List.forall_mem_cons.mpr ⟨⟨status, found⟩, fine⟩
  cases comesTo with
  | failed split fine failure =>
      exact .failed (congrArg (reply :: ·) split) (alsoFine fine) failure
  | exited split fine => exact .exited (congrArg (reply :: ·) split) (alsoFine fine)
  | killed split fine isKnown =>
      exact .killed (congrArg (reply :: ·) split) (alsoFine fine) isKnown

private theorem comesTo_of_single {reply : Except LastingErrno Death} {status : Int}
    (found : statusOf reply = .ok status) : ComesTo [reply] (.ok status) := by
  cases reply with
  | error errno => cases found
  | ok death =>
      cases death with
      | exited code =>
          cases found
          exact @ComesTo.exited _ [] code rfl giveStatuses_nil
      | killed signal =>
          change (if signal < Death.firstUnknownSignal then _ else _ : Except Errno Int) = _
            at found
          split at found
          · rename_i isKnown
            cases found
            exact @ComesTo.killed _ [] signal rfl giveStatuses_nil isKnown
          · cases found

private theorem comesTo_verdict {replies : List (Except LastingErrno Death)} (filled : replies ≠ [])
    (last : Int) :
    ComesTo replies ((verdict last none (replies.map statusOf)).mapError .wait) := by
  induction replies generalizing last with
  | nil => exact absurd rfl filled
  | cons reply rest ih =>
      rw [List.map_cons]
      cases found : statusOf reply with
      | error errno =>
          rw [verdict, Option.none_or, verdict_of_failure]
          exact @ComesTo.failed _ [] rest reply errno rfl giveStatuses_nil found
      | ok status =>
          cases rest with
          | nil => exact comesTo_of_single found
          | cons next others => exact (ih (List.cons_ne_nil _ _) status).behind found

private theorem exists_collected_of_collectAll {pids : List Pid} {outcome : Except RunFault Int}
    (leads : (collectAll pids).run.Leads events outcome) :
    ∃ collected, (waitRemaining 0 none pids).Leads events collected ∧
      outcome = collected.mapError .wait := by
  obtain ⟨front, collected, back, split, waiting, later⟩ := Leads.of_attempt_lift_bind leads
  have ended : back = [] ∧ outcome = collected.mapError .wait := by
    cases collected with
    | ok status => exact Leads.of_pure later
    | error errno => exact Leads.of_pure later
  rw [split, ended.1, List.append_nil]
  exact ⟨collected, waiting, ended.2⟩

/-! ### Programs that do not run -/

def Event.execution? : Event System.interface → Option Errno
  | ⟨.execute _, errno⟩ => some errno
  | _ => none

def executions (events : List (Event System.interface)) : List Errno :=
  events.filterMap Event.execution?

theorem executions_append (events more : List (Event System.interface)) :
    executions (events ++ more) = executions events ++ executions more :=
  List.filterMap_append

/-- A descriptor of the segment cannot be put onto its standard number. -/
inductive Misplaces (launch : Launch) : Event System.interface → Prop where
  | kept {fd : Fd} (has : launch.Has fd fd) (errno : Errno) :
      Misplaces launch ⟨.keepOnExecute fd, .error errno⟩
  | copied {fd target : Fd} (has : launch.Has fd target) (errno : Errno) :
      Misplaces launch ⟨.duplicateOnto fd target, .error errno⟩

/-- How a segment ends that does not become its program: a descriptor cannot be put in place, and
nothing is executed, or the program cannot be executed, of which the segment complains. -/
inductive EndsUnrun (launch : Launch) : List (Event System.interface) → Int → Prop where
  | unwired {front : List (Event System.interface)} {failure : Event System.interface}
      (untried : executions front = []) (misplaces : Misplaces launch failure) :
      EndsUnrun launch (front ++ [failure]) 126
  | unexecuted {front : List (Event System.interface)} (untried : executions front = [])
      (errno : Errno) (reply : Except Errno Unit) :
      EndsUnrun launch (front ++ [⟨.execute launch.command, errno⟩,
        ⟨.write Fd.error (Launch.failureMessage launch.command.program errno ++ "\n"), reply⟩])
        (if errno = .noEntry then 127 else 126)

private theorem never_execution_wire (source : Option Fd) (target : Fd) :
    Never Event.execution? (Launch.wire source target) := by
  cases source with
  | none => exact never_pure _
  | some fd =>
      rw [Launch.wire]
      split
      · exact Never.bind (never_request fun _ => rfl) fun _ => never_pure _
      · exact Never.bind (never_request fun _ => rfl) fun _ => never_pure _

/-- A descriptor is put in place, or the last event says which could not be. -/
theorem failure_of_wire {launch : Launch} {source : Option Fd} {target : Fd}
    (has : ∀ fd, source = some fd → launch.Has fd target)
    (leads : (Launch.wire source target).Leads events false) :
    ∃ failure, events = [failure] ∧ Misplaces launch failure := by
  cases source with
  | none => cases leads.of_pure.2
  | some fd =>
      have isOwn := has fd rfl
      rw [Launch.wire] at leads
      by_cases inPlace : fd = target
      · rw [if_pos inPlace] at leads
        rw [← inPlace] at isOwn
        obtain ⟨reply, asked, failed⟩ := leads_bind_pure_iff.mp leads
        cases reply with
        | ok done => cases failed
        | error errno => exact ⟨_, asked.of_request, .kept isOwn errno⟩
      · rw [if_neg inPlace] at leads
        obtain ⟨reply, asked, failed⟩ := leads_bind_pure_iff.mp leads
        cases reply with
        | ok done => cases failed
        | error errno => exact ⟨_, asked.of_request, .copied isOwn errno⟩

private theorem failureStatus_eq (errno : Errno) :
    Launch.failureStatus errno = if errno = .noEntry then 127 else 126 := by
  cases errno <;> rfl

private theorem endsUnrun_of_leads {launch : Launch} {code : Int}
    (leads : launch.routine.Leads events code) : EndsUnrun launch events code := by
  obtain ⟨front, reading, back, split, input, later⟩ := leads.of_bind
  have noneInFront : executions front = [] := never_execution_wire _ _ _ _ input
  cases reading with
  | false =>
      obtain ⟨nothing, codeEq⟩ := later.of_pure
      obtain ⟨failure, frontEq, misplaces⟩ :=
        failure_of_wire (fun _ given => Or.inl ⟨given, rfl⟩) input
      rw [split, nothing, List.append_nil, codeEq, frontEq, ← List.nil_append [failure]]
      exact .unwired rfl misplaces
  | true =>
      obtain ⟨middle, writing, last, splitBack, output, afterWiring⟩ := later.of_bind
      have noneInMiddle : executions middle = [] := never_execution_wire _ _ _ _ output
      rw [split, splitBack]
      cases writing with
      | false =>
          obtain ⟨nothing, codeEq⟩ := afterWiring.of_pure
          obtain ⟨failure, middleEq, misplaces⟩ :=
            failure_of_wire (fun _ given => Or.inr ⟨given, rfl⟩) output
          rw [nothing, List.append_nil, codeEq, middleEq]
          exact .unwired noneInFront misplaces
      | true =>
          have untried : executions (front ++ middle) = [] := by
            rw [executions_append, noneInFront, noneInMiddle]
            rfl
          obtain ⟨errno, rest, lastEq, failed⟩ := afterWiring.of_ask
          obtain ⟨told, _, ending, splitRest, complained, returned⟩ := failed.of_bind
          obtain ⟨nothing, codeEq⟩ := returned.of_pure
          obtain ⟨reply, toldEq⟩ := leads_complain_iff.mp complained
          rw [lastEq, splitRest, nothing, toldEq, codeEq, failureStatus_eq, ← List.append_assoc]
          exact .unexecuted untried errno reply

private theorem isStatus_of_endsUnrun {launch : Launch} {code : Int}
    (ends : EndsUnrun launch events code) : IsStatus code := by
  cases ends with
  | unwired => constructor <;> decide
  | unexecuted untried errno reply => split <;> constructor <;> decide

/-! ### Pipelines -/

theorem exists_started_of_leads {stage : Stage} {target : Option Fd} {outcome : Except RunFault Int}
    (leads : (startStage stage target >>= collectAll).run.Leads events outcome) :
    ∃ front back started collected, events = front ++ back ∧
      (startSegments none target stage.commands).Leads front started ∧
      (waitRemaining 0 none started.pids).Leads back collected ∧
      outcome = started.fault.elim (collected.mapError .wait) .error := by
  rcases leads.of_attempt_bind with
    ⟨fault, outcomeEq, started⟩ | ⟨front, pids, back, split, started, collected⟩
  · cases startsStage_of_leads started with
    | cut starting faulty waiting =>
        refine ⟨_, _, _, _, rfl, starting, waiting, ?_⟩
        rw [outcomeEq, faulty]
        rfl
  · cases startsStage_of_leads started with
    | whole starting intact =>
        obtain ⟨ended, waiting, outcomeEq⟩ := exists_collected_of_collectAll collected
        refine ⟨front, back, _, ended, split, starting, waiting, ?_⟩
        rw [outcomeEq, intact]
        rfl

theorem waits_of_startSegments {input output : Option Fd} {commands : List Command}
    {started : Started} (leads : (startSegments input output commands).Leads events started) :
    waits events = [] := by
  have overlooks : OverlooksPipes Event.wait? := ⟨fun _ => rfl, fun _ _ _ => rfl, fun _ _ => rfl⟩
  obtain ⟨begun, _, same⟩ := exists_begun_of_startSegments overlooks (fun _ _ => rfl) leads
  rw [waits, same, List.filterMap_map]
  exact List.filterMap_eq_nil_iff.mpr fun _ _ => rfl

/-- What a run of a stage makes of the children that it starts. -/
structure Settles (stage : Stage) (events : List (Event System.interface))
    (outcome : Except RunFault Int) (begun : List (Launch × Pid))
    (replies : List (Except LastingErrno Death)) : Prop where
  starts : launches events = begun.map fun entry => (.segment entry.1, entry.2)
  inOrder : (begun.map fun entry => entry.1.command) <+: stage.commands
  /-- Each child is waited for once. -/
  collects : waits events = (begun.map Prod.snd).zip replies
  each : replies.length = begun.length
  refused : ∀ fault ∈ refusals events, outcome = .error fault
  whole : refusals events = [] →
    (begun.map fun entry => entry.1.command) = stage.commands ∧ ComesTo replies outcome

private theorem exists_settles {stage : Stage} {target : Option Fd} {outcome : Except RunFault Int}
    (filled : stage.commands ≠ [])
    (leads : (startStage stage target >>= collectAll).run.Leads events outcome) :
    ∃ begun replies, Settles stage events outcome begun replies := by
  obtain ⟨front, back, started, collected, split, starting, waiting, outcomeEq⟩ :=
    exists_started_of_leads leads
  obtain ⟨begun, begins, launchesEq⟩ := exists_launches_of_startSegments starting
  obtain ⟨replies, each, waitsEq, collectedEq⟩ := exists_replies_of_waitRemaining waiting
  have startsNone : launches back = [] := never_waitRemaining (fun _ _ => rfl) _ _ _ _ _ waiting
  have refusesNone : refusals back = [] := never_waitRemaining (fun _ _ => rfl) _ _ _ _ _ waiting
  have refusedEq : refusals events = started.fault.toList := by
    rw [split, refusals_append, refusals_of_startSegments starting, refusesNone, List.append_nil]
  have eachBegun : replies.length = begun.length := by
    rw [each, ← begins.pids, List.length_map]
  refine ⟨begun, replies, ⟨?_, begins.inOrder, ?_, eachBegun, ?_, ?_⟩⟩
  · rw [split, launches_append, launchesEq, startsNone, List.append_nil]
  · rw [split, waits_append, waits_of_startSegments starting, waitsEq, begins.pids]
    rfl
  · intro fault member
    rw [refusedEq, Option.mem_toList] at member
    rw [outcomeEq, member]
    rfl
  · intro unrefused
    rw [refusedEq, Option.toList_eq_nil_iff] at unrefused
    have inOrder := begins.commands_eq unrefused
    have someReplies : replies ≠ [] := by
      intro nothing
      rw [← inOrder, ← List.length_pos_iff, List.length_map, ← eachBegun, nothing] at filled
      exact Nat.not_lt_zero _ filled
    rw [outcomeEq, unrefused, collectedEq]
    exact ⟨inOrder, comesTo_verdict someReplies 0⟩

/-- However the children of a stage end, each that has been started is waited for once, in order. A
stage of which nothing is refused has started one child for each of its commands, from left to
right, and comes to the first failure of a wait, or else to the status of the last child. A child
whose program cannot be executed is none the less started; it ends by itself, and its exit code is
the status that it is found with. -/
theorem pipeline_status_is_last {stage : Stage} {target : Option Fd} {outcome : Except RunFault Int}
    (filled : stage.commands ≠ [])
    (leads : (startStage stage target >>= collectAll).run.Leads events outcome) :
    ∃ begun replies, Settles stage events outcome begun replies ∧
      ∀ entry ∈ begun, ∀ done code, (Child.segment entry.1).routine.Leads done code →
        EndsUnrun entry.1 done code ∧ (Death.ofExitCode code).status = .ok code := by
  obtain ⟨begun, replies, settles⟩ := exists_settles filled leads
  refine ⟨begun, replies, settles, ?_⟩
  intro entry _ done code ran
  have ends := endsUnrun_of_leads ran
  exact ⟨ends, status_ofExitCode (isStatus_of_endsUnrun ends)⟩

/-- `a | b | c`, where `b` is missing and the wait for it fails: `c` is started and waited for, and
the child for `b` has ended by itself. -/
theorem pipeline_status_is_last_of_failed_wait :
    let stage : Stage := ⟨.always, [⟨"a", ["a"]⟩, ⟨"b", ["b"]⟩, ⟨"c", ["c"]⟩]⟩
    let missing : Launch := ⟨⟨"b", ["b"]⟩, some 3, some 5⟩
    let events : List (Event System.interface) := [
      ⟨.makePipe, .ok (3, 4)⟩,
      ⟨.fork (.segment ⟨⟨"a", ["a"]⟩, none, some 4⟩), .ok ⟨7⟩⟩,
      ⟨.close 4, ()⟩,
      ⟨.makePipe, .ok (4, 5)⟩,
      ⟨.fork (.segment missing), .ok ⟨8⟩⟩,
      ⟨.close 5, ()⟩,
      ⟨.close 3, ()⟩,
      ⟨.fork (.segment ⟨⟨"c", ["c"]⟩, some 4, none⟩), .ok ⟨9⟩⟩,
      ⟨.close 4, ()⟩,
      ⟨.wait ⟨7⟩, .ok (.killed 13)⟩,
      ⟨.wait ⟨8⟩, .error ⟨.noChild, by decide⟩⟩,
      ⟨.wait ⟨9⟩, .ok (.exited 1)⟩]
    let outcome : Except RunFault Int := .error (.wait .noChild)
    let done : List (Event System.interface) := [
      ⟨.duplicateOnto 3 0, .ok ()⟩,
      ⟨.duplicateOnto 5 1, .ok ()⟩,
      ⟨.execute ⟨"b", ["b"]⟩, .noEntry⟩,
      ⟨.write Fd.error "pish: b: command not found\n", .ok ()⟩]
    stage.commands ≠ [] ∧
      (startStage stage none >>= collectAll).run.Leads events outcome ∧
      (Child.segment missing).routine.Leads done 127 ∧ executions done = [.noEntry] ∧
      ∃ begun replies, Settles stage events outcome begun replies ∧
        (∀ entry ∈ begun, ∀ done code, (Child.segment entry.1).routine.Leads done code →
          EndsUnrun entry.1 done code ∧ (Death.ofExitCode code).status = .ok code) ∧
        (missing, ⟨8⟩) ∈ begun ∧
        EndsUnrun missing done 127 ∧ (Death.ofExitCode 127).status = .ok 127 := by
  intro stage missing events outcome done
  have filled : stage.commands ≠ [] := List.cons_ne_nil _ _
  have leads : (startStage stage none >>= collectAll).run.Leads events outcome := by
    dsimp only [stage, missing, events, outcome]
    exact .ask _ (.ask _ (.ask _ (.ask _ (.ask _ (.ask _ (.ask _ (.ask _ (.ask _
      (.ask _ (.ask _ (.ask _ (.finished _))))))))))))
  have ended : (Child.segment missing).routine.Leads done 127 := by
    dsimp only [missing, done]
    exact .ask _ (.ask _ (.ask _ (.ask _ (.finished _))))
  obtain ⟨begun, replies, settles, ends⟩ := pipeline_status_is_last filled leads
  have isBegun : (missing, ⟨8⟩) ∈ begun := by
    have started : (Child.segment missing, ⟨8⟩) ∈ launches events :=
      List.mem_cons_of_mem _ List.mem_cons_self
    rw [settles.starts] at started
    obtain ⟨entry, member, entryEq⟩ := List.mem_map.mp started
    obtain ⟨sameChild, samePid⟩ := Prod.mk.inj entryEq
    rw [← samePid, ← Child.segment.inj sameChild]
    exact member
  exact ⟨filled, leads, ended, rfl, begun, replies, settles, ends, isBegun,
    ends _ isBegun _ _ ended⟩

end Shell

end PipelineShell

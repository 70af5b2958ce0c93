import PipelineShell.Proofs.Jobs.History
import PipelineShell.Proofs.Session.Frame

/-!
Prompts and reads. Before a read that is no retry, the job table is reaped, what has been found is
reported, and the prompt is shown. So there are as many prompts as there are reads that have not
been interrupted, each in front of its read, and behind the last of these reads there is none.
-/

namespace PipelineShell

def Event.prompt? : Event System.interface → Option String
  | ⟨.showPrompt prompt, _⟩ => some prompt
  | _ => none

def prompts (events : List (Event System.interface)) : List String :=
  events.filterMap Event.prompt?

theorem prompts_append (events more : List (Event System.interface)) :
    prompts (events ++ more) = prompts events ++ prompts more :=
  List.filterMap_append

namespace Session

open Routine ReadOutcome

variable {prompt : Option String} {shell next ready last : Shell} {reader : LineReader}
  {held : List UInt8} {pause acting : List (Event System.interface)}
  {outcome other : ReadOutcome} {retries : Nat} {moments rest before behind : List Moment}
  {ending : Ending}

/-! ### What shows prompts -/

private theorem overlooksLines_prompt : Shell.OverlooksLines Event.prompt? where
  toOverlooksDescriptors := ⟨fun _ _ _ => rfl, fun _ => rfl, fun _ _ _ => rfl, fun _ _ => rfl⟩
  fork _ _ := rfl
  wait _ _ := rfl

private theorem prompt?_of_isOwn (event : Event System.interface) (own : event.request.IsOwn) :
    event.prompt? = none := by
  obtain ⟨request, reply⟩ := event
  cases own <;> rfl

private theorem prompts_of_perform {readings : List Reading}
    (leads : (perform shell readings).Leads acting last) : prompts acting = [] :=
  never_perform overlooksLines_prompt prompt?_of_isOwn shell readings _ _ leads

private theorem prompts_of_ended
    (taken : (takeRead prompt shell reader outcome).Leads acting (.ended ending last)) :
    prompts acting = [] :=
  never_ended overlooksLines_prompt prompt?_of_isOwn taken

/-! ### Preparing a read -/

def reportOf (job : FinishedJob) : Event System.interface :=
  ⟨.complain (jobReport job), ()⟩

/-- What is done when a read is prepared: a reap asks after processes, the jobs that it has found
finished are reported, and the prompt is shown. -/
def pausing (prompt : Option String) (sightings : List Sighting)
    (finished : List FinishedJob) : List (Event System.interface) :=
  sightings.map Sighting.event ++ finished.map reportOf
    ++ prompt.toList.map fun text => ⟨.showPrompt text, ()⟩

private theorem eq_of_writeReports {finished : List FinishedJob} {value : Unit}
    (leads : (writeReports finished).Leads acting value) : acting = finished.map reportOf := by
  induction finished generalizing acting with
  | nil => exact (Leads.of_pure leads).1
  | cons job rest ih =>
      obtain ⟨_, behind, split, later⟩ := Leads.of_ask leads
      rw [split, ih later]
      rfl

private theorem exists_makes_of_prepareRead (leads : (prepareRead prompt shell).Leads pause ready) :
    ∃ sightings finished jobs, shell.jobs.Makes (.reaped sightings finished) jobs ∧
      pause = pausing prompt sightings finished ∧ ready = { shell with jobs } := by
  obtain ⟨announcing, announced, shows, split, leadsFirst, leadsNext⟩ := leads.of_bind
  obtain ⟨reaping, ⟨finished, jobs⟩, back, splitFirst, reaped, written⟩ := leadsFirst.of_bind
  obtain ⟨_, reporting, announcedEq⟩ := leads_bind_pure_iff.mp written
  obtain ⟨sightings, reapingEq, made⟩ := JobTable.exists_makes_of_reap reaped
  refine ⟨sightings, finished, jobs, made, ?_⟩
  rw [split, splitFirst, reapingEq, eq_of_writeReports reporting, pausing]
  cases prompt with
  | none =>
      obtain ⟨nothing, readyEq⟩ := Leads.of_pure leadsNext
      rw [nothing, readyEq, announcedEq]
      exact ⟨rfl, rfl⟩
  | some text =>
      obtain ⟨_, further, showsEq, returned⟩ := Leads.of_ask leadsNext
      obtain ⟨nothing, readyEq⟩ := returned.of_pure
      rw [showsEq, nothing, readyEq, announcedEq]
      exact ⟨rfl, rfl⟩

def shown (prompt : Option String) (times : Nat) : List String :=
  prompt.elim [] (List.replicate times)

private theorem shown_succ (prompt : Option String) (times : Nat) :
    shown prompt 1 ++ shown prompt times = shown prompt (times + 1) := by
  cases prompt <;> rfl

private theorem prompts_of_prepareRead (leads : (prepareRead prompt shell).Leads pause ready) :
    prompts pause = shown prompt 1 := by
  obtain ⟨sightings, finished, jobs, _, pauseEq, _⟩ := exists_makes_of_prepareRead leads
  have polls : prompts (sightings.map Sighting.event) = [] := by
    rw [prompts, List.filterMap_map]
    exact List.filterMap_eq_nil_iff.mpr fun _ _ => rfl
  have reports : prompts (finished.map reportOf) = [] := by
    rw [prompts, List.filterMap_map]
    exact List.filterMap_eq_nil_iff.mpr fun _ _ => rfl
  rw [pauseEq, pausing, prompts_append, prompts_append, polls, reports]
  cases prompt <;> rfl

/-! ### How many prompts there are -/

/-- There is a prompt for each read that has not been interrupted, and one for the read that is due
where the session is cut off. -/
theorem Course.prompts_eq (course : Course prompt shell reader moments ending last) :
    ∃ times, prompts (calls moments) = shown prompt times ∧
      (reads moments).length + (if ending = .cutOff then 1 else 0)
        = (reads moments).count .interrupted + times := by
  induction course with
  | cut prepared retries =>
      refine ⟨1, ?_, ?_⟩
      · rw [calls_due]
        exact prompts_of_prepareRead prepared
      · simp [reads_due]
  | ended prepared retries taken =>
      refine ⟨1, ?_, ?_⟩
      · rw [calls_round, prompts_append, prompts_of_ended taken, List.append_nil]
        exact prompts_of_prepareRead prepared
      · simp [reads_round, ne_cutOff_of_ended taken, ne_interrupted_of_ended taken]
  | goesOn prepared retries performed staying later ih =>
      obtain ⟨times, promptsEq, lengthEq⟩ := ih
      refine ⟨times + 1, ?_, ?_⟩
      · rw [calls_append, calls_round, prompts_append, prompts_append,
          prompts_of_perform performed, List.append_nil, promptsEq,
          prompts_of_prepareRead prepared, shown_succ]
      · rw [reads_append, reads_round, List.length_append, List.count_append]
        simp only [List.length_append, List.length_replicate, List.length_singleton,
          List.count_append, List.count_replicate_self, List.count_singleton, beq_iff_eq,
          reduceCtorEq, if_false]
        omega

/-! ### Moments of reading -/

private theorem split_behind {front : List Moment} (absent : other ∉ reads front)
    (split : front ++ rest = before ++ .ofRead other :: behind) :
    ∃ between, before = front ++ between ∧ rest = between ++ .ofRead other :: behind := by
  rcases List.append_eq_append_iff.mp split with
    ⟨between, beforeEq, restEq⟩ | ⟨between, frontEq, behindEq⟩
  · exact ⟨between, beforeEq, restEq⟩
  · cases between with
    | nil =>
        rw [List.append_nil] at frontEq
        exact ⟨[], by rw [frontEq, List.append_nil], behindEq.symm⟩
    | cons moment others =>
        obtain ⟨momentEq, _⟩ := List.cons.inj behindEq
        rw [frontEq, ← momentEq, reads_append] at absent
        exact (absent (List.mem_append_right _ List.mem_cons_self)).elim

private theorem not_mem_reads_due (made : other ≠ .interrupted) :
    other ∉ reads (due pause retries) := by
  rw [reads_due]
  exact fun retried => made (List.eq_of_mem_replicate retried)

private theorem split_of_round
    (split : round pause retries outcome acting ++ rest = before ++ .ofRead other :: behind)
    (made : other ≠ .interrupted) :
    (before = due pause retries ∧ other = outcome ∧ behind = acting.map .ofCall ++ rest) ∨
    ∃ between, before = round pause retries outcome acting ++ between ∧
      rest = between ++ .ofRead other :: behind := by
  rw [round, List.append_assoc] at split
  obtain ⟨between, beforeEq, restEq⟩ := split_behind (not_mem_reads_due made) split
  cases between with
  | nil =>
      obtain ⟨sameRead, behindEq⟩ := List.cons.inj restEq
      cases sameRead
      exact Or.inl ⟨by rw [beforeEq, List.append_nil], rfl, behindEq.symm⟩
  | cons moment others =>
      obtain ⟨momentEq, othersEq⟩ := List.cons.inj restEq
      have noRead : other ∉ reads (acting.map .ofCall) := by
        rw [reads_map_ofCall]
        exact List.not_mem_nil
      obtain ⟨further, furtherEq, later⟩ := split_behind noRead othersEq
      refine Or.inr ⟨further, ?_, later⟩
      rw [beforeEq, furtherEq, ← momentEq, round, List.append_assoc, List.cons_append]

/-- What comes before a read that is no retry is a session that has been cut off there. Behind a
read that ends the input there is neither a read nor a prompt. -/
theorem Course.before_read (course : Course prompt shell reader moments ending last)
    (split : moments = before ++ .ofRead other :: behind) (made : other ≠ .interrupted) :
    (∃ found, Course prompt shell reader before .cutOff found) ∧
      ((closing? [other]).isSome → reads behind = [] ∧ prompts (calls behind) = []) := by
  induction course generalizing before with
  | @cut _ _ _ pause prepared retries =>
      have among : other ∈ reads (due pause retries) := by
        rw [split, reads_append]
        exact List.mem_append_right _ List.mem_cons_self
      exact (not_mem_reads_due made among).elim
  | ended prepared retries taken =>
      rw [← List.append_nil (round _ _ _ _)] at split
      rcases split_of_round split made with ⟨beforeEq, _, behindEq⟩ | ⟨between, _, impossible⟩
      · rw [beforeEq, behindEq, List.append_nil, reads_map_ofCall, calls_map_ofCall]
        exact ⟨⟨_, .cut prepared retries⟩, fun _ => ⟨rfl, prompts_of_ended taken⟩⟩
      · cases between <;> cases impossible
  | goesOn prepared retries performed staying later ih =>
      rcases split_of_round split made with ⟨beforeEq, same, _⟩ | ⟨between, beforeEq, restEq⟩
      · rw [beforeEq, same]
        exact ⟨⟨_, .cut prepared retries⟩, fun closes => nomatch closes⟩
      · obtain ⟨⟨found, earlier⟩, ends⟩ := ih restEq
        rw [beforeEq]
        exact ⟨⟨found, .goesOn prepared retries performed staying earlier⟩, ends⟩

/-! ### What a read finds -/

/-- The lines that the reads have brought have run, and none of them has asked to leave. -/
def Reaches (prompt : Option String) (shell : Shell) (held : List UInt8) (moments : List Moment)
    (reached : Shell) : Prop :=
  ∃ acts, Performs prompt shell acts (calls moments) reached ∧
    acts.map Act.reading = readingsOf held (reads moments) ∧ reached.exit = none

/-- What has come before a read, and the shell that it finds: after all that earlier reads have led
to, a reap of the job table, the reports of it and the prompt, and then reads that have been
interrupted. -/
inductive IsPrepared (prompt : Option String) (shell : Shell) (held : List UInt8) :
    List Moment → Shell → Prop where
  | intro {earlier : List Moment} {reached : Shell} {sightings : List Sighting}
      {finished : List FinishedJob} {jobs : JobTable} (retries : Nat)
      (reaches : Reaches prompt shell held earlier reached)
      (reaped : reached.jobs.Makes (.reaped sightings finished) jobs) :
      IsPrepared prompt shell held (earlier ++ due (pausing prompt sightings finished) retries)
        { reached with jobs }

private theorem isPrepared_of_prepareRead (unterminated : Byte.lineFeed ∉ held)
    (staying : shell.exit = none) (prepared : (prepareRead prompt shell).Leads pause ready)
    (retries : Nat) : IsPrepared prompt shell held (due pause retries) ready := by
  obtain ⟨sightings, finished, jobs, made, pauseEq, readyEq⟩ := exists_makes_of_prepareRead prepared
  have reaches : Reaches prompt shell held [] shell :=
    ⟨[], .done shell, (readingsOf_nothing unterminated).symm, staying⟩
  rw [pauseEq, readyEq]
  exact .intro retries reaches made

theorem IsPrepared.behind_round {found : Shell} {acts : List Act}
    (prepared : (prepareRead prompt shell).Leads pause ready) (retries : Nat)
    (carries : Carries prompt ready (readingsOf held [outcome]) acts acting next)
    (staying : next.exit = none) (isOpen : closing? [outcome] = none)
    (isPrepared : IsPrepared prompt next (Stream.remainder (held ++ bytesOf [outcome])) moments
      found) :
    IsPrepared prompt shell held (round pause retries outcome acting ++ moments) found := by
  cases isPrepared with
  | @intro earlier reached sightings finished jobs laterRetries reaches reaped =>
      obtain ⟨others, performs, acted, stays⟩ := reaches
      have whole : Reaches prompt shell held (round pause retries outcome acting ++ earlier)
          reached := by
        refine ⟨acts ++ others, ?_, ?_, stays⟩
        · rw [calls_append, calls_round, List.append_assoc]
          exact .paused prepared (carries.performs.trans performs)
        · rw [reads_append, reads_round, List.append_assoc, readingsOf_of_retries,
            readingsOf_append held [outcome] _ isOpen, List.map_append, acted,
            carries.whole staying]
      rw [← List.append_assoc]
      exact .intro laterRetries whole reaped

/-- The last read, with what the lines do that it has brought. There is no prompt among it, and only
these lines may have asked to leave. -/
inductive EndsWithRead (prompt : Option String) (shell : Shell) (held : List UInt8)
    (last : Shell) : List Moment → Prop where
  | intro {before : List Moment} {outcome : ReadOutcome} {acts : List Act}
      {acting : List (Event System.interface)} {found : Shell} (made : outcome ≠ .interrupted)
      (isPrepared : IsPrepared prompt shell held before found)
      (performs : Performs prompt found acts acting last) (silent : prompts acting = []) :
      EndsWithRead prompt shell held last (before ++ .ofRead outcome :: acting.map .ofCall)

/-- Where a session stands behind its moments: at a read that is due if it has been cut off, and
otherwise behind its last read. -/
theorem Course.at_end (course : Course prompt shell reader moments ending last)
    (placed : reader.WellPlaced) (unterminated : Byte.lineFeed ∉ reader.unread)
    (staying : shell.exit = none) :
    (ending = .cutOff → IsPrepared prompt shell reader.unread moments last) ∧
      (ending ≠ .cutOff → EndsWithRead prompt shell reader.unread last moments) := by
  induction course with
  | cut prepared retries =>
      exact ⟨fun _ => isPrepared_of_prepareRead unterminated staying prepared retries,
        fun finished => absurd rfl finished⟩
  | @ended _ ready _ _ _ _ _ _ prepared retries taken =>
      have readyStays : ready.exit = none := by
        rw [eq_of_prepareRead prepared]
        exact staying
      obtain ⟨acts, carries, _⟩ := exists_carries_of_ended placed unterminated readyStays taken
      refine ⟨fun cut => absurd cut (ne_cutOff_of_ended taken), fun _ => ?_⟩
      exact .intro (ne_interrupted_of_ended taken)
        (isPrepared_of_prepareRead unterminated staying prepared retries) carries.performs
        (prompts_of_ended taken)
  | goesOn prepared retries performed stays later ih =>
      obtain ⟨acts, carries, laterPlaced, cut, laterUnread⟩ :=
        exists_carries_of_goesOn placed staying prepared performed
      obtain ⟨due, ends⟩ := ih laterPlaced cut stays
      rw [laterUnread] at due ends
      constructor
      · intro cut
        exact (due cut).behind_round prepared retries carries stays rfl
      intro finished
      cases ends finished with
      | intro made isPrepared performs silent =>
          rw [← List.append_assoc]
          exact .intro made (isPrepared.behind_round prepared retries carries stays rfl) performs
            silent

/-! ### Sessions -/

variable {ended : SessionEnd}

/-- How the moments of a session keep prompts and reads together. -/
structure Paced (prompt : Option String) (shell : Shell) (moments : List Moment)
    (ended : SessionEnd) : Prop where
  counted : ended.reads = (reads moments).length
  /-- There is a prompt for each read that has not been interrupted, and for one that is due. -/
  shows : prompts (calls moments) = shown prompt
    (ended.reads - (reads moments).count .interrupted + if ended.ending = .cutOff then 1 else 0)
  prepared : ∀ before outcome behind, moments = before ++ .ofRead outcome :: behind →
    outcome ≠ .interrupted → ∃ found, IsPrepared prompt shell [] before found
  closed : ∀ before outcome behind, moments = before ++ .ofRead outcome :: behind →
    (outcome = .bytes [] ∨ ∃ message, outcome = .failed message) →
    reads behind = [] ∧ prompts (calls behind) = []
  due : ended.ending = .cutOff → IsPrepared prompt shell [] moments ended.shell
  last : ended.ending ≠ .cutOff → EndsWithRead prompt shell [] ended.shell moments

theorem Course.paced (course : Course prompt shell .empty moments ended.ending ended.shell)
    (count : ended.reads = (reads moments).length) (staying : shell.exit = none) :
    Paced prompt shell moments ended := by
  obtain ⟨due, ends⟩ := course.at_end LineReader.wellPlaced_empty List.not_mem_nil staying
  refine ⟨count, ?_, ?_, ?_, due, ends⟩
  · obtain ⟨times, promptsEq, lengthEq⟩ := course.prompts_eq
    have within := List.count_le_length (a := .interrupted) (l := reads moments)
    have timesEq : times = ended.reads - (reads moments).count .interrupted
        + if ended.ending = .cutOff then 1 else 0 := by
      rw [count]
      omega
    rw [promptsEq, timesEq]
  · intro before outcome behind split made
    obtain ⟨⟨found, earlier⟩, _⟩ := course.before_read split made
    have dueThere := earlier.at_end LineReader.wellPlaced_empty List.not_mem_nil staying
    exact ⟨found, dueThere.1 rfl⟩
  · intro before outcome behind split closes
    rcases closes with isEnd | ⟨message, isFailure⟩
    · rw [isEnd] at split
      exact (course.before_read split (nomatch ·)).2 rfl
    · rw [isFailure] at split
      exact (course.before_read split (nomatch ·)).2 rfl

/-- A session and its reads, whatever they are, however the lines come out and wherever it is cut
off. It shows the prompt as often as a read has come to something other than an interruption, and
once more for a read that is due. Before each such read, after all that the reads in front have led
to, the job table is reaped, what has been found is reported and the prompt is shown, and only
retries lie between. Behind the end of the input or a failed read there is neither prompt nor read;
nor is there behind the last read, while only a line that this read has brought may have asked to
leave. A session that is not cut off goes the same way if more reads are allowed. Whatever answers
its reads, a session goes one of these ways; over a list of outcomes it makes the first reads of its
input, and is not cut off. -/
theorem prompts_match_reads :
    (∀ prompt shell limit moments ended, (drive prompt shell limit).Leads moments ended →
      shell.exit = none → Paced prompt shell moments ended) ∧
    (∀ prompt shell limit more moments ended, (drive prompt shell limit).Leads moments ended →
      ended.ending ≠ .cutOff → limit ≤ more → (drive prompt shell more).Leads moments ended) ∧
    (∀ (ρ : Type) (source : ρ → Routine System.interface (ReadOutcome × ρ)) rest prompt shell limit
        events ended,
      (supply source (drive prompt shell limit) rest).Leads events ended ↔
        ∃ moments left, (drive prompt shell limit).Leads moments ended ∧
          Supplied source rest moments events left) ∧
    ∀ prompt shell outcomes events ended,
      (Session.run prompt shell outcomes).Leads events ended →
      ∃ moments, (drive prompt shell (outcomes.length + 1)).Leads moments ended ∧
        ended.ending ≠ .cutOff ∧ events = calls moments ∧
        reads moments = (inputOf outcomes).take ended.reads := by
  refine ⟨?_, fun _ _ _ _ _ _ => leads_drive_of_le, fun _ _ _ _ _ _ _ _ => leads_supply_iff,
    fun _ _ _ _ _ => exists_driven⟩
  intro prompt shell limit moments ended leads staying
  obtain ⟨course, count, _⟩ := course_of_drive leads
  exact course.paced count staying

/-- A job is started in the background, a read is interrupted, and a blank line is read; meanwhile
the job ends, and before the last read it is reported. -/
theorem prompts_match_reads_of_interruption :
    let prompting : Moment := .ofCall ⟨.showPrompt "> ", ()⟩
    let before : List Moment := [
      prompting,
      .ofRead (.bytes "a &\n".toUTF8.toList),
      .ofCall ⟨.fork (.segment ⟨⟨"a", ["a"]⟩, none, none⟩), .ok ⟨7⟩⟩,
      .ofCall ⟨.complain "[1] 7", ()⟩,
      .ofCall ⟨.poll ⟨7⟩, .ok none⟩,
      prompting,
      .ofRead .interrupted,
      .ofRead (.bytes [Byte.lineFeed]),
      .ofCall ⟨.poll ⟨7⟩, .ok (some (.exited 3))⟩,
      .ofCall ⟨.complain "[1] exit 3 a &", ()⟩,
      prompting]
    let moments := before ++ [.ofRead (.bytes [])]
    let ended : SessionEnd := ⟨.left 0, ⟨.empty, 0, none⟩, 4⟩
    (drive (some "> ") .new 4).Leads moments ended ∧ Shell.new.exit = none ∧
      Paced (some "> ") .new moments ended ∧
      (Session.run (some "> ") .new (reads moments)).Leads (calls moments) ended ∧
      prompts (calls moments) = ["> ", "> ", "> "] ∧
      ∃ found, IsPrepared (some "> ") .new [] before found := by
  intro prompting before moments ended
  let line : CommandLine := ⟨[.command ⟨"a", ["a"]⟩], .inherited, true⟩
  let emptied : LineReader := ⟨#[97, Byte.space, Byte.ampersand, Byte.lineFeed], 4, 4⟩
  have bytesEq : "a &\n".toUTF8.toList = [97, Byte.space, Byte.ampersand, Byte.lineFeed] := by
    decide +kernel
  have firstTaken :
      (LineReader.empty.feed [97, Byte.space, Byte.ampersand, Byte.lineFeed]).takeLines
        = ([.line line], emptied) := by
    decide +kernel
  have secondTaken : (emptied.feed [Byte.lineFeed]).takeLines
      = ([.blank], ⟨#[Byte.lineFeed], 1, 1⟩) := by
    decide +kernel
  have reported : jobReport ⟨1, line.render, 3⟩ = "[1] exit 3 a &" := by
    decide +kernel
  have leads : (drive (some "> ") .new 4).Leads moments ended := by
    dsimp only [moments, before, prompting]
    rw [← reported, bytesEq]
    refine .ask _ (.ask _ ?_)
    change (ofSystem (takeRead _ _ _ (.bytes (97 :: _))) >>= _).Leads _ _
    rw [takeRead, firstTaken]
    refine .ask _ (.ask _ (.ask _ (.ask _ (.ask _ (.ask _ ?_)))))
    change (ofSystem (takeRead _ _ _ (.bytes (Byte.lineFeed :: _))) >>= _).Leads _ _
    rw [takeRead, secondTaken]
    exact .ask _ (.ask _ (.ask _ (.ask _ (.finished _))))
  have paced := prompts_match_reads.1 (some "> ") .new 4 moments ended leads rfl
  have supplied := supplied_listed moments []
  rw [List.append_nil] at supplied
  have longer := prompts_match_reads.2.1 (some "> ") .new 4 5 moments ended leads (nomatch ·)
    (Nat.le_succ 4)
  have ran := (prompts_match_reads.2.2.1 _ listed (reads moments) (some "> ") .new 5
    (calls moments) ended).mpr ⟨moments, [], longer, supplied⟩
  refine ⟨leads, rfl, paced, ran, ?_, paced.prepared before (.bytes []) [] rfl (nomatch ·)⟩
  rw [paced.shows]
  decide

end Session

end PipelineShell

import PipelineShell.Proofs.Shell.Wiring

/-!
What the programs of a pipeline find. In each child the descriptors that were held for it are put
behind the standard numbers; everything else that was held is closed when the program is executed.
So each end of a pipe is left to one program, and what the shell has brought with it to all.
-/

namespace PipelineShell.Shell

open Routine Monitor

variable {file : Type} {initial : Descriptors (Endpoint file)} {pipes : Nat}
  {children : List (Child × Descriptors (Endpoint file))} {mayRefuse : Prop}

open Kernel (watch)

/-! ### In the child -/

def wired (source : Option (Fd × Endpoint file)) (target : Fd)
    (table : Descriptors (Endpoint file)) : Descriptors (Endpoint file) :=
  source.elim table fun entry => table.set target ⟨entry.2, false⟩

private theorem lookup_wired_self (source : Option (Fd × Endpoint file)) (target : Fd)
    (table : Descriptors (Endpoint file)) :
    (wired source target table).lookup target
      = (source.map Prod.snd).elim (table.lookup target) fun content => some ⟨content, false⟩ := by
  cases source with
  | none => rfl
  | some entry =>
      change (table.set target _).lookup target = _
      rw [Descriptors.lookup_set, if_pos rfl]
      rfl

private theorem lookup_wired_other (source : Option (Fd × Endpoint file)) {target fd : Fd}
    (different : fd ≠ target) (table : Descriptors (Endpoint file)) :
    (wired source target table).lookup fd = table.lookup fd := by
  cases source with
  | none => rfl
  | some entry =>
      change (table.set target _).lookup fd = _
      rw [Descriptors.lookup_set, if_neg different]

def AtTable (table : Descriptors (Endpoint file)) (kernel : Kernel file) : Prop :=
  kernel.table = table ∧ kernel.programs = []

private theorem triple_wire (source : Option (Fd × Endpoint file)) (target : Fd)
    (table : Descriptors (Endpoint file))
    (here : ∀ entry ∈ source.toList, table.lookup entry.1 = some ⟨entry.2, true⟩)
    (above : ∀ entry ∈ source.toList, entry.1 ≠ target) :
    (watch file mayRefuse).Triple (AtTable table) (Launch.wire (source.map Prod.fst) target)
      fun done kernel => if done then AtTable (wired source target table) kernel
        else mayRefuse ∧ kernel.programs = [] := by
  cases source with
  | none => exact triple_pure fun kernel start => start
  | some entry =>
      have found := here entry List.mem_cons_self
      have different := above entry List.mem_cons_self
      have copied : table.duplicateOnto entry.1 target
          = some (table.set target ⟨entry.2, false⟩) := by
        rw [Descriptors.duplicateOnto, found, Option.map_some, if_neg different]
      change (watch file mayRefuse).Triple _ (Launch.wire (some entry.1) target) _
      rw [Launch.wire, if_neg different]
      have asked : (watch file mayRefuse).Triple (AtTable table)
          (System.call (.duplicateOnto entry.1 target))
          fun reply kernel => if reply.toBool then AtTable (wired (some entry) target table) kernel
            else mayRefuse ∧ kernel.programs = [] := by
        apply triple_request
        rintro kernel reply ⟨tableEq, nothing⟩ allowed
        refine ⟨trivial, ?_⟩
        cases reply with
        | ok done =>
            have reached : kernel.after ⟨.duplicateOnto entry.1 target, .ok done⟩
                = { kernel with table := table.set target ⟨entry.2, false⟩ } := by
              change (kernel.change (kernel.table.duplicateOnto entry.1 target)).2 = _
              rw [tableEq, copied]
              rfl
            change AtTable _ (kernel.after _)
            rw [reached]
            exact ⟨rfl, nothing⟩
        | error errno =>
            refine ⟨?_, nothing⟩
            rcases allowed with refused | absent
            · exact refused
            · rw [tableEq, found] at absent
              cases absent
      exact asked.bind fun reply => triple_pure fun kernel left => left

/-- What a program finds: its input and its output are the source and the sink, or what they were in
the beginning; its other descriptors are those of the beginning. -/
structure IsWired (initial : Descriptors (Endpoint file)) (source sink : Option (Endpoint file))
    (table : Descriptors (Endpoint file)) : Prop where
  input : table.lookup Fd.input
    = source.elim (initial.lookup Fd.input) fun content => some ⟨content, false⟩
  output : table.lookup Fd.output
    = sink.elim (initial.lookup Fd.output) fun content => some ⟨content, false⟩
  error : table.lookup Fd.error = initial.lookup Fd.error
  beyond : ∀ fd, Fd.error < fd →
    table.afterExecute.lookup fd = initial.afterExecute.lookup fd

private theorem isWired_of_holds {input output : Option (Fd × Endpoint file)}
    {rest : List (Fd × Endpoint file)} {table : Descriptors (Endpoint file)}
    (holds : initial.Holds (input.toList ++ (output.toList ++ rest)) table) :
    IsWired initial (input.map Prod.snd) (output.map Prod.snd)
      (wired output Fd.output (wired input Fd.input table)) := by
  have standard : ∀ fd, fd ≤ Fd.error → table.lookup fd = initial.lookup fd := by
    intro fd isStandard
    apply holds.elsewhere
    intro member
    obtain ⟨entry, held, same⟩ := List.mem_map.mp member
    have above := holds.above entry held
    rw [same] at above
    exact Nat.not_lt.mpr isStandard above
  refine ⟨?_, ?_, ?_, fun fd above => ?_⟩
  · rw [lookup_wired_other output (by decide), lookup_wired_self, standard _ (by decide)]
  · rw [lookup_wired_self, lookup_wired_other input (by decide), standard _ (by decide)]
  · rw [lookup_wired_other output (by decide), lookup_wired_other input (by decide),
      standard _ (by decide)]
  · rw [Descriptors.lookup_afterExecute, Descriptors.lookup_afterExecute,
      lookup_wired_other output (Nat.ne_of_gt (Nat.lt_trans (by decide) above)),
      lookup_wired_other input (Nat.ne_of_gt (Nat.lt_trans (by decide) above))]
    by_cases member : fd ∈ (input.toList ++ (output.toList ++ rest)).map Prod.fst
    · obtain ⟨entry, held, same⟩ := List.mem_map.mp member
      rw [← same, holds.here entry held, holds.free entry held]
      rfl
    · rw [holds.elsewhere fd member]

private theorem triple_execute (command : Command) (table : Descriptors (Endpoint file)) :
    (watch file mayRefuse).Triple (AtTable table) (System.call (.execute command))
      fun _ kernel => kernel.programs = [(command, table)] := by
  apply triple_request
  rintro kernel reply ⟨tableEq, nothing⟩ _
  refine ⟨trivial, ?_⟩
  change kernel.programs ++ [(command, kernel.table)] = _
  rw [nothing, tableEq]
  rfl

theorem triple_launch {source sink : Option (Endpoint file)} {launch : Launch}
    {table : Descriptors (Endpoint file)} (draws : Draws initial source sink launch table) :
    (watch file mayRefuse).Triple (AtTable table) launch.routine
      fun _ kernel => (mayRefuse ∧ kernel.programs = []) ∨
        ∃ found, kernel.programs = [(launch.command, found)] ∧
          IsWired initial source sink found := by
  obtain ⟨input, output, rest, holds, inputEq, outputEq, sourceEq, sinkEq⟩ := draws
  rw [sourceEq, sinkEq]
  have inputHeld : ∀ entry ∈ input.toList, table.lookup entry.1 = some ⟨entry.2, true⟩ ∧
      Fd.error < entry.1 := by
    intro entry member
    have held := List.mem_append_left (output.toList ++ rest) member
    exact ⟨holds.here entry held, holds.above entry held⟩
  have outputHeld : ∀ entry ∈ output.toList, table.lookup entry.1 = some ⟨entry.2, true⟩ ∧
      Fd.error < entry.1 := by
    intro entry member
    have held := List.mem_append_right input.toList (List.mem_append_left rest member)
    exact ⟨holds.here entry held, holds.above entry held⟩
  have inputWired := @triple_wire file mayRefuse input Fd.input table
    (fun entry member => (inputHeld entry member).1)
    fun entry member => Nat.ne_of_gt (Nat.lt_trans (by decide) (inputHeld entry member).2)
  have outputWired := @triple_wire file mayRefuse output Fd.output (wired input Fd.input table)
    (fun entry member => by
      -- Putting the input in place has not overwritten the output, which is above it.
      have different : entry.1 ≠ Fd.input :=
        Nat.ne_of_gt (Nat.lt_trans (by decide) (outputHeld entry member).2)
      exact (lookup_wired_other input different table).trans (outputHeld entry member).1)
    fun entry member => Nat.ne_of_gt (Nat.lt_trans (by decide) (outputHeld entry member).2)
  rw [Launch.routine, inputEq, outputEq]
  apply inputWired.bind
  intro inputDone
  cases inputDone with
  | false => exact triple_pure fun kernel left => Or.inl left
  | true =>
      apply outputWired.bind
      intro outputDone
      cases outputDone with
      | false => exact triple_pure fun kernel left => Or.inl left
      | true =>
          apply (triple_execute launch.command _).bind
          intro errno
          have complained : (watch file mayRefuse).Triple
              (fun kernel => kernel.programs
                = [(launch.command, wired output Fd.output (wired input Fd.input table))])
              (Child.complain (Launch.failureMessage launch.command.program errno))
              fun _ kernel => kernel.programs
                = [(launch.command, wired output Fd.output (wired input Fd.input table))] :=
            Triple.bind (triple_request fun _ _ executed _ => ⟨trivial, executed⟩)
              fun _ => triple_pure fun _ executed => executed
          apply complained.bind
          intro _
          exact triple_pure fun kernel executed => Or.inr ⟨_, executed, isWired_of_holds holds⟩

private theorem programs_of_launch (pidOf : Nat → Pid)
    (others : (request : System.Call) → request.Reply) {source sink : Option (Endpoint file)}
    {launch : Launch} {table : Descriptors (Endpoint file)}
    (draws : Draws initial source sink launch table) :
    ∃ found, (launch.routine.run (Kernel.serve pidOf others) (.start table)).2.programs
        = [(launch.command, found)] ∧ IsWired initial source sink found := by
  have triple := (@triple_launch file initial False source sink launch table draws).of_world
    (Kernel.offers_serve pidOf others)
  have start : AtTable table (Kernel.start table) := ⟨rfl, rfl⟩
  rcases triple.run start with ⟨impossible, _⟩ | executed
  · exact impossible.elim
  · exact executed

/-! ### The whole pipeline -/

theorem Joined.length_eq {source sink : Option (Endpoint file)} {pipe : Nat}
    {commands : List Command} {made : List (Child × Descriptors (Endpoint file))}
    (joined : Joined initial sink source pipe commands made) : made.length = commands.length := by
  induction joined with
  | last draws => rfl
  | piped draws later ih => exact congrArg Nat.succ ih

/-- What a segment draws from, where the pipe behind it is the one before `pipe`. -/
def sourceFrom (first : Option (Endpoint file)) (pipe : Nat) : Nat → Option (Endpoint file)
  | 0 => first
  | index + 1 => some (.reading (pipe + index))

def sinkFrom (last : Option (Endpoint file)) (pipe count index : Nat) : Option (Endpoint file) :=
  if index + 1 < count then some (.writing (pipe + index)) else last

theorem Joined.exists_draws {source sink : Option (Endpoint file)} {pipe : Nat}
    {commands : List Command} {made : List (Child × Descriptors (Endpoint file))}
    (joined : Joined initial sink source pipe commands made) {index : Nat} {command : Command}
    (found : commands[index]? = some command) :
    ∃ launch table, made[index]? = some (.segment launch, table) ∧ launch.command = command ∧
      Draws initial (sourceFrom source pipe index) (sinkFrom sink pipe commands.length index)
        launch table := by
  induction joined generalizing index with
  | @last source pipe launch table draws =>
      cases index with
      | zero => exact ⟨launch, table, rfl, Option.some.inj found, draws⟩
      | succ index => cases found
  | @piped source pipe launch table rest made draws later ih =>
      have further : rest ≠ [] := by
        intro impossible
        rw [impossible] at later
        cases later
      cases index with
      | zero =>
          have behind : 0 + 1 < (launch.command :: rest).length :=
            Nat.succ_lt_succ (List.length_pos_iff.mpr further)
          refine ⟨launch, table, rfl, Option.some.inj found, ?_⟩
          rw [sinkFrom, if_pos behind]
          exact draws
      | succ index =>
          obtain ⟨other, otherTable, place, same, drawsOther⟩ := ih found
          refine ⟨other, otherTable, place, same, ?_⟩
          have sourceEq : sourceFrom source pipe (index + 1)
              = sourceFrom (some (.reading pipe)) (pipe + 1) index := by
            cases index with
            | zero => rfl
            | succ index => exact congrArg some (congrArg Endpoint.reading (by omega))
          have sinkEq : sinkFrom sink pipe (launch.command :: rest).length (index + 1)
              = sinkFrom sink (pipe + 1) rest.length index := by
            have shifted : pipe + (index + 1) = pipe + 1 + index := by
              omega
            rw [sinkFrom, sinkFrom, List.length_cons, shifted]
            simp only [Nat.add_lt_add_iff_right]
          rw [sourceEq, sinkEq]
          exact drawsOther

/-- What the last segment of a line writes to, unless it is the output of the shell. -/
def targetOf : Output → Option (Endpoint file)
  | .inherited => none
  | .emptied _ => some .target
  | .appended _ => some .target

theorem triple_openTarget (output : Output) :
    (watch file mayRefuse).Triple (Kernel.Holds initial [] pipes children) (openTarget output).run
      (either (fun fd kernel => ∃ given : Option (Fd × Endpoint file),
          kernel.Holds initial given.toList pipes children ∧
          fd = given.map Prod.fst ∧ targetOf output = given.map Prod.snd)
        fun _ => Refused (mayRefuse ∨ output.HoldsNul) initial [] children) := by
  have opened : ∀ path append, output.target? = some (path, append) →
      targetOf output = some (.target : Endpoint file) →
      (watch file mayRefuse).Triple (Kernel.Holds initial [] pipes children)
        (some <$> openFile path append).run
        (either (fun fd kernel => ∃ given : Option (Fd × Endpoint file),
            kernel.Holds initial given.toList pipes children ∧
            fd = given.map Prod.fst ∧ targetOf output = given.map Prod.snd)
          fun _ => Refused (mayRefuse ∨ output.HoldsNul) initial [] children) := by
    intro path append isTarget sinkEq
    have named : (watch file mayRefuse).Triple (Kernel.Holds initial [] pipes children)
        (openFile path append).run
        (either (fun fd => Kernel.Holds initial [(fd, .target)] pipes children)
          fun _ => Refused (mayRefuse ∨ output.HoldsNul) initial [] children) := by
      refine (triple_openFile path append).imp (fun _ holds => holds) fun outcome kernel left => ?_
      cases outcome with
      | ok fd => exact left
      | error fault =>
          exact ⟨left.1.imp id fun nul => ⟨path, append, isTarget, nul⟩, left.2⟩
    apply named.attempt_bind
    intro fd
    exact triple_attempt_pure fun kernel holds => ⟨some (fd, .target), holds, rfl, sinkEq⟩
  cases output with
  | inherited => exact triple_attempt_pure fun kernel holds => ⟨none, holds, rfl, rfl⟩
  | emptied path => exact opened path false rfl rfl
  | appended path => exact opened path true rfl rfl

theorem triple_waitRemaining {pre : Kernel file → Prop} (last : Int) (failure : Option Errno)
    (pids : List Pid) :
    (watch file mayRefuse).Triple pre (waitRemaining last failure pids) fun _ => pre := by
  have waited : ∀ pid, (watch file mayRefuse).Triple pre (System.waitFor pid) fun _ => pre :=
    fun pid => Triple.bind (triple_request fun _ _ holds _ => ⟨trivial, holds⟩)
      fun _ => triple_pure fun _ holds => holds
  induction pids generalizing last failure with
  | nil => cases failure <;> exact triple_pure fun _ holds => holds
  | cons pid rest ih =>
      apply (waited pid).bind
      intro outcome
      cases outcome with
      | ok status => exact ih status failure
      | error errno => exact ih last _

/-- A pipeline is started as a whole, or as many of its segments as the system lets start; none of
these is the last. -/
theorem triple_pipeline (stage : Stage) (output : Output) (nonempty : stage.commands ≠ []) :
    (watch file mayRefuse).Triple (Kernel.Holds initial [] pipes children)
      (do let fd ← openTarget output; startStage stage fd : Attempt (List Pid)).run
      (either (fun pids kernel => pids.length = stage.commands.length ∧ ∃ later made,
          kernel.Holds initial [] later (children ++ made) ∧
          Joined initial (targetOf output) none pipes stage.commands made)
        fun _ kernel => (mayRefuse ∨ output.HoldsNul) ∧ ∃ later made,
          kernel.Holds initial [] later (children ++ made) ∧
          ∀ entry ∈ made, IsPiped initial entry) := by
  have opened : (watch file mayRefuse).Triple (Kernel.Holds initial [] pipes children)
      (openTarget output).run
      (either (fun fd kernel => ∃ given : Option (Fd × Endpoint file),
          kernel.Holds initial given.toList pipes children ∧
          fd = given.map Prod.fst ∧ targetOf output = given.map Prod.snd)
        fun _ kernel => (mayRefuse ∨ output.HoldsNul) ∧ ∃ later made,
          kernel.Holds initial [] later (children ++ made) ∧
          ∀ entry ∈ made, IsPiped initial entry) := by
    refine (triple_openTarget output).imp (fun _ holds => holds) fun outcome kernel left => ?_
    cases outcome with
    | ok fd => exact left
    | error fault =>
        obtain ⟨reason, later, holds⟩ := left
        refine ⟨reason, later, [], ?_, List.forall_mem_nil _⟩
        rw [List.append_nil]
        exact holds
  apply opened.attempt_bind
  intro target
  apply triple_exists
  intro given
  apply triple_assuming
  rintro ⟨targetEq, sinkEq⟩
  rw [targetEq, sinkEq]
  apply (triple_startSegments none given stage.commands nonempty pipes children).lift.attempt_bind
  intro started
  cases faultEq : started.fault with
  | none =>
      refine triple_attempt_pure ?_
      rintro kernel ⟨later, made, holds, ⟨_, each, joined⟩ | ⟨_, faulty, _⟩⟩
      · exact ⟨each, later, made, holds, joined⟩
      · exact absurd faultEq faulty
  | some fault =>
      apply (triple_waitRemaining 0 none started.pids).lift.attempt_bind
      intro _
      refine triple_throw ?_
      rintro kernel ⟨later, made, holds, ⟨intact, _, _⟩ | ⟨refused, _, piped⟩⟩
      · rw [faultEq] at intact
        cases intact
      · exact ⟨Or.inl refused, later, made, holds, piped⟩

/-! ### After the execution -/

private theorem exists_own_of_lookup {first : Descriptors file} {fd : Fd}
    {found : Descriptor (Endpoint file)} (present : first.owned.lookup fd = some found) :
    ∃ own, found.file = .own own := by
  rw [Descriptors.lookup_owned] at present
  obtain ⟨original, _, foundEq⟩ := Option.map_eq_some_iff.mp present
  exact ⟨original.file, by rw [← foundEq]⟩

theorem eq_or_exists_own {first : Descriptors file} {drawn : Option (Endpoint file)} {fd : Fd}
    {found : Descriptor (Endpoint file)}
    (present : (drawn.elim (first.owned.lookup fd) fun content => some ⟨content, false⟩)
      = some found) : drawn = some found.file ∨ ∃ own, found.file = .own own := by
  cases drawn with
  | none => exact Or.inr (exists_own_of_lookup present)
  | some content =>
      rw [← Option.some.inj present]
      exact Or.inl rfl

/-- Of all that the shell has made, just what a program draws from or into survives. -/
theorem IsWired.survives_iff {first : Descriptors file} {source sink : Option (Endpoint file)}
    {table : Descriptors (Endpoint file)} (isWired : IsWired first.owned source sink table)
    {content : Endpoint file} (made : ∀ own, content ≠ .own own) :
    (∃ fd found, table.afterExecute.lookup fd = some found ∧ found.file = content) ↔
      source = some content ∨ sink = some content := by
  constructor
  · rintro ⟨fd, found, survives, same⟩
    have given : source = some found.file ∨ sink = some found.file ∨
        ∃ own, found.file = .own own := by
      by_cases beyond : Fd.error < fd
      · rw [isWired.beyond fd beyond, Descriptors.lookup_afterExecute] at survives
        exact Or.inr (Or.inr (exists_own_of_lookup (Option.filter_eq_some_iff.mp survives).1))
      · rw [Descriptors.lookup_afterExecute] at survives
        have present := (Option.filter_eq_some_iff.mp survives).1
        match fd, beyond with
        | 0, _ =>
            exact (eq_or_exists_own (isWired.input.symm.trans present)).imp id Or.inr
        | 1, _ => exact Or.inr (eq_or_exists_own (isWired.output.symm.trans present))
        | 2, _ => exact Or.inr (Or.inr (exists_own_of_lookup (isWired.error.symm.trans present)))
        | fd + 3, beyond => exact (beyond (Nat.le_add_left 3 fd)).elim
    rw [same] at given
    exact given.imp id fun rest => rest.resolve_right fun ⟨own, impossible⟩ => made own impossible
  · rintro (sourceEq | sinkEq)
    · refine ⟨Fd.input, ⟨content, false⟩, ?_, rfl⟩
      rw [Descriptors.lookup_afterExecute, isWired.input, sourceEq]
      rfl
    · refine ⟨Fd.output, ⟨content, false⟩, ?_, rfl⟩
      rw [Descriptors.lookup_afterExecute, isWired.output, sinkEq]
      rfl

private theorem writing_iff {output : Output} {count index pipe : Nat} (inside : pipe + 1 < count) :
    (sourceFrom none 0 index = some (.writing pipe : Endpoint file) ∨
      sinkFrom (targetOf output) 0 count index = some (.writing pipe : Endpoint file)) ↔
      index = pipe := by
  have noSource : sourceFrom none 0 index ≠ some (.writing pipe : Endpoint file) := by
    cases index <;> exact fun impossible => nomatch impossible
  have noTarget : targetOf output ≠ some (.writing pipe : Endpoint file) := by
    cases output <;> exact fun impossible => nomatch impossible
  rw [or_iff_right noSource, sinkFrom, Nat.zero_add]
  split
  · rw [Option.some.injEq, Endpoint.writing.injEq]
  · rename_i isLast
    refine ⟨fun impossible => (noTarget impossible).elim, fun same => ?_⟩
    rw [same] at isLast
    exact (isLast inside).elim

private theorem reading_iff {output : Output} {count index pipe : Nat} :
    (sourceFrom none 0 index = some (.reading pipe : Endpoint file) ∨
      sinkFrom (targetOf output) 0 count index = some (.reading pipe : Endpoint file)) ↔
      index = pipe + 1 := by
  have noSink : sinkFrom (targetOf output) 0 count index
      ≠ some (.reading pipe : Endpoint file) := by
    rw [sinkFrom]
    split
    · exact fun impossible => nomatch impossible
    · cases output <;> exact fun impossible => nomatch impossible
  rw [or_iff_left noSink]
  cases index with
  | zero => exact ⟨(nomatch ·), (nomatch ·)⟩
  | succ before =>
      rw [sourceFrom, Nat.zero_add, Option.some.injEq, Endpoint.reading.injEq,
        Nat.add_right_cancel_iff]

/-- Whatever descriptors the shell has when it starts a pipeline, its own standard ones or not, the
pipeline is started, a child for each command, and the shell is left with the descriptors it had. In
each child the command is executed once, and then its input is the reading end of the pipe behind
the segment before it, its output the writing end of the pipe in front of the next; at the ends of
the pipeline they are what the shell has there, or the target. Everything else is as in the shell:
each end of a pipe survives in one program alone. -/
theorem segments_are_wired (pidOf : Nat → Pid)
    (others : (request : System.Call) → request.Reply) (initial : Descriptors file)
    (stage : Stage) (output : Output) (nonempty : stage.commands ≠ [])
    (opens : ∀ path, output = .emptied path ∨ output = .appended path → hasNul path = false) :
    let count := stage.commands.length
    let before := initial.owned
    let system : World System.interface (Kernel file) := Kernel.serve pidOf others
    let ended := Routine.run system
      (do let fd ← openTarget output; startStage stage fd : Attempt (List Pid)).run
      (.start before)
    (∃ pids, ended.1 = .ok pids ∧ pids.length = count) ∧
    (∀ fd, ended.2.table.lookup fd = before.lookup fd) ∧
    ended.2.children.length = count ∧
    ∀ index command, stage.commands[index]? = some command → ∃ launch table found,
      ended.2.children[index]? = some (.segment launch, table) ∧
      (launch.routine.run system (.start table)).2.programs = [(command, found)] ∧
      (found.lookup Fd.input = if index = 0 then before.lookup Fd.input
        else some ⟨.reading (index - 1), false⟩) ∧
      (found.lookup Fd.output = if index + 1 < count then some ⟨.writing index, false⟩
        else (targetOf output).elim (before.lookup Fd.output) fun content =>
          some ⟨content, false⟩) ∧
      found.lookup Fd.error = before.lookup Fd.error ∧
      (∀ fd, Fd.error < fd → found.afterExecute.lookup fd = before.afterExecute.lookup fd) ∧
      ∀ pipe, pipe + 1 < count →
        ((∃ fd survivor, found.afterExecute.lookup fd = some survivor ∧
          survivor.file = .writing pipe) ↔ index = pipe) ∧
        ((∃ fd survivor, found.afterExecute.lookup fd = some survivor ∧
          survivor.file = .reading pipe) ↔ index = pipe + 1) := by
  intro count before system ended
  have start : (Kernel.start before).Holds before [] 0 [] :=
    ⟨Descriptors.holds_nil before, rfl, rfl⟩
  have left := ((@triple_pipeline file before 0 [] False stage output nonempty).of_world
    (Kernel.offers_serve pidOf others)).run start
  change either _ _ ended.1 ended.2 at left
  cases outcomeEq : ended.1 with
  | error fault =>
      rw [outcomeEq] at left
      obtain ⟨impossible | ⟨path, append, isTarget, nul⟩, _⟩ := left
      · exact impossible.elim
      · have passes := opens path (by cases output <;> cases isTarget <;> simp)
        rw [nul] at passes
        cases passes
  | ok pids =>
      rw [outcomeEq] at left
      obtain ⟨each, pipes, made, holds, joined⟩ := left
      rw [holds.children]
      refine ⟨⟨pids, rfl, each⟩, fun fd => holds.table.elsewhere fd List.not_mem_nil,
        joined.length_eq, fun index command found => ?_⟩
      obtain ⟨launch, table, place, same, draws⟩ := joined.exists_draws found
      obtain ⟨wiredTable, programs, isWired⟩ :=
        programs_of_launch pidOf others draws
      rw [same] at programs
      refine ⟨launch, table, wiredTable, place, programs, ?_, ?_, isWired.error, isWired.beyond,
        fun pipe inside => ⟨?_, ?_⟩⟩
      · rw [isWired.input]
        cases index with
        | zero => rfl
        | succ before => rw [sourceFrom, Nat.zero_add]; rfl
      · rw [isWired.output, sinkFrom, Nat.zero_add]
        split
        · rfl
        · rfl
      · refine (isWired.survives_iff fun own impossible => ?_).trans (writing_iff inside)
        cases impossible
      · refine (isWired.survives_iff fun own impossible => ?_).trans reading_iff
        cases impossible

/-- The line `echo hi | cat > out`, where the shell has neither an input nor an output. -/
theorem segments_are_wired_of_closed_input :
    let initial : Descriptors Unit := ⟨[none, none, some ⟨(), false⟩]⟩
    let stage : Stage := ⟨.always, [⟨"echo", ["echo", "hi"]⟩, ⟨"cat", ["cat"]⟩]⟩
    stage.commands ≠ [] ∧ hasNul "out" = false ∧ ∃ kernel,
      (Routine.run (Kernel.serve Pid.mk Kernel.refuse)
        (do let fd ← openTarget (.emptied "out"); startStage stage fd : Attempt (List Pid)).run
        (.start initial.owned)).2 = kernel ∧
      ∃ launch table found, kernel.children[1]? = some (.segment launch, table) ∧
        (launch.routine.run (Kernel.serve Pid.mk Kernel.refuse) (.start table)).2.programs
          = [(⟨"cat", ["cat"]⟩, found)] ∧
        found.lookup Fd.input = some ⟨.reading 0, false⟩ ∧
        found.lookup Fd.output = some ⟨.target, false⟩ := by
  intro initial stage
  have nonempty : stage.commands ≠ [] := List.cons_ne_nil _ _
  have passes : hasNul "out" = false := by decide
  have opens : ∀ path, Output.emptied "out" = .emptied path ∨
      Output.emptied "out" = .appended path → hasNul path = false := by
    rintro path (same | impossible)
    · cases same
      exact passes
    · cases impossible
  obtain ⟨_, _, _, each⟩ :=
    segments_are_wired Pid.mk Kernel.refuse initial stage (.emptied "out") nonempty opens
  obtain ⟨launch, table, found, place, programs, input, output, _⟩ := each 1 ⟨"cat", ["cat"]⟩ rfl
  exact ⟨nonempty, passes, _, rfl, launch, table, found, place, programs, input, output⟩

end PipelineShell.Shell

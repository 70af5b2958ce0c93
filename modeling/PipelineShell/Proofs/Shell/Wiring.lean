import PipelineShell.Proofs.Shell.Descriptors
import PipelineShell.Proofs.System.Kernel
import PipelineShell.Shell.Child

/-!
The wiring of a pipeline. While a pipeline is started, the shell holds at most the end of the pipe
behind the last segment, the two ends of the next one and the target of the line, each above the
standard descriptors. A segment gets the table of that moment, and its program gets its input and
its output out of what is held; of what was there before, nothing is touched. This is so whichever
free numbers the system chooses, and up to the first request that it refuses.
-/

namespace PipelineShell

open Routine Monitor

variable {file : Type}

/-! ### What is held -/

/-- Beside what was there in the beginning the table has new descriptors, which are above the
standard ones and closed when a program is executed. -/
structure Descriptors.Holds (initial : Descriptors (Endpoint file))
    (held : List (Fd × Endpoint file)) (table : Descriptors (Endpoint file)) : Prop where
  distinct : (held.map Prod.fst).Nodup
  above : ∀ entry ∈ held, Fd.error < entry.1
  free : ∀ entry ∈ held, initial.lookup entry.1 = none
  here : ∀ entry ∈ held, table.lookup entry.1 = some ⟨entry.2, true⟩
  elsewhere : ∀ fd, fd ∉ held.map Prod.fst → table.lookup fd = initial.lookup fd

namespace Descriptors

variable {initial table later : Descriptors (Endpoint file)} {held : List (Fd × Endpoint file)}
  {fd : Fd} {content : Endpoint file}

private theorem holds_of_same (same : ∀ fd, table.lookup fd = initial.lookup fd) :
    initial.Holds [] table :=
  ⟨List.nodup_nil, List.forall_mem_nil _, List.forall_mem_nil _, List.forall_mem_nil _,
    fun fd _ => same fd⟩

theorem holds_nil (initial : Descriptors (Endpoint file)) : initial.Holds [] initial :=
  holds_of_same fun _ => rfl

theorem Holds.perm {other : List (Fd × Endpoint file)} (holds : initial.Holds held table)
    (same : held.Perm other) : initial.Holds other table := by
  refine ⟨(same.map Prod.fst).nodup_iff.mp holds.distinct, ?_, ?_, ?_, ?_⟩
  · exact fun entry member => holds.above entry (same.mem_iff.mpr member)
  · exact fun entry member => holds.free entry (same.mem_iff.mpr member)
  · exact fun entry member => holds.here entry (same.mem_iff.mpr member)
  · exact fun fd absent => holds.elsewhere fd fun member =>
      absent ((same.map Prod.fst).mem_iff.mp member)

theorem Holds.add (holds : initial.Holds held table) (adds : table.Adds fd ⟨content, true⟩ later)
    (above : Fd.error < fd) : initial.Holds ((fd, content) :: held) later := by
  have fresh : ∀ entry ∈ held, entry.1 ≠ fd := by
    intro entry member same
    have occupied := holds.here entry member
    rw [same, adds.free] at occupied
    cases occupied
  have absent : fd ∉ held.map Prod.fst := by
    intro member
    obtain ⟨entry, inside, same⟩ := List.mem_map.mp member
    exact fresh entry inside same
  refine ⟨List.nodup_cons.mpr ⟨absent, holds.distinct⟩, ?_, ?_, ?_, ?_⟩
  · exact List.forall_mem_cons.mpr ⟨above, holds.above⟩
  · exact List.forall_mem_cons.mpr ⟨(holds.elsewhere fd absent).symm.trans adds.free, holds.free⟩
  · refine List.forall_mem_cons.mpr ⟨adds.lookup_self, fun entry member => ?_⟩
    rw [adds.lookup_other (fresh entry member)]
    exact holds.here entry member
  · intro other outside
    obtain ⟨different, behind⟩ := List.ne_and_not_mem_of_not_mem_cons outside
    rw [adds.lookup_other different]
    exact holds.elsewhere other behind

theorem Holds.close (holds : initial.Holds ((fd, content) :: held) table) :
    initial.Holds held (table.close fd) := by
  obtain ⟨absent, distinct⟩ := List.nodup_cons.mp holds.distinct
  refine ⟨distinct, fun entry member => holds.above entry (List.mem_cons_of_mem _ member),
    fun entry member => holds.free entry (List.mem_cons_of_mem _ member), ?_, ?_⟩
  · intro entry member
    rw [lookup_close, if_neg]
    · exact holds.here entry (List.mem_cons_of_mem _ member)
    · intro same
      exact absent (List.mem_map.mpr ⟨entry, member, same⟩)
  · intro other outside
    rw [lookup_close]
    split
    · rename_i same
      rw [same]
      exact (holds.free (fd, content) List.mem_cons_self).symm
    · rename_i different
      exact holds.elsewhere other fun member =>
        (List.mem_cons.mp member).elim different outside

theorem Holds.of_nil (holds : initial.Holds held table) (back : table.Holds [] later) :
    initial.Holds held later := by
  have same : ∀ fd, later.lookup fd = table.lookup fd :=
    fun fd => back.elsewhere fd List.not_mem_nil
  refine ⟨holds.distinct, holds.above, holds.free, fun entry member => ?_, fun fd absent => ?_⟩
  · rw [same]
    exact holds.here entry member
  · rw [same]
    exact holds.elsewhere fd absent

end Descriptors

/-- What the system has put down while the descriptors are held. -/
structure Kernel.Holds (initial : Descriptors (Endpoint file)) (held : List (Fd × Endpoint file))
    (pipes : Nat) (children : List (Child × Descriptors (Endpoint file)))
    (kernel : Kernel file) : Prop where
  table : initial.Holds held kernel.table
  pipes : kernel.pipes = pipes
  children : kernel.children = children

theorem Kernel.Holds.perm {initial : Descriptors (Endpoint file)}
    {held other : List (Fd × Endpoint file)} {pipes : Nat}
    {children : List (Child × Descriptors (Endpoint file))} {kernel : Kernel file}
    (holds : kernel.Holds initial held pipes children) (same : held.Perm other) :
    kernel.Holds initial other pipes children :=
  ⟨holds.table.perm same, holds.pipes, holds.children⟩

theorem Kernel.Holds.of_nil {initial base : Descriptors (Endpoint file)}
    {held : List (Fd × Endpoint file)} {pipes : Nat}
    {children : List (Child × Descriptors (Endpoint file))} {kernel : Kernel file}
    (back : kernel.Holds base [] pipes children) (holds : initial.Holds held base) :
    kernel.Holds initial held pipes children :=
  ⟨holds.of_nil back.table, back.pipes, back.children⟩

namespace Shell

variable {initial : Descriptors (Endpoint file)} {held : List (Fd × Endpoint file)} {pipes : Nat}
  {children : List (Child × Descriptors (Endpoint file))} {mayRefuse : Prop}

open Kernel (watch)

/-! ### Single descriptors -/

private theorem triple_close {post : Kernel file → Prop} (fd : Fd) :
    (watch file mayRefuse).Triple
      (fun kernel => post { kernel with table := kernel.table.close fd })
      (System.call (.close fd)) fun _ => post :=
  triple_request fun _ _ holds _ => ⟨trivial, holds⟩

structure IsNew (base : Descriptors (Endpoint file)) (content : Endpoint file) (pipes : Nat)
    (children : List (Child × Descriptors (Endpoint file))) (fd : Fd) (kernel : Kernel file) :
    Prop where
  adds : base.Adds fd ⟨content, true⟩ kernel.table
  pipes : kernel.pipes = pipes
  children : kernel.children = children

theorem IsNew.holds {base : Descriptors (Endpoint file)} {content : Endpoint file} {fd : Fd}
    {kernel : Kernel file} (new : IsNew base content pipes children fd kernel)
    (holds : initial.Holds held base) (above : Fd.error < fd) :
    kernel.Holds initial ((fd, content) :: held) pipes children :=
  ⟨holds.add new.adds above, new.pipes, new.children⟩

/-- Wherever it has been, a descriptor that is new ends up above the standard ones, or is let go
of. -/
theorem triple_raise {base : Descriptors (Endpoint file)} {content : Endpoint file} (fd : Fd) :
    (watch file mayRefuse).Triple (IsNew base content pipes children fd) (raise fd)
      (either (fun raised kernel =>
          IsNew base content pipes children raised kernel ∧ Fd.error < raised)
        fun _ kernel => mayRefuse ∧ kernel.Holds base [] pipes children) := by
  rw [raise]
  split
  · rename_i above
    exact triple_pure fun kernel new => ⟨new, above⟩
  · let moved : Except Errno Fd → Kernel file → Prop := either (fun raised kernel =>
        IsNew base content pipes children raised kernel ∧ Fd.error < raised)
      fun _ kernel => mayRefuse ∧ kernel.Holds base [] pipes children
    have copied : (watch file mayRefuse).Triple (IsNew base content pipes children fd)
        (System.call (.duplicateAbove fd (Fd.error + 1))) fun reply kernel =>
          moved reply { kernel with table := kernel.table.close fd } := by
      apply triple_request
      intro kernel reply new allowed
      refine ⟨trivial, ?_⟩
      have here := new.adds.lookup_self
      cases reply with
      | error errno =>
          have refused : mayRefuse := by
            rcases allowed with refused | nothing
            · exact refused
            · rw [here] at nothing
              cases nothing
          exact ⟨refused, Descriptors.holds_of_same new.adds.lookup_close, new.pipes, new.children⟩
      | ok copy =>
          obtain ⟨above, free⟩ := allowed
          have reached : kernel.after ⟨.duplicateAbove fd (Fd.error + 1), .ok copy⟩
              = { kernel with table := kernel.table.set copy ⟨content, true⟩ } := by
            change (kernel.change ((kernel.table.lookup fd).map _)).2 = _
            rw [here]
            rfl
          change moved (.ok copy) { kernel.after _ with table := (kernel.after _).table.close fd }
          rw [reached]
          exact ⟨⟨new.adds.moved free, new.pipes, new.children⟩, above⟩
    apply copied.bind
    intro reply
    have closed : (watch file mayRefuse).Triple
        (fun kernel => moved reply { kernel with table := kernel.table.close fd })
        (System.call (.close fd)) fun _ => moved reply := triple_close fd
    exact closed.bind fun _ => triple_pure fun _ new => new

def Refused (reason : Prop) (initial : Descriptors (Endpoint file))
    (held : List (Fd × Endpoint file)) (children : List (Child × Descriptors (Endpoint file)))
    (kernel : Kernel file) : Prop :=
  reason ∧ ∃ pipes, kernel.Holds initial held pipes children

private theorem triple_raise_held {base : Descriptors (Endpoint file)} {content : Endpoint file}
    (holds : initial.Holds held base) (fd : Fd) :
    (watch file mayRefuse).Triple (IsNew base content pipes children fd) (raise fd)
      (either (fun raised => Kernel.Holds initial ((raised, content) :: held) pipes children)
        fun _ => Refused mayRefuse initial held children) := by
  refine (triple_raise fd).imp (fun _ new => new) fun outcome kernel left => ?_
  cases outcome with
  | ok raised => exact left.1.holds holds left.2
  | error errno => exact ⟨left.1, pipes, left.2.of_nil holds⟩

theorem triple_release {content : Endpoint file} (fd : Fd) :
    (watch file mayRefuse).Triple
      (Kernel.Holds initial ((fd, content) :: held) pipes children) (release (some fd))
      fun _ => Kernel.Holds initial held pipes children :=
  (triple_close fd).imp (fun _ holds => ⟨holds.table.close, holds.pipes, holds.children⟩)
    fun _ _ holds => holds

private theorem triple_release_refused {content : Endpoint file} (fd : Fd) :
    (watch file mayRefuse).Triple
      (Refused mayRefuse initial ((fd, content) :: held) children) (release (some fd))
      fun _ => Refused mayRefuse initial held children := by
  rintro state events value ⟨refused, later, holds⟩ leads allowed
  obtain ⟨met, left⟩ := triple_release fd state events value holds leads allowed
  exact ⟨met, refused, later, left⟩

private theorem triple_close_added {base table : Descriptors (Endpoint file)}
    {content : Endpoint file}
    {fd : Fd} (adds : table.Adds fd ⟨content, true⟩ base) (holds : initial.Holds held table) :
    (watch file mayRefuse).Triple
      (fun kernel => mayRefuse ∧ kernel.Holds base [] pipes children)
      (System.call (.close fd)) fun _ => Refused mayRefuse initial held children := by
  refine (triple_close fd).imp (fun kernel back => ?_) fun _ _ left => left
  obtain ⟨refused, back⟩ := back
  refine ⟨refused, pipes, holds.of_nil (Descriptors.holds_of_same fun other => ?_), back.pipes,
    back.children⟩
  rw [Descriptors.lookup_close, back.table.elsewhere other List.not_mem_nil,
    ← Descriptors.lookup_close]
  exact adds.lookup_close other

theorem triple_openFile (path : String) (append : Bool) :
    (watch file mayRefuse).Triple (Kernel.Holds initial held pipes children)
      (openFile path append).run
      (either (fun fd => Kernel.Holds initial ((fd, .target) :: held) pipes children)
        fun _ => Refused (mayRefuse ∨ hasNul path = true) initial held children) := by
  have opened : (watch file mayRefuse).Triple (Kernel.Holds initial held pipes children)
      (System.call (.openOutput path append)) (either (fun fd kernel => ∃ base,
          IsNew base .target pipes children fd kernel ∧ initial.Holds held base)
        fun _ kernel => kernel.Holds initial held pipes children ∧ mayRefuse) := by
    apply triple_request
    intro kernel reply holds allowed
    refine ⟨trivial, ?_⟩
    cases reply with
    | error errno => exact ⟨holds, allowed⟩
    | ok fd =>
        exact ⟨kernel.table, ⟨Descriptors.adds_set allowed _, holds.pipes, holds.children⟩,
          holds.table⟩
  rw [openFile]
  split
  · rename_i nul
    exact triple_throw fun kernel holds => ⟨Or.inr nul, pipes, holds⟩
  · apply opened.lift.attempt_bind
    intro reply
    cases reply with
    | error errno =>
        exact triple_throw fun kernel refused => ⟨Or.inl refused.2, pipes, refused.1⟩
    | ok fd =>
        apply triple_exists
        intro base
        apply triple_assuming
        intro holds
        apply (triple_raise_held holds fd).lift.attempt_bind
        intro raised
        cases raised with
        | error errno => exact triple_throw fun kernel left => ⟨Or.inl left.1, left.2⟩
        | ok raised => exact triple_attempt_pure fun kernel left => left

private theorem triple_release_given (given : Option (Fd × Endpoint file))
    {rest : List (Fd × Endpoint file)} (split : held.Perm (given.toList ++ rest)) :
    (watch file mayRefuse).Triple (Kernel.Holds initial held pipes children)
      (release (given.map Prod.fst)) fun _ => Kernel.Holds initial rest pipes children := by
  cases given with
  | none => exact triple_pure fun _ holds => holds.perm split
  | some entry =>
      exact (triple_release entry.1).imp (fun _ holds => holds.perm split) fun _ _ holds => holds

private theorem triple_release_both {first second : Option (Fd × Endpoint file)} {value : Started}
    {post : Started → Kernel file → Prop} (split : held.Perm (first.toList ++ second.toList))
    (behind : ∀ kernel, Kernel.Holds initial [] pipes children kernel → post value kernel) :
    (watch file mayRefuse).Triple (Kernel.Holds initial held pipes children)
      (do release (first.map Prod.fst); release (second.map Prod.fst); return value) post := by
  apply (triple_release_given first split).bind
  intro _
  have last : second.toList.Perm (second.toList ++ []) := by
    rw [List.append_nil]
  apply (triple_release_given second last).bind
  intro _
  exact triple_pure behind

private theorem triple_openPipe :
    (watch file mayRefuse).Triple (Kernel.Holds initial held pipes children) openPipe.run
      (either (fun ends => Kernel.Holds initial
          ((ends.2, .writing pipes) :: (ends.1, .reading pipes) :: held) (pipes + 1) children)
        fun _ => Refused mayRefuse initial held children) := by
  have made : (watch file mayRefuse).Triple (Kernel.Holds initial held pipes children)
      (System.call .makePipe) (either (fun ends kernel => ∃ base,
          IsNew base (.reading pipes) (pipes + 1) children ends.1 kernel ∧
          ∃ table, initial.Holds held table ∧ table.Adds ends.2 ⟨.writing pipes, true⟩ base)
        fun _ kernel => kernel.Holds initial held pipes children ∧ mayRefuse) := by
    apply triple_request
    intro kernel reply holds allowed
    refine ⟨trivial, ?_⟩
    cases reply with
    | error errno => exact ⟨holds, allowed⟩
    | ok ends =>
        obtain ⟨freeReading, freeWriting⟩ := allowed
        have first := Descriptors.adds_set freeReading ⟨.reading kernel.pipes, true⟩
        have second := Descriptors.adds_set freeWriting ⟨.writing kernel.pipes, true⟩
        obtain ⟨writing, reading⟩ := first.swap second
        rw [← holds.pipes]
        exact ⟨_, ⟨reading, rfl, holds.children⟩, kernel.table, holds.table, writing⟩
  apply made.lift.attempt_bind
  intro reply
  cases reply with
  | error errno => exact triple_throw fun kernel refused => ⟨refused.2, pipes, refused.1⟩
  | ok ends =>
      apply triple_exists
      intro base
      apply triple_assuming
      rintro ⟨table, holds, writing⟩
      apply (triple_raise ends.1).lift.attempt_bind
      intro raised
      cases raised with
      | error errno =>
          -- The writing end alone is left to let go of.
          apply (triple_close_added writing holds).lift.attempt_bind
          intro _
          exact triple_throw fun _ left => left
      | ok reading =>
          -- The reading end has been moved first; what is left of the table is as if the writing
          -- end had been made behind it.
          have readingHeld : ∀ kernel : Kernel file,
              IsNew base (.reading pipes) (pipes + 1) children reading kernel ∧
                Fd.error < reading →
              IsNew (table.set reading ⟨.reading pipes, true⟩) (.writing pipes) (pipes + 1)
                children ends.2 kernel ∧
              initial.Holds ((reading, .reading pipes) :: held)
                (table.set reading ⟨.reading pipes, true⟩) := by
            rintro kernel ⟨new, above⟩
            obtain ⟨first, second⟩ := writing.swap new.adds
            exact ⟨⟨second, new.pipes, new.children⟩, holds.add first above⟩
          refine Triple.imp ?_ readingHeld fun _ _ => id
          apply triple_assuming
          intro holdsReading
          apply (triple_raise_held holdsReading ends.2).lift.attempt_bind
          intro raised
          cases raised with
          | error errno =>
              apply (triple_release_refused reading).lift.attempt_bind
              intro _
              exact triple_throw fun _ left => left
          | ok writing => exact triple_attempt_pure fun kernel left => left

/-! ### Segments -/

/-- The launch has the numbers of its source and its sink, which the table holds; without one of
them it inherits that descriptor. -/
def Draws (initial : Descriptors (Endpoint file)) (source sink : Option (Endpoint file))
    (launch : Launch) (table : Descriptors (Endpoint file)) : Prop :=
  ∃ (input output : Option (Fd × Endpoint file)) (rest : List (Fd × Endpoint file)),
    initial.Holds (input.toList ++ (output.toList ++ rest)) table ∧
    launch.input = input.map Prod.fst ∧ launch.output = output.map Prod.fst ∧
    source = input.map Prod.snd ∧ sink = output.map Prod.snd

/-- The children are segments for the commands in order. The first draws from the source, the last
into the sink, and from each to the next there is a pipe of its own; `pipe` is the first of them. -/
inductive Joined (initial : Descriptors (Endpoint file)) (sink : Option (Endpoint file)) :
    Option (Endpoint file) → Nat → List Command →
    List (Child × Descriptors (Endpoint file)) → Prop where
  | last {source : Option (Endpoint file)} {pipe : Nat} {launch : Launch}
      {table : Descriptors (Endpoint file)} (draws : Draws initial source sink launch table) :
      Joined initial sink source pipe [launch.command] [(.segment launch, table)]
  | piped {source : Option (Endpoint file)} {pipe : Nat} {launch : Launch}
      {table : Descriptors (Endpoint file)} {rest : List Command}
      {made : List (Child × Descriptors (Endpoint file))}
      (draws : Draws initial source (some (.writing pipe)) launch table)
      (later : Joined initial sink (some (.reading pipe)) (pipe + 1) rest made) :
      Joined initial sink source pipe (launch.command :: rest) ((.segment launch, table) :: made)

def IsPiped (initial : Descriptors (Endpoint file))
    (entry : Child × Descriptors (Endpoint file)) : Prop :=
  ∃ launch source pipe, entry.1 = .segment launch ∧
    Draws initial source (some (.writing pipe)) launch entry.2

/-- What has become of the segments of a pipeline: all of them have been started, or those in front
of the first that could not be. -/
def Starts (mayRefuse : Prop) (initial : Descriptors (Endpoint file))
    (source sink : Option (Endpoint file)) (pipe : Nat) (commands : List Command)
    (started : Started) (made : List (Child × Descriptors (Endpoint file))) : Prop :=
  (started.fault = none ∧ started.pids.length = commands.length ∧
    Joined initial sink source pipe commands made) ∨
  (mayRefuse ∧ started.fault ≠ none ∧ ∀ entry ∈ made, IsPiped initial entry)

theorem triple_fork (child : Child) :
    (watch file mayRefuse).Triple (Kernel.Holds initial held pipes children)
      (System.call (.fork child)) (either (fun _ kernel => ∃ table,
          kernel.Holds initial held pipes (children ++ [(child, table)]) ∧
          initial.Holds held table)
        fun _ => Refused mayRefuse initial held children) := by
  apply triple_request
  intro kernel reply holds allowed
  refine ⟨trivial, ?_⟩
  cases reply with
  | error errno => exact ⟨allowed, pipes, holds⟩
  | ok pid =>
      refine ⟨kernel.table, ⟨holds.table, holds.pipes, ?_⟩, holds.table⟩
      rw [← holds.children]
      rfl

private theorem triple_abandon {first second : Option (Fd × Endpoint file)}
    {source sink : Option (Endpoint file)} {commands : List Command}
    (split : held.Perm (first.toList ++ second.toList)) (fault : RunFault) :
    (watch file mayRefuse).Triple (Refused mayRefuse initial held children)
      (do release (first.map Prod.fst); release (second.map Prod.fst); return ⟨[], some fault⟩)
      fun started kernel => ∃ later made, kernel.Holds initial [] later (children ++ made) ∧
        Starts mayRefuse initial source sink pipes commands started made := by
  rintro state events started ⟨refused, later, holds⟩ leads allowed
  have released : (watch file mayRefuse).Triple (Kernel.Holds initial held later children)
      (do release (first.map Prod.fst); release (second.map Prod.fst); return ⟨[], some fault⟩)
      fun started kernel => ∃ later made, kernel.Holds initial [] later (children ++ made) ∧
        Starts mayRefuse initial source sink pipes commands started made := by
    refine triple_release_both split fun kernel back => ⟨later, [], ?_, ?_⟩
    · rw [List.append_nil]
      exact back
    · exact Or.inr ⟨refused, (nomatch ·), List.forall_mem_nil _⟩
  exact released state events started holds leads allowed

theorem triple_startSegments (input output : Option (Fd × Endpoint file)) (commands : List Command)
    (nonempty : commands ≠ []) (pipes : Nat)
    (children : List (Child × Descriptors (Endpoint file))) :
    (watch file mayRefuse).Triple
      (Kernel.Holds initial (input.toList ++ output.toList) pipes children)
      (startSegments (input.map Prod.fst) (output.map Prod.fst) commands)
      fun started kernel => ∃ later made, kernel.Holds initial [] later (children ++ made) ∧
        Starts mayRefuse initial (input.map Prod.snd) (output.map Prod.snd) pipes commands
          started made := by
  induction commands generalizing input pipes children with
  | nil => exact (nonempty rfl).elim
  | cons command rest ih =>
      cases rest with
      | nil =>
          apply (triple_fork _).bind
          intro reply
          cases reply with
          | error errno => exact triple_abandon List.perm_append_comm (.fork errno)
          | ok pid =>
              apply triple_exists
              intro table
              apply triple_assuming
              intro holdsTable
              have draws : Draws initial (input.map Prod.snd) (output.map Prod.snd)
                  ⟨command, input.map Prod.fst, output.map Prod.fst⟩ table :=
                ⟨input, output, [], by rw [List.append_nil]; exact holdsTable, rfl, rfl, rfl, rfl⟩
              refine triple_release_both List.perm_append_comm fun kernel holds => ?_
              exact ⟨pipes, _, holds, Or.inl ⟨rfl, rfl, .last draws⟩⟩
      | cons second further =>
          apply triple_openPipe.bind
          intro made
          cases made with
          | error fault => exact triple_abandon (List.Perm.refl _) fault
          | ok ends =>
              apply (triple_fork _).bind
              intro reply
              cases reply with
              | error errno =>
                  apply (triple_release_refused ends.2).bind
                  intro _
                  apply (triple_release_refused ends.1).bind
                  intro _
                  exact triple_abandon (List.Perm.refl _) (.fork errno)
              | ok pid =>
                  apply triple_exists
                  intro table
                  apply triple_assuming
                  intro holdsTable
                  have draws : Draws initial (input.map Prod.snd) (some (.writing pipes))
                      ⟨command, input.map Prod.fst, some ends.2⟩ table := by
                    refine ⟨input, some (ends.2, .writing pipes),
                      (ends.1, .reading pipes) :: output.toList, holdsTable.perm ?_, rfl, rfl, rfl,
                      rfl⟩
                    exact (List.perm_middle.symm.cons _).trans List.perm_middle.symm
                  apply (triple_release ends.2).bind
                  intro _
                  apply (triple_release_given input List.perm_middle.symm).bind
                  intro _
                  -- Now the reading end of the new pipe is held in place of the input.
                  apply (ih (some (ends.1, .reading pipes)) (List.cons_ne_nil _ _) (pipes + 1)
                    _).bind
                  intro started
                  refine triple_pure ?_
                  rintro kernel ⟨later, made, holds, starts⟩
                  rw [List.append_assoc] at holds
                  refine ⟨later, _, holds, ?_⟩
                  rcases starts with ⟨intact, each, joined⟩ | ⟨refused, faulty, piped⟩
                  · exact Or.inl ⟨intact, congrArg Nat.succ each, .piped draws joined⟩
                  · refine Or.inr ⟨refused, faulty, List.forall_mem_cons.mpr ⟨?_, piped⟩⟩
                    exact ⟨_, _, pipes, rfl, draws⟩

end Shell

end PipelineShell

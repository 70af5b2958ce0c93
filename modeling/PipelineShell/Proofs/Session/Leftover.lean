import PipelineShell.Proofs.Reader.Leftover
import PipelineShell.Proofs.Session.Account

/-!
The end of an input. A session completes the bytes that its input leaves without a line feed only if
a byte other than a blank is among them. That makes no difference to completing them always, since
the line that is passed over would read as blank.
-/

namespace PipelineShell.Session

open Routine ReadOutcome

/-- What an input leaves behind its last line feed counts as a line exactly if it reads as something
other than a blank line. -/
theorem closedReadings_atEnd (bytes : List UInt8) :
    Stream.closedReadings bytes (some .atEnd) = Stream.readings bytes
      ++ [Reading.ofLine (Stream.remainder bytes ++ [Byte.lineFeed])].filter (· ≠ .blank) := by
  have absent := Stream.not_mem_remainder bytes
  have agrees := Reading.any_solid_eq_false_iff absent
  rw [Stream.closedReadings, Stream.closed]
  by_cases blank : Reading.ofLine (Stream.remainder bytes ++ [Byte.lineFeed]) = .blank
  · have nothing := agrees.mpr blank
    rw [if_neg fun both => Bool.eq_false_iff.mp nothing both.2, blank]
    exact (List.append_nil _).symm
  · have something :
        ((Stream.remainder bytes).any fun byte => !LineReader.isBlankByte byte) = true :=
      Bool.of_not_eq_false fun nothing => blank (agrees.mp nothing)
    rw [if_pos ⟨rfl, something⟩, Stream.readings_append, List.filter_cons_of_pos (by simp [blank])]
    exact congrArg (Stream.readings bytes ++ List.map Reading.ofLine ·)
      (Stream.lines_of_line absent [])

private theorem finishInput_eq_perform {reader : LineReader} (placed : reader.WellPlaced)
    (unterminated : Byte.lineFeed ∉ reader.unread) (shell : Shell) :
    finishInput shell reader = perform shell [(reader.feed [Byte.lineFeed]).next.1] := by
  unfold finishInput
  by_cases leftover : reader.hasLeftover = true
  · rw [if_pos leftover, LineReader.takeLines_feed_lineFeed placed unterminated]
  · have blank := (LineReader.hasLeftover_eq_false_iff placed unterminated).mp
      (Bool.eq_false_iff.mpr leftover)
    rw [if_neg leftover, blank]
    rfl

/-- Whatever calls led to a reader that was last asked for a line in vain: other bytes than blanks
are left in it exactly if a line feed would not make a blank line of them, so that a session, at the
end of its input, acts on the line that a line feed makes, whatever it is. Over a whole input it
acts on the lines, and behind them on what is left without a line feed exactly if that is a line or
a fault, unless a line before has asked to leave. -/
theorem leftover_acted_on_unless_blank :
    (∀ calls, LineReader.Stalls calls →
      let reader := (LineReader.empty.answers calls).2
      (reader.hasLeftover = false ↔ (reader.feed [Byte.lineFeed]).next.1 = .blank) ∧
        ∀ shell, finishInput shell reader = perform shell [(reader.feed [Byte.lineFeed]).next.1]) ∧
      ∀ prompt shell outcomes events ended,
        (Session.run prompt shell outcomes).Leads events ended → shell.exit = none →
        closing? (inputOf outcomes) = some .atEnd →
        let bytes := bytesOf (inputOf outcomes)
        let last := Reading.ofLine (Stream.remainder bytes ++ [Byte.lineFeed])
        let due := Stream.readings bytes ++ [last].filter (· ≠ .blank)
        ∃ acts, Performs prompt shell acts events ended.shell ∧
          acts.map Act.reading <+: due ∧
          ended.shell.exit = acts.getLast?.bind Act.leaving? ∧
          (ended.shell.exit = none → acts.map Act.reading = due) := by
  constructor
  · intro calls stalls reader
    obtain ⟨placed, unterminated⟩ := LineReader.unterminated_of_stalls stalls
    exact ⟨LineReader.hasLeftover_eq_false_iff placed unterminated,
      finishInput_eq_perform placed unterminated⟩
  · intro prompt shell outcomes events ended leads staying atEnd bytes last due
    obtain ⟨acts, performs, account⟩ := exists_account leads staying
    have dueEq : readingsOf [] (inputOf outcomes) = due := by
      rw [readingsOf, atEnd, List.nil_append]
      exact closedReadings_atEnd bytes
    refine ⟨acts, performs, ?_, account.exit, ?_⟩
    · rw [← dueEq]
      exact account.within_whole
    · rw [← dueEq]
      exact account.whole

/-- A space and a carriage return are left after a line has been asked for in vain; and an input of
one line and `|` with a carriage return, without a line feed, of which the latter is refused. -/
theorem leftover_acted_on_unless_blank_of_bar :
    let calls : List ReaderCall := [.feed [Byte.space, Byte.carriageReturn], .next, .hasLeftover]
    let reader := (LineReader.empty.answers calls).2
    let outcomes : List ReadOutcome :=
      [.bytes [Byte.lineFeed, Byte.bar], .interrupted, .bytes [Byte.carriageReturn]]
    let ended : SessionEnd := ⟨.left 2, ⟨.empty, 2, none⟩, 4⟩
    LineReader.Stalls calls ∧ (reader.hasLeftover = false ∧
      (reader.feed [Byte.lineFeed]).next.1 = .blank) ∧
      ∃ events acts, (Session.run none .new outcomes).Leads events ended ∧
        Shell.new.exit = none ∧ closing? (inputOf outcomes) = some .atEnd ∧
        Performs none .new acts events ended.shell ∧
        acts.map Act.reading = [.blank, .fault .noLeftOperand] := by
  intro calls reader outcomes ended
  have stalls : LineReader.Stalls calls :=
    ⟨[.feed [Byte.space, Byte.carriageReturn]], [.hasLeftover], rfl, by decide +kernel, by simp⟩
  have agrees := (leftover_acted_on_unless_blank.1 calls stalls).1
  have nothing : reader.hasLeftover = false := by decide +kernel
  obtain ⟨events, leads⟩ := exists_leads_run (Kernel.serve Pid.mk Kernel.refuse)
    (Session.run none .new outcomes) (.start (.empty : Descriptors (Endpoint Unit)))
  have endedEq : ((Session.run none .new outcomes).run (Kernel.serve Pid.mk Kernel.refuse)
      (.start (.empty : Descriptors (Endpoint Unit)))).1 = ended := by
    decide +kernel
  rw [endedEq] at leads
  obtain ⟨acts, performs, _, _, whole⟩ :=
    leftover_acted_on_unless_blank.2 none .new outcomes events ended leads rfl rfl
  have due : Stream.readings (bytesOf (inputOf outcomes))
      ++ [Reading.ofLine (Stream.remainder (bytesOf (inputOf outcomes)) ++ [Byte.lineFeed])].filter
        (· ≠ .blank) = [.blank, .fault .noLeftOperand] := by
    decide +kernel
  exact ⟨stalls, ⟨nothing, agrees.mp nothing⟩, events, acts, leads, rfl, rfl, performs,
    (whole rfl).trans due⟩

end PipelineShell.Session

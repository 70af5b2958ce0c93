import PipelineShell.Proofs.System.Path
import PipelineShell.Session

/-!
What happens in a session, moment by moment: the calls of its shell and the reads, each with its
reply. Whatever answers the reads, a session that is supplied by it goes a way that the session may
go by itself, and the system sees the calls of that way and what the source asks for in between.
-/

namespace PipelineShell

namespace Session

abbrev Moment :=
  Event interface

namespace Moment

def ofCall (event : Event System.interface) : Moment :=
  ⟨.system event.request, event.reply⟩

def ofRead (outcome : ReadOutcome) : Moment :=
  ⟨.read, outcome⟩

def call? : Moment → Option (Event System.interface)
  | ⟨.system request, reply⟩ => some ⟨request, reply⟩
  | ⟨.read, _⟩ => none

def read? : Moment → Option ReadOutcome
  | ⟨.system _, _⟩ => none
  | ⟨.read, outcome⟩ => some outcome

end Moment

def calls (moments : List Moment) : List (Event System.interface) :=
  moments.filterMap Moment.call?

def reads (moments : List Moment) : List ReadOutcome :=
  moments.filterMap Moment.read?

section Moments

variable (moments more : List Moment) (event : Event System.interface)
  (events : List (Event System.interface)) (outcome : ReadOutcome) (count : Nat)

@[simp]
theorem calls_append : calls (moments ++ more) = calls moments ++ calls more :=
  List.filterMap_append

@[simp]
theorem reads_append : reads (moments ++ more) = reads moments ++ reads more :=
  List.filterMap_append

@[simp]
theorem calls_ofCall_cons : calls (.ofCall event :: moments) = event :: calls moments :=
  rfl

@[simp]
theorem reads_ofCall_cons : reads (.ofCall event :: moments) = reads moments :=
  rfl

@[simp]
theorem calls_map_ofCall : calls (events.map Moment.ofCall) = events := by
  rw [calls, List.filterMap_map]
  exact List.filterMap_some

@[simp]
theorem reads_map_ofCall : reads (events.map Moment.ofCall) = [] := by
  rw [reads, List.filterMap_map]
  exact List.filterMap_eq_nil_iff.mpr fun _ _ => rfl

@[simp]
theorem calls_ofRead_cons : calls (.ofRead outcome :: moments) = calls moments :=
  rfl

@[simp]
theorem reads_ofRead_cons : reads (.ofRead outcome :: moments) = outcome :: reads moments :=
  rfl

@[simp]
theorem calls_replicate_ofRead : calls (List.replicate count (.ofRead outcome)) = [] := by
  rw [calls, List.filterMap_replicate]
  rfl

@[simp]
theorem reads_replicate_ofRead :
    reads (List.replicate count (.ofRead outcome)) = List.replicate count outcome := by
  rw [reads, List.filterMap_replicate]
  rfl

end Moments

open Routine

variable {α β ρ : Type}

/-! ### Routines of the shell -/

theorem Leads.of_ofSystem {routine : Routine System.interface α} {moments : List Moment}
    {value : α} (leads : (ofSystem routine).Leads moments value) :
    ∃ events, moments = events.map Moment.ofCall ∧ routine.Leads events value := by
  induction routine generalizing moments with
  | finished given =>
      obtain ⟨nothing, valueEq⟩ := Leads.of_pure leads
      rw [nothing, valueEq]
      exact ⟨[], rfl, .finished given⟩
  | ask request resume ih =>
      obtain ⟨reply, back, momentsEq, later⟩ := Leads.of_ask leads
      obtain ⟨events, backEq, leadsLater⟩ := ih reply later
      rw [momentsEq, backEq]
      refine ⟨⟨request, reply⟩ :: events, rfl, ?_⟩
      apply Leads.ask
      exact leadsLater

theorem Leads.ofSystem {routine : Routine System.interface α}
    {events : List (Event System.interface)} {value : α} (leads : routine.Leads events value) :
    (ofSystem routine).Leads (events.map Moment.ofCall) value := by
  induction leads with
  | finished value => exact .finished value
  | ask reply later ih =>
      apply Leads.ask
      exact ih

theorem exists_leads_of_ofSystem_bind {routine : Routine System.interface α}
    {next : α → Routine interface β} {moments : List Moment} {value : β}
    (leads : (ofSystem routine >>= next).Leads moments value) :
    ∃ events between back, moments = events.map .ofCall ++ back ∧
      routine.Leads events between ∧ (next between).Leads back value := by
  obtain ⟨front, between, back, split, plain, behind⟩ := Leads.of_bind leads
  obtain ⟨events, frontEq, ran⟩ := Leads.of_ofSystem plain
  rw [split, frontEq]
  exact ⟨events, between, back, rfl, ran, behind⟩

theorem exists_leads_of_read_bind {next : ReadOutcome → Routine interface β}
    {moments : List Moment} {value : β} (leads : (read >>= next).Leads moments value) :
    ∃ outcome back, moments = .ofRead outcome :: back ∧ (next outcome).Leads back value :=
  Leads.of_ask leads

/-! ### Reads that a source answers -/

/-- The source answers the reads among the moments, one after another; the system sees the calls and
what the source asks for. -/
inductive Supplied (source : ρ → Routine System.interface (ReadOutcome × ρ)) :
    ρ → List Moment → List (Event System.interface) → ρ → Prop where
  | nothing (rest : ρ) : Supplied source rest [] [] rest
  | called {rest last : ρ} {moments : List Moment} {events : List (Event System.interface)}
      (event : Event System.interface) (later : Supplied source rest moments events last) :
      Supplied source rest (.ofCall event :: moments) (event :: events) last
  | read {rest next last : ρ} {outcome : ReadOutcome} {moments : List Moment}
      {asked events : List (Event System.interface)}
      (answered : (source rest).Leads asked (outcome, next))
      (later : Supplied source next moments events last) :
      Supplied source rest (.ofRead outcome :: moments) (asked ++ events) last

variable {source : ρ → Routine System.interface (ReadOutcome × ρ)} {rest last : ρ}
  {moments : List Moment} {events : List (Event System.interface)} {value : α}

theorem exists_supplied_of_leads {routine : Routine interface α}
    (leads : (supply source routine rest).Leads events value) :
    ∃ moments last, routine.Leads moments value ∧ Supplied source rest moments events last := by
  induction routine generalizing rest events with
  | finished given =>
      obtain ⟨nothing, valueEq⟩ := Leads.of_pure leads
      rw [nothing, valueEq]
      exact ⟨[], rest, .finished given, .nothing rest⟩
  | ask request resume ih =>
      cases request with
      | system call =>
          obtain ⟨reply, back, eventsEq, later⟩ := Leads.of_ask leads
          obtain ⟨moments, last, leadsLater, supplied⟩ := ih reply later
          rw [eventsEq]
          refine ⟨Moment.ofCall ⟨call, reply⟩ :: moments, last, ?_, .called _ supplied⟩
          apply Leads.ask
          exact leadsLater
      | read =>
          obtain ⟨asked, ⟨outcome, next⟩, back, split, answered, later⟩ := Leads.of_bind leads
          obtain ⟨moments, last, leadsLater, supplied⟩ := ih outcome later
          rw [split]
          exact ⟨_, last, .ask outcome leadsLater, .read answered supplied⟩

theorem Supplied.leads (supplied : Supplied source rest moments events last)
    {routine : Routine interface α} (leads : routine.Leads moments value) :
    (supply source routine rest).Leads events value := by
  induction supplied generalizing routine with
  | nothing rest =>
      cases leads
      exact .finished value
  | called event later ih =>
      cases leads with
      | ask _ leadsLater => exact .ask event.reply (ih leadsLater)
  | read answered later ih =>
      cases leads with
      | ask _ leadsLater => exact answered.bind (ih leadsLater)

/-- The ways of a supplied session are those of the session whose reads the source answers. -/
theorem leads_supply_iff {routine : Routine interface α} :
    (supply source routine rest).Leads events value ↔
      ∃ moments last, routine.Leads moments value ∧ Supplied source rest moments events last := by
  constructor
  · exact exists_supplied_of_leads
  · rintro ⟨moments, last, leads, supplied⟩
    exact supplied.leads leads

/-- Listed outcomes are handed out in order, and the end of the input behind them. -/
theorem Supplied.of_listed {outcomes left : List ReadOutcome}
    (supplied : Supplied listed outcomes moments events left) :
    events = calls moments ∧
      ∃ ends, reads moments ++ left = outcomes ++ List.replicate ends (.bytes []) := by
  induction supplied with
  | nothing outcomes => exact ⟨rfl, 0, (List.append_nil outcomes).symm⟩
  | called event later ih =>
      obtain ⟨eventsEq, ends, readsEq⟩ := ih
      exact ⟨congrArg (event :: ·) eventsEq, ends, readsEq⟩
  | @read outcomes next left outcome moments asked events answered later ih =>
      obtain ⟨eventsEq, ends, readsEq⟩ := ih
      rw [reads_ofRead_cons, List.cons_append, readsEq]
      cases outcomes with
      | nil =>
          obtain ⟨nothing, answerEq⟩ := Leads.of_pure answered
          cases answerEq
          rw [nothing]
          exact ⟨eventsEq, ends + 1, rfl⟩
      | cons first others =>
          obtain ⟨nothing, answerEq⟩ := Leads.of_pure answered
          cases answerEq
          rw [nothing]
          exact ⟨eventsEq, ends, rfl⟩

theorem supplied_listed (moments : List Moment) (left : List ReadOutcome) :
    Supplied listed (reads moments ++ left) moments (calls moments) left := by
  induction moments with
  | nil => exact .nothing left
  | cons moment rest ih =>
      obtain ⟨request, reply⟩ := moment
      cases request with
      | system call => exact .called ⟨call, reply⟩ ih
      | read =>
          have answered : (listed (reply :: (reads rest ++ left))).Leads []
              (reply, reads rest ++ left) :=
            .finished _
          exact .read answered ih

end Session

end PipelineShell

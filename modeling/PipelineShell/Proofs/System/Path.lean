import PipelineShell.System.Routine

/-!
The ways a routine may go. A path is the questions that are asked, each with its reply, up to the
value; the paths of a routine are what all worlds together make of it.
-/

namespace PipelineShell

structure Event (interface : Interface) where
  request : interface.Request
  reply : interface.Reply request

namespace Routine

variable {interface : Interface} {α β ε σ : Type}

/-- The routine gives the value after the events. -/
inductive Leads : Routine interface α → List (Event interface) → α → Prop where
  | finished (value : α) : Leads (.finished value) [] value
  | ask {request : interface.Request} {resume : interface.Reply request → Routine interface α}
      {events : List (Event interface)} {value : α} (reply : interface.Reply request)
      (later : Leads (resume reply) events value) :
      Leads (.ask request resume) (⟨request, reply⟩ :: events) value

/-- What happens in a world is one of the paths. -/
theorem exists_leads_run (world : World interface σ) (routine : Routine interface α) (state : σ) :
    ∃ events, routine.Leads events (routine.run world state).1 := by
  induction routine generalizing state with
  | finished value => exact ⟨[], .finished value⟩
  | ask request resume ih =>
      obtain ⟨events, leads⟩ := ih (world request state).1 (world request state).2
      exact ⟨_, .ask _ leads⟩

/-! ### Paths of composed routines -/

theorem Leads.of_pure {value given : α} {events : List (Event interface)}
    (leads : (pure given : Routine interface α).Leads events value) :
    events = [] ∧ value = given := by
  cases leads
  exact ⟨rfl, rfl⟩

theorem Leads.of_request {request : interface.Request} {reply : interface.Reply request}
    {events : List (Event interface)} (leads : (Routine.request request).Leads events reply) :
    events = [⟨request, reply⟩] := by
  cases leads with
  | ask given later =>
      cases later
      rfl

theorem Leads.of_bind {first : Routine interface α} {next : α → Routine interface β}
    {events : List (Event interface)} {value : β} (leads : (first >>= next).Leads events value) :
    ∃ front middle back, events = front ++ back ∧ first.Leads front middle ∧
      (next middle).Leads back value := by
  induction first generalizing events with
  | finished middle => exact ⟨[], middle, events, rfl, .finished middle, leads⟩
  | ask request resume ih =>
      cases leads with
      | ask reply later =>
          obtain ⟨front, middle, back, split, leadsFirst, leadsNext⟩ := ih reply later
          exact ⟨_ :: front, middle, back, congrArg (List.cons _) split, .ask reply leadsFirst,
            leadsNext⟩

theorem Leads.of_ask {request : interface.Request}
    {next : interface.Reply request → Routine interface β} {events : List (Event interface)}
    {value : β} (leads : (Routine.request request >>= next).Leads events value) :
    ∃ reply back, events = ⟨request, reply⟩ :: back ∧ (next reply).Leads back value := by
  cases leads with
  | ask reply later => exact ⟨reply, _, rfl, later⟩

theorem Leads.bind {first : Routine interface α} {next : α → Routine interface β}
    {front back : List (Event interface)} {middle : α} {value : β}
    (leads : first.Leads front middle) (later : (next middle).Leads back value) :
    (first >>= next).Leads (front ++ back) value := by
  induction leads with
  | finished middle => exact later
  | ask reply _ ih => exact .ask reply (ih later)

theorem leads_bind_iff {first : Routine interface α} {next : α → Routine interface β}
    {events : List (Event interface)} {value : β} :
    (first >>= next).Leads events value ↔ ∃ front middle back, events = front ++ back ∧
      first.Leads front middle ∧ (next middle).Leads back value := by
  constructor
  · exact Leads.of_bind
  · rintro ⟨front, middle, back, split, leads, later⟩
    rw [split]
    exact leads.bind later

theorem leads_bind_pure_iff {first : Routine interface α} {view : α → β}
    {events : List (Event interface)} {value : β} :
    (first >>= fun middle => pure (view middle)).Leads events value ↔
      ∃ middle, first.Leads events middle ∧ value = view middle := by
  rw [leads_bind_iff]
  constructor
  · rintro ⟨front, middle, back, split, leads, returned⟩
    obtain ⟨nothing, valueEq⟩ := returned.of_pure
    rw [split, nothing, List.append_nil]
    exact ⟨middle, leads, valueEq⟩
  · rintro ⟨middle, leads, valueEq⟩
    rw [valueEq]
    exact ⟨events, middle, [], (List.append_nil events).symm, leads, .finished _⟩

theorem Leads.of_attempt_bind {first : ExceptT ε (Routine interface) α}
    {next : α → ExceptT ε (Routine interface) β} {events : List (Event interface)}
    {outcome : Except ε β} (leads : (first >>= next).run.Leads events outcome) :
    (∃ fault, outcome = .error fault ∧ first.run.Leads events (.error fault)) ∨
    ∃ front middle back, events = front ++ back ∧ first.run.Leads front (.ok middle) ∧
      (next middle).run.Leads back outcome := by
  rw [ExceptT.run_bind] at leads
  obtain ⟨front, middle, back, split, leadsFirst, leadsNext⟩ := leads.of_bind
  cases middle with
  | error fault =>
      obtain ⟨nothing, outcomeEq⟩ := Leads.of_pure leadsNext
      rw [nothing, List.append_nil] at split
      rw [← split] at leadsFirst
      exact Or.inl ⟨fault, outcomeEq, leadsFirst⟩
  | ok middle => exact Or.inr ⟨front, middle, back, split, leadsFirst, leadsNext⟩

theorem Leads.of_attempt_lift {routine : Routine interface α} {events : List (Event interface)}
    {outcome : Except ε α}
    (leads : (liftM routine : ExceptT ε (Routine interface) α).run.Leads events outcome) :
    ∃ value, outcome = .ok value ∧ routine.Leads events value := by
  obtain ⟨front, value, back, split, leadsRoutine, returned⟩ := Leads.of_bind leads
  obtain ⟨nothing, outcomeEq⟩ := returned.of_pure
  rw [nothing, List.append_nil] at split
  exact ⟨value, outcomeEq, split ▸ leadsRoutine⟩

theorem Leads.of_attempt_lift_bind {first : Routine interface α}
    {next : α → ExceptT ε (Routine interface) β} {events : List (Event interface)}
    {outcome : Except ε β}
    (leads : (liftM first >>= next : ExceptT ε (Routine interface) β).run.Leads events outcome) :
    ∃ front middle back, events = front ++ back ∧ first.Leads front middle ∧
      (next middle).run.Leads back outcome := by
  rcases leads.of_attempt_bind with ⟨_, _, failed⟩ | ⟨front, middle, back, split, lifted, later⟩
  · obtain ⟨_, impossible, _⟩ := Leads.of_attempt_lift failed
    cases impossible
  · obtain ⟨_, same, leadsFirst⟩ := Leads.of_attempt_lift lifted
    cases same
    exact ⟨front, middle, back, split, leadsFirst, later⟩

theorem Leads.of_attempt_ask {request : interface.Request}
    {next : interface.Reply request → ExceptT ε (Routine interface) β}
    {events : List (Event interface)} {outcome : Except ε β}
    (leads : (liftM (Routine.request request) >>= next :
      ExceptT ε (Routine interface) β).run.Leads events outcome) :
    ∃ reply back, events = ⟨request, reply⟩ :: back ∧ (next reply).run.Leads back outcome := by
  obtain ⟨front, reply, back, split, asked, later⟩ := Leads.of_attempt_lift_bind leads
  refine ⟨reply, back, ?_, later⟩
  rw [split, asked.of_request]
  rfl

/-! ### Values -/

def Gives (property : α → Prop) (routine : Routine interface α) : Prop :=
  ∀ events value, routine.Leads events value → property value

section Values

variable {property : α → Prop} {further : β → Prop} {cause weaker : ε → Prop}

theorem gives_pure {value : α} (holds : property value) :
    Gives property (pure value : Routine interface α) := by
  intro events given leads
  rw [(Leads.of_pure leads).2]
  exact holds

theorem gives_any (routine : Routine interface α) : Gives (fun _ => True) routine :=
  fun _ _ _ => trivial

theorem Gives.bind {first : Routine interface α} {next : α → Routine interface β}
    (gives : Gives property first)
    (givesNext : ∀ value, property value → Gives further (next value)) :
    Gives further (first >>= next) := by
  intro events value leads
  obtain ⟨front, middle, back, _, leadsFirst, leadsNext⟩ := leads.of_bind
  exact givesNext middle (gives front middle leadsFirst) back value leadsNext

theorem gives_behind {first : Routine interface α} {next : α → Routine interface β}
    (givesNext : ∀ value, Gives further (next value)) : Gives further (first >>= next) :=
  (gives_any first).bind fun value _ => givesNext value

theorem Gives.run {routine : Routine interface α} (gives : Gives property routine)
    (world : World interface σ) (state : σ) : property (routine.run world state).1 := by
  obtain ⟨events, leads⟩ := exists_leads_run world routine state
  exact gives events _ leads

def Within (property : α → Prop) (cause : ε → Prop) : Except ε α → Prop
  | .ok value => property value
  | .error fault => cause fault

abbrev FailsFor (cause : ε → Prop) : Except ε α → Prop :=
  Within (fun _ => True) cause

theorem Gives.attempt_bind {first : ExceptT ε (Routine interface) α}
    {next : α → ExceptT ε (Routine interface) β} (gives : Gives (Within property cause) first.run)
    (givesNext : ∀ value, property value → Gives (Within further cause) (next value).run) :
    Gives (Within further cause) (first >>= next).run := by
  rw [ExceptT.run_bind]
  refine gives.bind fun outcome holds => ?_
  cases outcome with
  | error fault => exact gives_pure holds
  | ok value => exact givesNext value holds

theorem Gives.lift {routine : Routine interface α} (gives : Gives property routine) :
    Gives (Within property cause) (liftM routine : ExceptT ε (Routine interface) α).run :=
  gives.bind fun _ holds => gives_pure holds

theorem Gives.weaken {attempt : ExceptT ε (Routine interface) α}
    (gives : Gives (Within property cause) attempt.run)
    (implies : ∀ fault, cause fault → weaker fault) :
    Gives (Within property weaker) attempt.run := by
  intro events outcome leads
  have holds := gives events outcome leads
  cases outcome with
  | ok value => exact holds
  | error fault => exact implies fault holds

end Values

/-! ### Events that never happen -/

/-- Whatever the replies are, no event of the routine is of the kind. -/
def Never (kind : Event interface → Option β) (routine : Routine interface α) : Prop :=
  ∀ events value, routine.Leads events value → events.filterMap kind = []

variable {kind : Event interface → Option σ}

theorem never_pure (value : α) : Never kind (pure value) := by
  intro events given leads
  rw [(Leads.of_pure leads).1]
  rfl

theorem never_request {request : interface.Request}
    (other : ∀ reply, kind ⟨request, reply⟩ = none) : Never kind (Routine.request request) := by
  intro events reply leads
  rw [leads.of_request, List.filterMap_cons, other]
  rfl

theorem Never.bind {first : Routine interface α} {next : α → Routine interface β}
    (never : Never kind first) (neverNext : ∀ value, Never kind (next value)) :
    Never kind (first >>= next) := by
  intro events value leads
  obtain ⟨front, middle, back, split, leadsFirst, leadsNext⟩ := leads.of_bind
  rw [split, List.filterMap_append, never _ _ leadsFirst, neverNext _ _ _ leadsNext]
  rfl

theorem Never.attempt_bind {first : ExceptT ε (Routine interface) α}
    {next : α → ExceptT ε (Routine interface) β} (never : Never kind first.run)
    (neverNext : ∀ value, Never kind (next value).run) : Never kind (first >>= next).run := by
  rw [ExceptT.run_bind]
  apply never.bind
  intro outcome
  cases outcome with
  | error fault => exact never_pure _
  | ok value => exact neverNext value

theorem Never.lift {routine : Routine interface α} (never : Never kind routine) :
    Never kind (liftM routine : ExceptT ε (Routine interface) α).run :=
  never.bind fun value => never_pure (Except.ok value)

end Routine

end PipelineShell

import PipelineShell.Proofs.System.Path

/-!
Keeping account along a path. A monitor has a state that follows the events; it says which replies
the system may give in a state, and what is demanded of an event in a state. A triple says of a
routine that, wherever the system keeps to what is allowed, the demands are met at every event and
the state that is left satisfies the postcondition.
-/

namespace PipelineShell

structure Monitor (interface : Interface) (σ : Type) where
  after : σ → Event interface → σ
  /-- What the system keeps to. -/
  Allows : σ → Event interface → Prop
  /-- What is to be shown of a routine. -/
  Demands : σ → Event interface → Prop

namespace Monitor

variable {interface : Interface} {α β ε σ : Type} (monitor : Monitor interface σ)

def afterAll (state : σ) (events : List (Event interface)) : σ :=
  events.foldl monitor.after state

def Along (condition : σ → Event interface → Prop) : σ → List (Event interface) → Prop
  | _, [] => True
  | state, event :: rest => condition state event ∧ Along condition (monitor.after state event) rest

theorem afterAll_append (state : σ) (events more : List (Event interface)) :
    monitor.afterAll state (events ++ more)
      = monitor.afterAll (monitor.afterAll state events) more :=
  List.foldl_append

theorem along_append {condition : σ → Event interface → Prop} {state : σ}
    {events more : List (Event interface)} :
    monitor.Along condition state (events ++ more) ↔
      monitor.Along condition state events ∧
        monitor.Along condition (monitor.afterAll state events) more := by
  induction events generalizing state with
  | nil => exact ⟨fun along => ⟨trivial, along⟩, And.right⟩
  | cons event rest ih =>
      change condition state event ∧ monitor.Along condition _ (rest ++ more) ↔ (_ ∧ _) ∧ _
      rw [ih, and_assoc]
      rfl

theorem Along.imp {monitor other : Monitor interface σ}
    {condition weaker : σ → Event interface → Prop} {state : σ} {events : List (Event interface)}
    (along : monitor.Along condition state events)
    (sameState : ∀ state event, other.after state event = monitor.after state event)
    (implied : ∀ state event, condition state event → weaker state event) :
    other.Along weaker state events := by
  induction events generalizing state with
  | nil => trivial
  | cons event rest ih =>
      refine ⟨implied state event along.1, ?_⟩
      rw [sameState]
      exact ih along.2

/-- What holds before every event holds behind all of them. -/
theorem Along.invariant {condition : σ → Event interface → Prop} {invariant : σ → Prop}
    (step : ∀ state event, invariant state → condition state event →
      invariant (monitor.after state event))
    {state : σ} {events : List (Event interface)} (holds : invariant state)
    (along : monitor.Along condition state events) :
    invariant (monitor.afterAll state events) := by
  induction events generalizing state with
  | nil => exact holds
  | cons event rest ih => exact ih (step _ _ holds along.1) along.2

/-- From a state with the precondition, wherever the system keeps to what is allowed, the routine
meets the demands and leaves its value and the state as the postcondition says. -/
def Triple (pre : σ → Prop) (routine : Routine interface α) (post : α → σ → Prop) : Prop :=
  ∀ state events value, pre state → routine.Leads events value →
    monitor.Along monitor.Allows state events →
    monitor.Along monitor.Demands state events ∧ post value (monitor.afterAll state events)

variable {monitor}

theorem Triple.imp {pre strong : σ → Prop} {routine : Routine interface α}
    {post weak : α → σ → Prop} (triple : monitor.Triple pre routine post)
    (before : ∀ state, strong state → pre state)
    (behind : ∀ value state, post value state → weak value state) :
    monitor.Triple strong routine weak := by
  intro state events value holds leads allowed
  obtain ⟨met, left⟩ := triple state events value (before state holds) leads allowed
  exact ⟨met, behind value _ left⟩

theorem Triple.with_value {pre : σ → Prop} {routine : Routine interface α}
    {post : α → σ → Prop} {fact : α → Prop} (triple : monitor.Triple pre routine post)
    (known : ∀ events value, routine.Leads events value → fact value) :
    monitor.Triple pre routine fun value state => post value state ∧ fact value := by
  intro state events value holds leads allowed
  obtain ⟨met, left⟩ := triple state events value holds leads allowed
  exact ⟨met, left, known events value leads⟩

theorem triple_pure {pre : σ → Prop} {post : α → σ → Prop} {value : α}
    (behind : ∀ state, pre state → post value state) :
    monitor.Triple pre (pure value) post := by
  intro state events given holds leads _allowed
  obtain ⟨nothing, valueEq⟩ := leads.of_pure
  rw [nothing, valueEq]
  exact ⟨trivial, behind state holds⟩

theorem triple_assuming {fact : Prop} {pre : σ → Prop} {routine : Routine interface α}
    {post : α → σ → Prop} (triple : fact → monitor.Triple pre routine post) :
    monitor.Triple (fun state => pre state ∧ fact) routine post := by
  intro state events value holds leads allowed
  exact triple holds.2 state events value holds.1 leads allowed

theorem triple_request {pre : σ → Prop} {request : interface.Request}
    {post : interface.Reply request → σ → Prop}
    (step : ∀ state reply, pre state → monitor.Allows state ⟨request, reply⟩ →
      monitor.Demands state ⟨request, reply⟩ ∧ post reply (monitor.after state ⟨request, reply⟩)) :
    monitor.Triple pre (Routine.request request) post := by
  intro state events reply holds leads allowed
  rw [leads.of_request] at allowed ⊢
  obtain ⟨met, left⟩ := step state reply holds allowed.1
  exact ⟨⟨met, trivial⟩, left⟩

theorem Triple.bind {pre : σ → Prop} {first : Routine interface α}
    {next : α → Routine interface β} {middle : α → σ → Prop} {post : β → σ → Prop}
    (triple : monitor.Triple pre first middle)
    (later : ∀ value, monitor.Triple (middle value) (next value) post) :
    monitor.Triple pre (first >>= next) post := by
  intro state events value holds leads allowed
  obtain ⟨front, between, back, split, leadsFirst, leadsNext⟩ := leads.of_bind
  rw [split] at allowed ⊢
  obtain ⟨allowedFront, allowedBack⟩ := monitor.along_append.mp allowed
  obtain ⟨metFront, left⟩ := triple state front between holds leadsFirst allowedFront
  obtain ⟨metBack, behind⟩ := later between _ back value left leadsNext allowedBack
  rw [monitor.afterAll_append]
  exact ⟨monitor.along_append.mpr ⟨metFront, metBack⟩, behind⟩

/-! ### Routines that may fail -/

def either (good : α → σ → Prop) (bad : ε → σ → Prop) : Except ε α → σ → Prop
  | .ok value => good value
  | .error fault => bad fault

theorem Triple.attempt_bind {pre : σ → Prop} {first : ExceptT ε (Routine interface) α}
    {next : α → ExceptT ε (Routine interface) β} {middle : α → σ → Prop}
    {good : β → σ → Prop} {bad : ε → σ → Prop}
    (triple : monitor.Triple pre first.run (either middle bad))
    (later : ∀ value, monitor.Triple (middle value) (next value).run (either good bad)) :
    monitor.Triple pre (first >>= next).run (either good bad) := by
  rw [ExceptT.run_bind]
  apply triple.bind
  intro outcome
  cases outcome with
  | error fault => exact triple_pure fun state left => left
  | ok value => exact later value

theorem Triple.lift {pre : σ → Prop} {routine : Routine interface α} {good : α → σ → Prop}
    {bad : ε → σ → Prop} (triple : monitor.Triple pre routine good) :
    monitor.Triple pre (liftM routine : ExceptT ε (Routine interface) α).run (either good bad) :=
  triple.bind fun _ => triple_pure fun _ left => left

theorem triple_attempt_pure {pre : σ → Prop} {value : α} {good : α → σ → Prop}
    {bad : ε → σ → Prop} (behind : ∀ state, pre state → good value state) :
    monitor.Triple pre (pure value : ExceptT ε (Routine interface) α).run (either good bad) :=
  @triple_pure interface (Except ε α) σ monitor pre (either good bad) (.ok value) behind

theorem triple_throw {pre : σ → Prop} {fault : ε} {good : α → σ → Prop} {bad : ε → σ → Prop}
    (behind : ∀ state, pre state → bad fault state) :
    monitor.Triple pre (throw fault : ExceptT ε (Routine interface) α).run (either good bad) :=
  @triple_pure interface (Except ε α) σ monitor pre (either good bad) (.error fault) behind

/-! ### Worlds -/

variable {world : World interface σ}

def ofWorld (world : World interface σ) : Monitor interface σ where
  after state event := (world event.request state).2
  Allows state event := event.reply = (world event.request state).1
  Demands _ _ := True

theorem exists_along_run (routine : Routine interface α) (state : σ) :
    ∃ events, routine.Leads events (routine.run world state).1 ∧
      (ofWorld world).Along (ofWorld world).Allows state events ∧
      (ofWorld world).afterAll state events = (routine.run world state).2 := by
  induction routine generalizing state with
  | finished value => exact ⟨[], .finished value, trivial, rfl⟩
  | ask request resume ih =>
      obtain ⟨events, leads, allowed, reached⟩ :=
        ih (world request state).1 (world request state).2
      exact ⟨_, .ask _ leads, ⟨rfl, allowed⟩, reached⟩

theorem Triple.run {pre : σ → Prop} {routine : Routine interface α} {post : α → σ → Prop}
    (triple : (ofWorld world).Triple pre routine post) {state : σ} (holds : pre state) :
    post (routine.run world state).1 (routine.run world state).2 := by
  obtain ⟨events, leads, allowed, reached⟩ := @exists_along_run interface α σ world routine state
  rw [← reached]
  exact (triple state events _ holds leads allowed).2

private theorem along_of_ofWorld
    (keeps : ∀ request state, monitor.Allows state ⟨request, (world request state).1⟩ ∧
      monitor.after state ⟨request, (world request state).1⟩ = (world request state).2)
    {state : σ} {events : List (Event interface)}
    (allowed : (ofWorld world).Along (ofWorld world).Allows state events) :
    monitor.Along monitor.Allows state events ∧
      monitor.afterAll state events = (ofWorld world).afterAll state events ∧
      (ofWorld world).Along (ofWorld world).Demands state events := by
  induction events generalizing state with
  | nil => exact ⟨trivial, rfl, trivial⟩
  | cons event rest ih =>
      obtain ⟨request, reply⟩ := event
      obtain ⟨replyEq, allowedRest⟩ := allowed
      change reply = (world request state).1 at replyEq
      obtain ⟨allowedHere, reached⟩ := keeps request state
      obtain ⟨allowedBehind, left, met⟩ := ih allowedRest
      rw [replyEq]
      refine ⟨⟨allowedHere, ?_⟩, ?_, trivial, ?_⟩
      · rw [reached]
        exact allowedBehind
      · change monitor.afterAll (monitor.after state _) rest = _
        rw [reached]
        exact left
      · exact met

theorem Triple.of_world {pre : σ → Prop} {routine : Routine interface α} {post : α → σ → Prop}
    (triple : monitor.Triple pre routine post)
    (keeps : ∀ request state, monitor.Allows state ⟨request, (world request state).1⟩ ∧
      monitor.after state ⟨request, (world request state).1⟩ = (world request state).2) :
    (ofWorld world).Triple pre routine post := by
  intro state events value holds leads allowed
  obtain ⟨allowedHere, left, met⟩ := along_of_ofWorld keeps allowed
  rw [← left]
  exact ⟨met, (triple state events value holds leads allowedHere).2⟩

theorem triple_exists {pre : β → σ → Prop} {routine : Routine interface α} {post : α → σ → Prop}
    (triple : ∀ given, monitor.Triple (pre given) routine post) :
    monitor.Triple (fun state => ∃ given, pre given state) routine post := by
  rintro state events value ⟨given, holds⟩ leads allowed
  exact triple given state events value holds leads allowed

end Monitor

end PipelineShell

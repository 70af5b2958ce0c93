import PipelineShell.Script.Redirecting

/-!
Children of scripts. A script waits for the children that it starts, except for those in the
background, and learns of the end of any of them while it waits.
-/

namespace PipelineShell.Script

/-! ### Starting children -/

/-- How a child is started. -/
inductive Start where
  | foreground
  | background (first : Bool)
deriving DecidableEq, Repr

def becomeChild (start : Start) : Run Unit := do
  let converses := (← get).converses
  let sources := (← get).sources
  sources.forM fun fd => ask (.system (.close fd))
  modify fun state =>
    { state with level := state.level + 1, sources := [], redirections := [] }
  clearTraps
  if converses then
    conversationSignals.forM applyTrap
  if start != .foreground then
    ignoreForGood 2
    ignoreForGood 3
  if start = .background true then
    ask (.system (.close Fd.input))
    let _ ← openFile "/dev/null".toList .reading
  modify fun state => { state with jobs := [] }

def startChild (start : Start) (body : Run Unit) : Run Pid := do
  match ← ask .split with
  | some pid => return pid
  | none =>
      becomeChild start
      body
      stop .finished

/-! ### Jobs -/

/-- The least number that is free for a job. One that has been waited for gives up its number. -/
def freeJobNumber (jobs : List Job) : Nat :=
  let taken := fun (number : Nat) =>
    jobs.any fun job => job.number = number && !(job.done && job.waited)
  ((List.range (jobs.length + 1)).map (· + 1)).find? (fun number => !taken number)
    |>.getD (jobs.length + 1)

def addJob : Run Nat := do
  let jobs := (← get).jobs
  let number := freeJobNumber jobs
  let others := jobs.filter fun job => job.number != number
  modify fun state => { state with jobs := ⟨number, [], false⟩ :: others }
  return number

def changeJob (number : Nat) (change : Job → Job) : Run Unit :=
  modify fun state =>
    let jobs := state.jobs.map fun job => if job.number = number then change job else job
    { state with jobs }

def addProcess (number : Nat) (pid : Pid) : Run Unit :=
  changeJob number fun job => { job with processes := job.processes ++ [(pid, none)] }

def forgetJob (number : Nat) : Run Unit :=
  modify fun state => { state with jobs := state.jobs.filter fun job => job.number != number }

def Interpreter.job? (state : Interpreter) (number : Nat) : Option Job :=
  state.jobs.find? fun job => job.number = number

def Job.status (job : Job) : Int :=
  match job.processes.getLast? with
  | some (_, some death) => statusOf death
  | _ => 0

/-! ### Waiting -/

def announce : Death → Run Unit
  | .exited _ => return ()
  | .killed signal => do
      if signal != 2 && signal != 13 then
        writeTo Fd.error ((Signal.description signal).toList ++ ['\n'])

/-- Takes note of the end of a process; `awaited` is the job that somebody waits for. -/
def noteDeath (awaited : Option Nat) (pid : Pid) (death : Death) : Run Unit := do
  let state ← get
  let isIt := fun (process : Pid × Option Death) => process.1 = pid && process.2.isNone
  match state.jobs.find? fun job => job.processes.any isIt with
  | none => return ()
  | some job =>
      changeJob job.number fun job => { job with
        processes := job.processes.map fun process =>
          if isIt process then (pid, some death) else process }
      if (state.traps.lookup Signal.child).any (fun action => !action.isEmpty) then
        modify fun state => { state with
          pending := (state.pending.filter (· != Signal.child)) ++ [Signal.child] }
      if awaited = some job.number then
        announce death

def noteDeaths (awaited : Option Nat) : Run Unit :=
  loop () fun () => do
    match ← ask (.collect false) with
    | .ok (some (pid, death)) =>
        noteDeath awaited pid death
        return .inl ()
    | _ => return .inr ()

def refreshJobs : Run Unit := do
  if (← get).jobs.any fun job => !job.done then
    noteDeaths none

def awaitJob (number : Nat) : Run Unit :=
  loop () fun () => do
    if ((← get).job? number).all Job.done then
      noteDeaths (some number)
      return .inr ()
    else
      match ← ask (.collect true) with
      | .ok (some (pid, death)) =>
          noteDeath (some number) pid death
          return .inl ()
      | .ok none => return .inl ()
      | .error .interrupted =>
          noticeSignals
          return .inl ()
      | .error _ => return .inr ()

def finishJob (number : Nat) : Run Int := do
  awaitJob number
  let status := (((← get).job? number).map Job.status).getD 0
  forgetJob number
  return status

/-- Waits for the end of some process, unless a signal comes first; the value tells whether none
has come. -/
def awaitSome (awaited : Option Nat) : Run Bool := do
  checkSignals
  match ← ask (.collect false) with
  | .ok (some (pid, death)) =>
      noteDeath awaited pid death
      return true
  | .error _ => return true
  | .ok none =>
      if !(← get).pending.isEmpty then return false
      else
        match ← ask (.collect true) with
        | .ok (some (pid, death)) =>
            noteDeath awaited pid death
            return true
        | .error .interrupted =>
            noticeSignals
            return false
        | _ => return true

/-- Waits until a test succeeds or a signal comes; the value tells whether the test has
succeeded. -/
def awaitUntil (awaited : Option Nat) (test : Interpreter → Bool) : Run Bool :=
  loop () fun () => do
    if test (← get) then return .inr true
    else if ← awaitSome awaited then return .inl ()
    else return .inr false

def interruptedStatus : Run Int := do
  return 128 + ((← get).pending.getLast?.getD 0 : Nat)

/-- The job that a text with a percent sign names; without a text it is the last one. -/
def namedJob (text : Option Octets) : Run Job := do
  let jobs := (← get).jobs
  let unknown := "No such job: ".toList ++ text.getD []
  let isLast := match text with
    | none => true
    | some text => text == ['%'] || text == ['%', '%'] || text == ['%', '+']
  let (found, complaint) :=
    if isLast then (jobs.head?, "No current job".toList)
    else match text with
      | some ['%', '-'] => (jobs[1]?, "No previous job".toList)
      | some ('%' :: digits) =>
          if digits.all Char.isDigit then
            (jobs.find? fun job => job.number = Numeral.valueOf 10 digits, unknown)
          else (none, unknown)
      | _ => (none, unknown)
  match found with
  | some job => return job
  | none => fail complaint

/-- Waits for one operand of `wait`; nothing if a signal comes first. -/
def awaitOperand (operand : Octets) : Run (Option Int) := do
  let job ← if operand.head? == some '%' then do pure (some (← namedJob (some operand)))
    else do
      let pid : Pid := ⟨← wholeNumber operand⟩
      pure ((← get).jobs.find? fun job => (job.processes.getLast?.map Prod.fst) == some pid)
  match job with
  | none => return some 127
  | some job =>
      let isDone := fun (state : Interpreter) => (state.job? job.number).all Job.done
      if ← awaitUntil (some job.number) isDone then
        changeJob job.number fun job => { job with waited := true }
        return some ((((← get).job? job.number).map Job.status).getD 0)
      else return none

def awaitOperands (status : Int) : List Octets → Run Int
  | [] => return status
  | operand :: rest => do
      match ← awaitOperand operand with
      | some status => awaitOperands status rest
      | none => interruptedStatus

def awaitAll : Run Int := do
  let allDone := fun (state : Interpreter) => state.jobs.all Job.done
  if ← awaitUntil none allDone then
    modify fun state =>
      { state with jobs := state.jobs.map fun job => { job with waited := true } }
    return 0
  else interruptedStatus

def Job.shown (job : Job) (mark : Char) : Octets :=
  let front := '[' :: Octets.ofNumber job.number ++ [']', ' ', mark, ' ']
  let standing :=
    if !job.done then "Running"
    else match job.processes.getLast? with
      | some (_, some (.killed signal)) => Signal.description signal
      | some (_, some (.exited code)) =>
          if code = 0 then "Done" else "Done(" ++ toString code.toNat ++ ")"
      | _ => "Done"
  let text := front ++ standing.toList
  let others := (job.processes.drop 1).flatMap fun _ => " | ".toList
  text ++ List.replicate (max 1 (33 - text.length)) ' ' ++ others ++ ['\n']

def showJob (leaderOnly : Bool) (job : Job) : Run Unit := do
  let jobs := (← get).jobs
  let isAt := fun (place : Nat) => (jobs[place]?.map Job.number) == some job.number
  let mark := if isAt 0 then '+' else if isAt 1 then '-' else ' '
  if leaderOnly then
    let leader := (job.processes.head?.map fun process => process.1.number).getD 0
    print (Octets.ofNumber leader ++ ['\n'])
  else
    print (job.shown mark)
    if job.done then
      forgetJob job.number

def showJobs (leaderOnly : Bool) : Run Unit := do
  refreshJobs
  (← get).jobs.forM (showJob leaderOnly)

end PipelineShell.Script

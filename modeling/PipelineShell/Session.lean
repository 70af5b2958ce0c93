import PipelineShell.CommandLine.Reader
import PipelineShell.Shell.Run

/-!
A session: lines out of the reads of an input, run one after another until the input ends, a read
fails or a line asks to leave. Before every read that is not a retry, finished jobs are reported
and the prompt is shown. A session asks for each read when it is due; what answers it is a list of
outcomes or the input of the shell.
-/

namespace PipelineShell

/-- What one read comes to. No bytes mean the end of the input. -/
inductive ReadOutcome where
  | bytes (bytes : List UInt8)
  /-- Nothing was read, and reading again is in order. -/
  | interrupted
  | failed (message : String)
deriving DecidableEq, Repr

def ReadOutcome.ofReply : Except Errno (List UInt8) → ReadOutcome
  | .ok content => .bytes content
  | .error .interrupted => .interrupted
  | .error errno => .failed errno.fileMessage

/-- How a session ends. -/
inductive Ending where
  /-- With a code to leave with. -/
  | left (code : Int)
  | readFailed (message : String)
  /-- Not yet: all the reads that it may make have been made. -/
  | cutOff
deriving DecidableEq, Repr

/-- A session that has ended. -/
structure SessionEnd where
  ending : Ending
  shell : Shell
  /-- How many reads were made. -/
  reads : Nat
deriving DecidableEq, Repr

namespace Session

/-- What a session asks for: what its shell asks of the system, and the next read. -/
inductive Request where
  | system (call : System.Call)
  | read
deriving DecidableEq, Repr

abbrev Request.Reply : Request → Type
  | .system call => call.Reply
  | .read => ReadOutcome

abbrev interface : Interface :=
  ⟨Request, Request.Reply⟩

def ofSystem {α : Type} (routine : Routine System.interface α) : Routine interface α :=
  @Routine.embed System.interface α interface Request.system (fun _ reply => reply) routine

def read : Routine interface ReadOutcome :=
  @Routine.request interface Request.read

def jobReport (job : FinishedJob) : String :=
  "[" ++ toString job.id ++ "] "
    ++ (if job.status = 0 then "done " else "exit " ++ toString job.status ++ " ")
    ++ job.description

def writeReports : List FinishedJob → Routine System.interface Unit
  | [] => return ()
  | job :: rest => do
      System.complain (jobReport job)
      writeReports rest

def announceFinished (shell : Shell) : Routine System.interface Shell := do
  let (finished, jobs) ← shell.jobs.reap
  writeReports finished
  return { shell with jobs }

/-- Runs a line and reports how it went, if that is worth a report. -/
def runLine (shell : Shell) (line : CommandLine) : Routine System.interface Shell := do
  match ← shell.run line with
  | (.ok (.done _), shell) => return shell
  | (.ok (.background id), shell) =>
      match (shell.jobs.get? id).bind Job.finalPid? with
      | none => return shell
      | some pid =>
          System.complain ("[" ++ toString id ++ "] " ++ toString pid.number)
          return shell
  | (.error fault, shell) =>
      System.complain ("pish: " ++ fault.message)
      return { shell with lastStatus := 1 }

def perform (shell : Shell) : List Reading → Routine System.interface Shell
  | [] => return shell
  | .line line :: rest => do
      let shell ← runLine shell line
      if shell.exit.isSome then return shell else perform shell rest
  | .fault fault :: rest => do
      System.complain ("pish: syntax error: " ++ fault.message)
      perform { shell with lastStatus := 2 } rest
  | .blank :: rest => perform shell rest
  | .incomplete :: rest => perform shell rest

def prepareRead (prompt : Option String) (shell : Shell) : Routine System.interface Shell := do
  let shell ← announceFinished shell
  match prompt with
  | none => return shell
  | some prompt =>
      System.call (.showPrompt prompt)
      return shell

/-- Runs what the end of the input leaves without a terminator, unless it is blank. -/
def finishInput (shell : Shell) (reader : LineReader) : Routine System.interface Shell :=
  if reader.hasLeftover then perform shell (reader.feed [Byte.lineFeed]).takeLines.1
  else return shell

/-- What a read leads to: the session ends with a value, or it goes on. -/
inductive AfterRead where
  | ended (ending : Ending) (shell : Shell)
  | goesOn (shell : Shell) (reader : LineReader)
deriving DecidableEq, Repr

/-- Acts on what a read has come to, up to the moment of the next read. -/
def takeRead (prompt : Option String) (shell : Shell) (reader : LineReader) :
    ReadOutcome → Routine System.interface AfterRead
  | .interrupted => return .goesOn shell reader
  | .failed message => return .ended (.readFailed message) shell
  | .bytes [] => do
      let shell ← finishInput shell reader
      return .ended (.left shell.leavingCode) shell
  | .bytes (byte :: bytes) => do
      let (readings, reader) := (reader.feed (byte :: bytes)).takeLines
      let shell ← perform shell readings
      if shell.exit.isSome then
        return .ended (.left shell.leavingCode) shell
      else
        let shell ← prepareRead prompt shell
        return .goesOn shell reader

/-- Goes on after `made` reads, once the next read has been prepared, with at most `limit` more. -/
def serve (prompt : Option String) (made : Nat) (shell : Shell) (reader : LineReader) :
    Nat → Routine interface SessionEnd
  | 0 => return ⟨.cutOff, shell, made⟩
  | limit + 1 => do
      let outcome ← read
      match ← ofSystem (takeRead prompt shell reader outcome) with
      | .ended ending shell => return ⟨ending, shell, made + 1⟩
      | .goesOn shell reader => serve prompt (made + 1) shell reader limit

/-- A session of at most `limit` reads. -/
def drive (prompt : Option String) (shell : Shell) (limit : Nat) :
    Routine interface SessionEnd := do
  let shell ← ofSystem (prepareRead prompt shell)
  serve prompt 0 shell .empty limit

/-- Answers the reads out of a source, which each of them changes. -/
def supply {ρ α : Type} (source : ρ → Routine System.interface (ReadOutcome × ρ)) :
    Routine interface α → ρ → Routine System.interface α
  | .finished value, _ => return value
  | .ask (.system call) resume, rest => do
      let reply ← System.call call
      supply source (resume reply) rest
  | .ask .read resume, rest => do
      let (outcome, rest) ← source rest
      supply source (resume outcome) rest

/-- The next of the listed outcomes. Behind them the input has ended. -/
def listed : List ReadOutcome → Routine System.interface (ReadOutcome × List ReadOutcome)
  | [] => return (.bytes [], [])
  | outcome :: rest => return (outcome, rest)

/-- Runs a session over the outcomes. One read more than there are is enough: it finds the end. -/
def run (prompt : Option String) (shell : Shell) (outcomes : List ReadOutcome) :
    Routine System.interface SessionEnd :=
  supply listed (drive prompt shell (outcomes.length + 1)) outcomes

/-! ### The input of the shell itself -/

/-- The size of the buffer through which the shell reads its own input. -/
def inputBuffer : Nat := 8192

/-- Reads up to `chunkSize` bytes of the input, and gives the bytes left in the buffer, which
holds some already. Chunks that are no smaller than the buffer are read past it. -/
def readInput (chunkSize : Nat) (held : List UInt8) :
    Routine System.interface (ReadOutcome × List UInt8) := do
  if !held.isEmpty then return (.bytes (held.take chunkSize), held.drop chunkSize)
  else if inputBuffer ≤ chunkSize then
    return (.ofReply (← System.call (.read Fd.input chunkSize)), [])
  else
    match ← System.call (.read Fd.input inputBuffer) with
    | .ok bytes => return (.bytes (bytes.take chunkSize), bytes.drop chunkSize)
    | reply => return (.ofReply reply, [])

/-- Runs a session over the input, in at most `limit` reads. -/
def runInput (prompt : Option String) (chunkSize : Nat) (shell : Shell) (limit : Nat) :
    Routine System.interface SessionEnd :=
  supply (readInput chunkSize) (drive prompt shell limit) []

end Session

/-- A part of an input: bytes that are read up to `chunkSize` at a time, or a read that fails. -/
inductive InputPart where
  | bytes (bytes : List UInt8)
  | interrupted
  | failed (message : String)
deriving DecidableEq, Repr

/-- The reads that a part serves to a buffer of the size. No read crosses the end of a part, and
a part without bytes makes a read that returns none. -/
def InputPart.outcomes (chunkSize : Nat) : InputPart → List ReadOutcome
  | .bytes [] => [.bytes []]
  | .bytes content => (pieces chunkSize content).map .bytes
  | .interrupted => [.interrupted]
  | .failed message => [.failed message]

end PipelineShell

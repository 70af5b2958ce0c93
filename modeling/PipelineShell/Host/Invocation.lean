import PipelineShell.Host.Setup
import PipelineShell.Options.Reading
import PipelineShell.Session

/-!
The shell as a program: its options, one session over a line or over its input, and the code it
leaves with, of which the lowest eight bits are kept.
-/

namespace PipelineShell

/-- The prompt that a session shows. A line is never prompted for. -/
def Options.sessionPrompt (options : Options) (terminal : Bool) : Option String :=
  if options.line.isNone && !options.noPrompt && terminal then some options.prompt else none

def readLimit : Nat := 1000000000

def Options.session (options : Options) : Routine System.interface SessionEnd :=
  let chunkSize := options.chunkSize.toNat
  match options.line with
  | some line =>
      Session.run none .new ((InputPart.bytes (Utf8.bytes line)).outcomes chunkSize)
  | none => Session.runInput (options.sessionPrompt false) chunkSize .new readLimit

def Ending.exitCode : Ending → UInt8
  | .left code => UInt8.ofNat (code % 256).toNat
  | .readFailed _ => 1
  | .cutOff => 1

namespace Host

def refusedCode : UInt8 := 2

/-- Runs the shell as a program, with the bytes of its input. There is no result if a line waits
forever. -/
def invoke (host : Host) (arguments : List (List UInt8)) (input : List UInt8) :
    Option (UInt8 × Capture × Host) :=
  let (capture, host) := host.capture
  let say := fun (fd : Fd) (text : String) =>
    (host.run shellPid (System.call (.write fd text))).map Prod.snd
  match Options.read arguments with
  | .error .help => (say Fd.output Options.helpText).map fun host => (0, capture, host)
  | .error .version => (say Fd.output Options.versionText).map fun host => (0, capture, host)
  | .error (.fault fault) =>
      (say Fd.error fault.message).map fun host => (refusedCode, capture, host)
  | .ok options =>
      let host := host.provideInput ⟨input.toArray⟩
      (host.run shellPid options.session).map fun (ended, host) =>
        (ended.ending.exitCode, capture, host.settled)

end Host

end PipelineShell

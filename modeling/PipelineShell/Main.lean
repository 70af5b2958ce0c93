import PipelineShell.Host.Invocation

/-!
The command line. The shell runs on a host of its own that begins without files; its input is read
to the end before it starts, and what it has printed is passed on when it has ended.
-/

namespace PipelineShell

/-- All bytes that a stream still gives. -/
partial def readAll (stream : IO.FS.Stream) (before : ByteArray) : IO ByteArray := do
  let chunk ← stream.read 4096
  if chunk.isEmpty then return before else readAll stream (before ++ chunk)

def runProgram (arguments : List String) : IO UInt32 := do
  let input ← readAll (← IO.getStdin) ByteArray.empty
  let host := Host.new [] (some (Utf8.bytes Host.homePath))
  match host.invoke (arguments.map Utf8.bytes) input.data.toList with
  | none =>
      (← IO.getStderr).putStrLn (Options.programName ++ ": a line waits forever")
      return 1
  | some (code, capture, host) =>
      (← IO.getStdout).write (host.content capture.output)
      (← IO.getStderr).write (host.content capture.error)
      return code.toUInt32

end PipelineShell

def main (arguments : List String) : IO UInt32 :=
  PipelineShell.runProgram arguments

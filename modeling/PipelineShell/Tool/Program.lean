import PipelineShell.Host.Image
import PipelineShell.Script.Program
import PipelineShell.Tool.Copy
import PipelineShell.Tool.Count
import PipelineShell.Tool.Files
import PipelineShell.Tool.Format
import PipelineShell.Tool.Sort
import PipelineShell.Tool.Tail
import PipelineShell.Tool.Transliterate

/-!
What each tool does, from its arguments to its exit code.
-/

namespace PipelineShell

/-- A tool that has been told its arguments. The first argument is the name it goes by. -/
def Tool.routine : Tool → List Octets → Routine Host.interface Int
  | .cat => Tool.perform 1 Tool.catWork
  | .echo => Tool.perform 1 Tool.echoWork
  | .fail => fun _ => return 1
  | .mkfifo => Tool.perform 1 Tool.mkfifoWork
  | .printf => Tool.perform 1 Tool.printfWork
  | .rmdir => Tool.perform 1 Tool.rmdirWork
  | .sh => Script.work
  | .sort => Tool.perform Tool.sortFailure Tool.sortWork
  | .succeed => fun _ => return 0
  | .tail => Tool.perform 1 Tool.tailWork
  | .tr => Tool.perform 1 Tool.trWork
  | .wc => Tool.perform 1 Tool.wcWork

def Host.Image.routine (image : Host.Image) : Routine Host.interface Int :=
  image.tool.routine image.arguments

end PipelineShell

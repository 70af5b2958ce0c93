import PipelineShell.Main
import PipelineShell.Proofs.Reader.Batch
import PipelineShell.Proofs.Reader.Bounds
import PipelineShell.Proofs.Reader.Cursor
import PipelineShell.Proofs.Line.Acceptance
import PipelineShell.Proofs.Line.Building
import PipelineShell.Proofs.Line.Inversion
import PipelineShell.Proofs.Line.Progress
import PipelineShell.Proofs.Line.Recoding
import PipelineShell.Proofs.Line.Rendering
import PipelineShell.Proofs.Line.Respacing
import PipelineShell.Proofs.Line.Transcript
import PipelineShell.Proofs.Plan.Language
import PipelineShell.Proofs.Jobs.History
import PipelineShell.Proofs.Jobs.Lone
import PipelineShell.Proofs.Jobs.Numbers
import PipelineShell.Proofs.Shell.Accounting
import PipelineShell.Proofs.Shell.AndOr
import PipelineShell.Proofs.Shell.Builtins
import PipelineShell.Proofs.Shell.Deaths
import PipelineShell.Proofs.Shell.Frame
import PipelineShell.Proofs.Shell.Outcome
import PipelineShell.Proofs.Shell.Programs
import PipelineShell.Proofs.Shell.Requests
import PipelineShell.Proofs.Shell.Subshell
import PipelineShell.Proofs.Shell.Target
import PipelineShell.Proofs.Shell.Waiting
import PipelineShell.Proofs.Session.Account
import PipelineShell.Proofs.Session.Frame
import PipelineShell.Proofs.Session.Leaving
import PipelineShell.Proofs.Session.Leftover
import PipelineShell.Proofs.Session.Prompts
import PipelineShell.Proofs.Session.Reading

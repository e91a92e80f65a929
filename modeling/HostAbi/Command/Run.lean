import HostAbi.Command.Request
import HostAbi.File.Tree
import HostAbi.Report.Document
import HostAbi.Report.Text

/-!
# Running a command line

A request is answered with a document, which goes to standard output or into a file, a trace, which
goes to standard error, and the exit code of its report. A file that cannot be opened ends the run
with exit code 1 and is reported on standard error, and then no file has changed.
-/

namespace HostAbi

/-- The answer to a request. -/
structure Answer where
  document : String
  trace : String := ""
  out : Option String
  exitCode : Int32

/-- The tool that a report names if it was made for a command line. -/
def commandTool : Tool := ⟨"shimabi-cli", "0.1.0"⟩

namespace VerifyRequest

/-- The report asked for. What is checked is the target that the program itself is made for. -/
def report (r : VerifyRequest) : Report := check r.profile commandTool .linux64 .linux64

/-- The report in the format asked for, and the trace if that was asked for too. -/
def answer (r : VerifyRequest) : Answer where
  document := match r.format with
    | .text => r.report.text
    | .json => r.report.json.pretty ++ "\n"
  trace := if r.verbose then r.report.trace else ""
  out := r.out
  exitCode := r.report.conclusion.exitCode

end VerifyRequest

namespace AuditRequest

/-- The report on a module file with these bytes. It gives the path as the command line does. -/
def report (r : AuditRequest) (bytes : List UInt8) : AuditReport :=
  auditFile r.path bytes commandTool

/-- The answer for a module file with these bytes. -/
def answer (r : AuditRequest) (bytes : List UInt8) : Answer where
  document := match r.format with
    | .text => (r.report bytes).text
    | .json => (r.report bytes).json.pretty ++ "\n"
  out := r.out
  exitCode := (r.report bytes).exitCode

end AuditRequest

/-- What is reported of a file that could not be opened. -/
structure FileError where
  context : String
  reason : String

namespace FileError

/-- A module file that could not be read. -/
def reading (path reason : String) : FileError := ⟨"failed to read module: " ++ path, reason⟩

/-- A file that a document could not be written to. -/
def writing (path reason : String) : FileError := ⟨"failed to write output: " ++ path, reason⟩

/-- The error in one line. -/
def chain (e : FileError) : String := e.context ++ ": " ++ e.reason

/-- The error as a run shows it, its reason on a line of its own. -/
def report (e : FileError) : String :=
  "Error: " ++ e.context ++ "\n\nCaused by:\n    " ++ e.reason ++ "\n"

end FileError

/-- What can be seen of a run once it is over. -/
structure RunResult where
  code : Int32
  stdout : String := ""
  stderr : String := ""
  files : FileTree

/-- What is shown to those who ask for the version. -/
def versionText : String := "shimabi 0.1.0\n"

/-- A summary of the command lines that there are. It stands in for a longer help text and for the
descriptions of single mistakes, whose wording is left open: no result is about this text, only
about where it is shown and with which exit code. -/
def usageText : String :=
  "Usage: shimabi [verify] [--profile <minimal|extended>] [--format <text|json>] [--out <FILE>]"
    ++ " [-v]\n"
    ++ "       shimabi audit <FILE> [--format <text|json>] [--out <FILE>]\n"

namespace Stop

/-- A mistake has an exit code of its own, and asking for help is not one. -/
def exitCode : Stop → Int32
  | .help | .version => 0
  | .usageError => 2

/-- What those get to see who asked for something to be shown. -/
def stdout : Stop → String
  | .help => usageText
  | .version => versionText
  | .usageError => ""

/-- What those get to see who made a mistake. -/
def stderr : Stop → String
  | .help | .version => ""
  | .usageError => usageText

/-- Nothing is done, except that what was called for is shown. -/
def run (s : Stop) (t : FileTree) : RunResult :=
  { code := s.exitCode, stdout := s.stdout, stderr := s.stderr, files := t }

end Stop

namespace Answer

/-- Hands over an answer on a tree of files. If it is to go into a file that cannot be written, the
exit code is 1 whatever the report's is, the trace is shown nevertheless, and no file changes. -/
def deliver (a : Answer) (t : FileTree) : RunResult :=
  match a.out with
  | none => { code := a.exitCode, stdout := a.document, stderr := a.trace, files := t }
  | some path =>
    match t.write path (Utf8.encode a.document) with
    | .ok t' => { code := a.exitCode, stderr := a.trace, files := t' }
    | .error e =>
      { code := 1, stderr := a.trace ++ (FileError.writing path e.message).report, files := t }

end Answer

/-- The report on a module file of a tree. -/
def inspect (path : String) (tool : Tool) (t : FileTree) : Except FileError AuditReport :=
  match t.read path with
  | .ok bytes => .ok (auditFile path bytes tool)
  | .error e => .error (.reading path e.message)

namespace Request

/-- Answers a request. An audit fails before anything else if its module file cannot be read. -/
def run (r : Request) (t : FileTree) : RunResult :=
  match r with
  | .verify v => v.answer.deliver t
  | .audit a =>
    match t.read a.path with
    | .ok bytes => (a.answer bytes).deliver t
    | .error e => { code := 1, stderr := (FileError.reading a.path e.message).report, files := t }

end Request

/-- Runs a command line in the working directory of a tree. -/
def runCommand (words : List String) (t : FileTree) : RunResult :=
  match Request.ofWords words with
  | .ok r => r.run t
  | .error s => s.run t

end HostAbi

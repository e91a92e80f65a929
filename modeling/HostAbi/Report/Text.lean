import HostAbi.Report.Audit

/-!
# Reports as lines of text

A verification that passes has no text, and one that fails has the name of the fact. An audit has a
line for each finding. The trace of a verification has a line for each fact that was reached,
between a line for what was checked and a line for the result.
-/

namespace HostAbi

/-- Lines, each with its end. -/
def unlines (lines : List String) : String := String.join (lines.map (· ++ "\n"))

namespace Report

/-- The name of the fact that failed, if one did. -/
def lines (r : Report) : List String := (r.conclusion.failure.map (·.factName)).toList

/-- The text of a verification, which is empty if it passed. -/
def text (r : Report) : String := unlines r.lines

end Report

/-- A line of the trace. It gives the pinned value only if another one was found. -/
def EvaluatedFact.line (e : EvaluatedFact) : String :=
  if e.passed then "  ok    " ++ e.name ++ " = " ++ e.actual.toInt.repr
  else "  FAIL  " ++ (Mismatch.mk e.name e.expected e.actual).message

namespace Report

/-- The first line of the trace: the tool, and what it checks on which target. -/
def openingLine (r : Report) : String :=
  r.tool.name ++ " " ++ r.tool.version ++ ": " ++ r.profile.name ++ " profile on " ++ r.target.arch
    ++ "-" ++ r.target.os ++ " (" ++ r.factsTotal.repr ++ " facts)"

/-- The last line of the trace: the result, and how many facts were reached. -/
def closingLine (r : Report) : String :=
  r.conclusion.status.name ++ " (" ++ r.evaluated.length.repr ++ "/" ++ r.factsTotal.repr
    ++ " checked)"

/-- The lines of the trace. One of a verification without facts has the first and the last only. -/
def traceLines (r : Report) : List String :=
  r.openingLine :: r.evaluated.map (·.line) ++ [r.closingLine]

def trace (r : Report) : String := unlines r.traceLines

end Report

/-- An import as lines name it. -/
def Import.label (i : Import) : String :=
  i.fromModule ++ "." ++ i.name ++ " (" ++ i.kind ++ ")"

namespace Analysis

/-- Why a file was not read to its end, in as many lines as there are warnings. -/
def lines (A : Analysis) : List String :=
  if A.isOk then [] else A.warnings.map fun w => A.status ++ ": " ++ w

end Analysis

namespace Findings

/-- The findings of one sort after those of another, each named by its sort. -/
def lines (F : Findings) : List String :=
  F.unsupported.map (fun i => "unsupported import: " ++ i.label)
    ++ F.stubbed.map (fun i => "stubbed import: " ++ i.label)
    ++ F.missing.map (fun name => "missing export: " ++ name)

end Findings

namespace AuditReport

/-- What was wrong with the file stands before what was found in it. -/
def lines (r : AuditReport) : List String := r.analysis.lines ++ r.findings.lines

def text (r : AuditReport) : String := unlines r.lines

end AuditReport

end HostAbi

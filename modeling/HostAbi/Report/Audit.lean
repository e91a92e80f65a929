import HostAbi.Audit.Findings
import HostAbi.Binary.Module
import HostAbi.Digest.Sha256
import HostAbi.Report.Verification

/-!
# Audit reports

What an audit of a module file found: which file it was, whether it could be read, what it imports
and exports, and what in that the host does not provide. The exit code is zero exactly if the file
was read to its end and the findings are clean.
-/

namespace HostAbi

/-- A digest in hexadecimal, with the name of its algorithm. -/
structure Checksum where
  algorithm : String
  value : String
  deriving DecidableEq

/-- Which file was audited. -/
structure Artifact where
  path : Option String
  sizeBytes : UInt64
  hash : Checksum
  deriving DecidableEq

/-- The artifact of a file, with the path just as it was given. -/
def Artifact.ofFile (path : String) (bytes : List UInt8) : Artifact where
  path := path
  sizeBytes := .ofNat bytes.length
  hash := ⟨"sha256", Hex.ofBytes (Sha256.digest bytes)⟩

/-- How far a module could be read. -/
structure Analysis where
  status : String
  warnings : List String
  deriving DecidableEq

namespace Analysis

/-- The file was read to its end. -/
def ok : Analysis := ⟨"ok", []⟩

/-- The file was read up to a fault. -/
def parseError (warning : String) : Analysis := ⟨"parse_error", [warning]⟩

/-- The file is of a sort that is not read. -/
def unsupported (warning : String) : Analysis := ⟨"unsupported", [warning]⟩

/-- Whether the file was read to its end. -/
def isOk (A : Analysis) : Bool := A.status == "ok"

end Analysis

/-- A verdict as a report states it. -/
def Verdict.analysis : Verdict → Analysis
  | .ok => .ok
  | .faulty f => .parseError f.message
  | .component => .unsupported "component binaries are not instantiated by the shim"

namespace Verdict

theorem status_eq_ok {v : Verdict} : v.analysis.status = "ok" ↔ v = .ok := by
  cases v <;> simp [analysis, Analysis.ok, Analysis.parseError, Analysis.unsupported]

theorem status_eq_unsupported {v : Verdict} :
    v.analysis.status = "unsupported" ↔ v = .component := by
  cases v <;> simp [analysis, Analysis.ok, Analysis.parseError, Analysis.unsupported]

end Verdict

/-- What an audit reports, in the order of its document. -/
structure AuditReport where
  schemaVersion : String := HostAbi.schemaVersion
  tool : Tool
  artifact : Artifact
  analysis : Analysis
  imports : List Import
  exports : List Export
  findings : Findings
  exitCode : Int32
  deriving DecidableEq

/-- The report on an interface that was read from an artifact. -/
def Interface.audit (I : Interface) (analysis : Analysis) (tool : Tool) (artifact : Artifact) :
    AuditReport where
  tool
  artifact
  analysis
  imports := I.imports
  exports := I.exports
  findings := I.findings
  exitCode := if analysis.isOk && I.findings.isClean then 0 else 1

/-- The report on the module file at a path with these bytes. -/
def auditFile (path : String) (bytes : List UInt8) (tool : Tool) : AuditReport :=
  let reading := readModule bytes
  reading.interface.audit reading.verdict.analysis tool (.ofFile path bytes)

end HostAbi

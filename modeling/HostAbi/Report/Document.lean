import HostAbi.Json.Parser
import HostAbi.Json.Printer
import HostAbi.Json.Record
import HostAbi.Report.Audit

/-!
# Reports as JSON

The JSON form of a report has the fields of the report in their order. The parts of reports can
also be read back: what `json` gives for a part, `ofJson?` turns into that part again, and it
takes any other JSON form of the part too.
-/

namespace HostAbi

namespace Json

/-- A signed integer of 64 bits as a number. -/
def ofInt64 (n : Int64) : Json := .ofInt n.toInt

def ofInt32 (n : Int32) : Json := .ofInt n.toInt

def ofNat (n : Nat) : Json := .ofInt n

/-- A list as an array of what is written for its elements. -/
def ofList {α : Type} (write : α → Json) (xs : List α) : Json := .arr (xs.map write)

/-- What is missing is written as null. -/
def ofOption {α : Type} (write : α → Json) : Option α → Json
  | none => .null
  | some a => write a

/-- What a text states, if it is a JSON form of something of the type that is read. -/
def decode? {α : Type} (read : Json → Option α) (text : String) : Option α :=
  (parse? text).bind read

/-- The text that is written for what a text states. -/
def rewrite? {α : Type} (read : Json → Option α) (write : α → Json) (text : String) :
    Option String :=
  (decode? read text).map fun a => (write a).compact

end Json

open Json

namespace FactKind

/-- A kind is written as its name. -/
def json (k : FactKind) : Json := .ofString k.name

/-- The kind whose name is the variant's. -/
def ofJson? (v : Json) : Option FactKind := v.variant?.bind ofName?

end FactKind

namespace Profile

/-- A profile is written as its name. -/
def json (p : Profile) : Json := .ofString p.name

def ofJson? (v : Json) : Option Profile := v.variant?.bind ofName?

end Profile

namespace Query

/-- A query is written as its name. -/
def json (q : Query) : Json := .ofString q.name

def ofJson? (v : Json) : Option Query := v.variant?.bind ofName?

end Query

namespace Status

/-- A status is written as its name, in capitals. -/
def json (s : Status) : Json := .ofString s.name

def ofJson? (v : Json) : Option Status := v.variant?.bind ofName?

end Status

namespace Mismatch

/-- A mismatch says what was expected before it says what was found. -/
def json (m : Mismatch) : Json :=
  .record [("fact_name", .ofString m.factName), ("expected", .ofInt64 m.expected),
    ("actual", .ofInt64 m.actual)]

/-- A mismatch, with values of 64 bits. -/
def ofJson? (v : Json) : Option Mismatch := do
  let [factName, expected, actual] ← v.fields? ["fact_name", "expected", "actual"] | none
  return ⟨← required? text? factName, ← required? int64? expected, ← required? int64? actual⟩

end Mismatch

namespace Tool

/-- A tool is written as its name and version. -/
def json (t : Tool) : Json :=
  .record [("name", .ofString t.name), ("version", .ofString t.version)]

/-- A tool, of any name and version. -/
def ofJson? (v : Json) : Option Tool := do
  let [name, version] ← v.fields? ["name", "version"] | none
  return ⟨← required? text? name, ← required? text? version⟩

end Tool

namespace Target

/-- A target is written with the width of its pointers in bits. -/
def json (t : Target) : Json :=
  .record [("arch", .ofString t.arch), ("os", .ofString t.os),
    ("pointer_width", .ofNat t.pointerWidth.toNat)]

/-- A target, with any width of 32 bits. -/
def ofJson? (v : Json) : Option Target := do
  let [arch, os, pointerWidth] ← v.fields? ["arch", "os", "pointer_width"] | none
  return ⟨← required? text? arch, ← required? text? os, ← required? uint32? pointerWidth⟩

end Target

namespace EvaluatedFact

/-- An evaluation says whether it passed, though that follows from its values. -/
def json (e : EvaluatedFact) : Json :=
  .record [("name", .ofString e.name), ("kind", e.kind.json), ("expected", .ofInt64 e.expected),
    ("actual", .ofInt64 e.actual), ("passed", .bool e.passed)]

/-- An evaluation. Whether it passed is taken from the document, even against the values. -/
def ofJson? (v : Json) : Option EvaluatedFact := do
  let [name, kind, expected, actual, passed] ←
    v.fields? ["name", "kind", "expected", "actual", "passed"] | none
  return ⟨← required? text? name, ← required? FactKind.ofJson? kind, ← required? int64? expected,
    ← required? int64? actual, ← required? bool? passed⟩

end EvaluatedFact

namespace Conclusion

/-- A conclusion has null in the place of a failure if there is none. -/
def json (c : Conclusion) : Json :=
  .record [("status", c.status.json), ("failure", .ofOption Mismatch.json c.failure),
    ("exit_code", .ofInt32 c.exitCode)]

/-- A conclusion. Only the failure may be left out or null. -/
def ofJson? (v : Json) : Option Conclusion := do
  let [status, failure, exitCode] ← v.fields? ["status", "failure", "exit_code"] | none
  return ⟨← required? Status.ofJson? status, ← optional? Mismatch.ofJson? failure,
    ← required? int32? exitCode⟩

end Conclusion

namespace Checksum

/-- A checksum names its algorithm first. -/
def json (c : Checksum) : Json :=
  .record [("algorithm", .ofString c.algorithm), ("value", .ofString c.value)]

/-- A checksum of any algorithm, whose value is not looked at. -/
def ofJson? (v : Json) : Option Checksum := do
  let [algorithm, value] ← v.fields? ["algorithm", "value"] | none
  return ⟨← required? text? algorithm, ← required? text? value⟩

end Checksum

namespace Artifact

/-- An artifact has null in the place of its path if it came from no file. -/
def json (a : Artifact) : Json :=
  .record [("path", .ofOption .ofString a.path), ("size_bytes", .ofNat a.sizeBytes.toNat),
    ("hash", a.hash.json)]

/-- An artifact. Only the path may be left out or null. -/
def ofJson? (v : Json) : Option Artifact := do
  let [path, sizeBytes, hash] ← v.fields? ["path", "size_bytes", "hash"] | none
  return ⟨← optional? text? path, ← required? uint64? sizeBytes, ← required? Checksum.ofJson? hash⟩

end Artifact

namespace Analysis

/-- An analysis has a list of warnings, even where there are none. -/
def json (a : Analysis) : Json :=
  .record [("status", .ofString a.status), ("warnings", .ofList .ofString a.warnings)]

/-- An analysis of any status. -/
def ofJson? (v : Json) : Option Analysis := do
  let [status, warnings] ← v.fields? ["status", "warnings"] | none
  return ⟨← required? text? status, ← required? (list? text?) warnings⟩

end Analysis

/-- An import has the name of its module under `module`. -/
def Import.json (i : Import) : Json :=
  .record [("module", .ofString i.fromModule), ("name", .ofString i.name),
    ("kind", .ofString i.kind)]

/-- An export is written as its name and kind. -/
def Export.json (e : Export) : Json :=
  .record [("name", .ofString e.name), ("kind", .ofString e.kind)]

/-- Findings are three lists, and imports stand in them with all their fields. -/
def Findings.json (F : Findings) : Json :=
  .record [("unsupported_imports", .ofList Import.json F.unsupported),
    ("stubbed_imports", .ofList Import.json F.stubbed),
    ("missing_exports", .ofList .ofString F.missing)]

def Report.json (r : Report) : Json :=
  .record [("schema_version", .ofString r.schemaVersion), ("tool", r.tool.json),
    ("target", r.target.json), ("fact_table_version", .ofString r.factTableVersion),
    ("profile", r.profile.json), ("facts_total", .ofNat r.factsTotal),
    ("evaluated", .ofList EvaluatedFact.json r.evaluated), ("outcome", r.conclusion.json)]

def AuditReport.json (r : AuditReport) : Json :=
  .record [("schema_version", .ofString r.schemaVersion), ("tool", r.tool.json),
    ("artifact", r.artifact.json), ("analysis", r.analysis.json),
    ("imports", .ofList Import.json r.imports), ("exports", .ofList Export.json r.exports),
    ("findings", r.findings.json), ("exit_code", .ofInt32 r.exitCode)]

end HostAbi

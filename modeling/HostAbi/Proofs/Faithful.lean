import HostAbi.Proofs.Codecs
import HostAbi.Proofs.TextReading
import HostAbi.Proofs.TextWriting

/-!
# Report documents say what the report says

The document of a report is one JSON text, of one value only, and that value has the fields of the
report in their order. Reading them gives the report back, whatever the texts in it are, so two
reports with one document are the same (`reports_faithful`).
-/

namespace HostAbi

open Json

section Proper

@[simp] theorem Json.proper_ofString (s : String) : (Json.ofString s).Proper :=
  .str (Points.proper_ofString s)

@[simp] theorem Json.proper_ofInt (n : Int) : (Json.ofInt n).Proper :=
  .num (Number.isLiteral_repr n)

@[simp] theorem Json.proper_ofInt64 (n : Int64) : (ofInt64 n).Proper := proper_ofInt _

@[simp] theorem Json.proper_ofInt32 (n : Int32) : (ofInt32 n).Proper := proper_ofInt _

@[simp] theorem Json.proper_ofNat (n : Nat) : (ofNat n).Proper := proper_ofInt _

@[simp] theorem Json.proper_bool (b : Bool) : (Json.bool b).Proper := .bool b

theorem Json.proper_ofList {α : Type} {write : α → Json} (h : ∀ a, (write a).Proper)
    (as : List α) : (ofList write as).Proper := by
  refine .arr fun v hv => ?_
  obtain ⟨a, -, rfl⟩ := List.mem_map.1 hv
  exact h a

theorem Json.proper_ofOption {α : Type} {write : α → Json} (h : ∀ a, (write a).Proper) :
    ∀ o : Option α, (ofOption write o).Proper
  | none => .null
  | some a => h a

theorem Json.proper_record {ms : List (String × Json)} (h : ∀ m ∈ ms, m.2.Proper) :
    (record ms).Proper := by
  refine .obj (fun m hm => ?_) fun m hm => ?_ <;> obtain ⟨u, hu, rfl⟩ := List.mem_map.1 hm
  · exact Points.proper_ofString u.1
  · exact h u hu

@[simp] theorem Mismatch.proper_json (m : Mismatch) : m.json.Proper :=
  proper_record (by simp)

@[simp] theorem Tool.proper_json (t : Tool) : t.json.Proper := proper_record (by simp)

@[simp] theorem Target.proper_json (t : Target) : t.json.Proper := proper_record (by simp)

@[simp] theorem EvaluatedFact.proper_json (e : EvaluatedFact) : e.json.Proper :=
  proper_record (by simp [FactKind.json])

@[simp] theorem Conclusion.proper_json (c : Conclusion) : c.json.Proper :=
  proper_record (by simp [Status.json, proper_ofOption])

@[simp] theorem Checksum.proper_json (c : Checksum) : c.json.Proper := proper_record (by simp)

@[simp] theorem Artifact.proper_json (a : Artifact) : a.json.Proper :=
  proper_record (by simp [proper_ofOption])

@[simp] theorem Analysis.proper_json (a : Analysis) : a.json.Proper :=
  proper_record (by simp [proper_ofList])

@[simp] theorem Import.proper_json (i : Import) : i.json.Proper := proper_record (by simp)

@[simp] theorem Export.proper_json (e : Export) : e.json.Proper := proper_record (by simp)

@[simp] theorem Findings.proper_json (F : Findings) : F.json.Proper :=
  proper_record (by simp [proper_ofList])

theorem Report.proper_json (r : Report) : r.json.Proper :=
  proper_record (by simp [Profile.json, proper_ofList])

theorem AuditReport.proper_json (r : AuditReport) : r.json.Proper :=
  proper_record (by simp [proper_ofList])

end Proper

namespace Json

/-- The values of an object with exactly these names in this order. -/
def values? (names : List String) : Json → Option (List Json)
  | .obj members =>
    if members.map (·.1) = names.map Points.ofString then some (members.map (·.2)) else none
  | _ => none

theorem values?_record {ms : List (String × Json)} {names : List String}
    (hnames : ms.map (·.1) = names) : (record ms).values? names = some (ms.map (·.2)) := by
  subst hnames
  simp [record, values?, Function.comp_def]

section Pretty

variable {v w : Json}

theorem parse?_pretty (h : v.Proper) : parse? v.pretty = some v :=
  parse?_of_document (document_pretty h)

theorem parse?_pretty_line (h : v.Proper) : parse? (v.pretty ++ "\n") = some v :=
  parse?_of_document ((document_pretty h).append_blanks (by simp [Blanks]))

theorem document_pretty_iff (h : v.Proper) : Document w v.pretty ↔ w = v :=
  ⟨(document_pretty h).unique, by rintro rfl; exact document_pretty h⟩

theorem pretty_injective (hv : v.Proper) (hw : w.Proper) (h : v.pretty = w.pretty) : v = w :=
  (document_pretty_iff hw).1 (h ▸ document_pretty hv)

end Pretty

/-- A natural number of any size. -/
def nat? : Json → Option Nat
  | .num literal => (Number.toInt? literal).map Int.toNat
  | _ => none

theorem nat?_ofNat (n : Nat) : (ofNat n).nat? = some n := by
  simp [ofNat, ofInt, nat?, Number.toInt?_repr]

end Json

namespace Import

/-- The import that a value states. -/
def ofJson? (v : Json) : Option Import := do
  let [fromModule, name, kind] ← v.values? ["module", "name", "kind"] | none
  return ⟨← text? fromModule, ← text? name, ← text? kind⟩

theorem ofJson?_json (i : Import) : ofJson? i.json = some i := by
  have h : i.json.values? ["module", "name", "kind"] = _ := values?_record rfl
  simp [ofJson?, h]

end Import

namespace Export

def ofJson? (v : Json) : Option Export := do
  let [name, kind] ← v.values? ["name", "kind"] | none
  return ⟨← text? name, ← text? kind⟩

theorem ofJson?_json (e : Export) : ofJson? e.json = some e := by
  have h : e.json.values? ["name", "kind"] = _ := values?_record rfl
  simp [ofJson?, h]

end Export

namespace Findings

def ofJson? (v : Json) : Option Findings := do
  let [unsupported, stubbed, missing] ←
    v.values? ["unsupported_imports", "stubbed_imports", "missing_exports"] | none
  return ⟨← list? Import.ofJson? unsupported, ← list? Import.ofJson? stubbed,
    ← list? text? missing⟩

theorem ofJson?_json (F : Findings) : ofJson? F.json = some F := by
  have h : F.json.values? ["unsupported_imports", "stubbed_imports", "missing_exports"] = _ :=
    values?_record rfl
  simp [ofJson?, h, list?_ofList Import.ofJson?_json, list?_ofList text?_ofString]

end Findings

namespace Report

def fieldNames : List String :=
  ["schema_version", "tool", "target", "fact_table_version", "profile", "facts_total", "evaluated",
    "outcome"]

/-- The report that a document states, if its fields are those of a report in their order. -/
def ofJson? (v : Json) : Option Report := do
  let [schemaVersion, tool, target, factTableVersion, profile, factsTotal, evaluated, conclusion] ←
    v.values? fieldNames | none
  return ⟨← text? schemaVersion, ← Tool.ofJson? tool, ← Target.ofJson? target,
    ← text? factTableVersion, ← Profile.ofJson? profile, ← nat? factsTotal,
    ← list? EvaluatedFact.ofJson? evaluated, ← Conclusion.ofJson? conclusion⟩

theorem ofJson?_json (r : Report) : ofJson? r.json = some r := by
  have h : r.json.values? fieldNames = _ := values?_record rfl
  simp [ofJson?, h, Tool.ofJson?_json, Target.ofJson?_json, nat?_ofNat,
    list?_ofList EvaluatedFact.ofJson?_json, Conclusion.ofJson?_json]

theorem json_injective {r r' : Report} (h : r.json = r'.json) : r = r' :=
  Option.some.inj (r.ofJson?_json.symm.trans (h ▸ r'.ofJson?_json))

end Report

namespace AuditReport

def fieldNames : List String :=
  ["schema_version", "tool", "artifact", "analysis", "imports", "exports", "findings", "exit_code"]

/-- The report that a document states, if its fields are those of an audit report in their order. -/
def ofJson? (v : Json) : Option AuditReport := do
  let [schemaVersion, tool, artifact, analysis, imports, exports, findings, exitCode] ←
    v.values? fieldNames | none
  return ⟨← text? schemaVersion, ← Tool.ofJson? tool, ← Artifact.ofJson? artifact,
    ← Analysis.ofJson? analysis, ← list? Import.ofJson? imports, ← list? Export.ofJson? exports,
    ← Findings.ofJson? findings, ← int32? exitCode⟩

theorem ofJson?_json (r : AuditReport) : ofJson? r.json = some r := by
  have h : r.json.values? fieldNames = _ := values?_record rfl
  simp [ofJson?, h, Tool.ofJson?_json, Artifact.ofJson?_json, Analysis.ofJson?_json,
    list?_ofList Import.ofJson?_json, list?_ofList Export.ofJson?_json, Findings.ofJson?_json]

theorem json_injective {r r' : AuditReport} (h : r.json = r'.json) : r = r' :=
  Option.some.inj (r.ofJson?_json.symm.trans (h ▸ r'.ofJson?_json))

end AuditReport

/-- The document of a report is a text of its fields in their order and of nothing else. Read back,
it is the report, so no two reports have one document. -/
theorem reports_faithful :
    (∀ r : Report, (∀ v, Document v r.json.pretty ↔ v = r.json) ∧
      parse? r.json.pretty = some r.json ∧ Report.ofJson? r.json = some r) ∧
    (∀ r : AuditReport, (∀ v, Document v r.json.pretty ↔ v = r.json) ∧
      parse? r.json.pretty = some r.json ∧ AuditReport.ofJson? r.json = some r) ∧
    (∀ r r' : Report, r.json.pretty = r'.json.pretty ↔ r = r') ∧
    ∀ r r' : AuditReport, r.json.pretty = r'.json.pretty ↔ r = r' := by
  refine ⟨fun r => ?_, fun r => ?_, fun r r' => ⟨fun h => ?_, fun h => h ▸ rfl⟩,
    fun r r' => ⟨fun h => ?_, fun h => h ▸ rfl⟩⟩
  · exact ⟨fun _ => document_pretty_iff r.proper_json, parse?_pretty r.proper_json, r.ofJson?_json⟩
  · exact ⟨fun _ => document_pretty_iff r.proper_json, parse?_pretty r.proper_json, r.ofJson?_json⟩
  · exact Report.json_injective (pretty_injective r.proper_json r'.proper_json h)
  · exact AuditReport.json_injective (pretty_injective r.proper_json r'.proper_json h)

end HostAbi

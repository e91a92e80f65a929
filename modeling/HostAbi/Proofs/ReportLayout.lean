import HostAbi.Proofs.RecordReading

/-!
# The layout of report documents

The fields of each part of a report that can be read back. A document of a part is read by its
fields alone (`parts_read_by_fields`): it is accepted exactly if each field stands in it once with
a value of its type, apart from a failure and a path, which may be missing or null, and in whatever
order, spelling and company the fields stand, the same part is read. Only a member whose name spells
no text is not passed over (`halfNamedTool_refused`).
-/

namespace HostAbi

namespace Json

variable {v w : Json}

theorem Respelled.text?_eq (h : Respelled v w) : v.text? = w.text? := by
  cases h with
  | str hps => exact hps
  | _ => rfl

theorem Respelled.bool?_eq (h : Respelled v w) : v.bool? = w.bool? := by
  cases h <;> rfl

theorem Respelled.intWithin?_eq (h : Respelled v w) (lo hi : Int) :
    v.intWithin? lo hi = w.intWithin? lo hi := by
  cases h <;> rfl

/-- A variant is an object with null in it, and nothing else is spelled like null. -/
theorem Respelled.variant?_eq (h : Respelled v w) : v.variant? = w.variant? := by
  have hnone : ∀ {k : Points} {u : Json}, u ≠ .null → variant? (.obj [(k, u)]) = none := by
    intro k u hu
    simp [variant?, hu]
  cases h with
  | str hps => exact hps
  | obj hmembers =>
    cases hmembers with
    | nil => rfl
    | cons hm hrest =>
      cases hm with
      | @mk k l v w hkl hvw =>
        cases hrest with
        | cons => simp [variant?]
        | nil =>
          by_cases hv : v = .null
          · have hw := hvw.null_iff.1 hv
            rw [hv, hw]
            exact hkl
          · have hw : w ≠ .null := fun hw => hv (hvw.null_iff.2 hw)
            rw [hnone hv, hnone hw]
  | _ => rfl

theorem Respelled.texts?_eq (h : Respelled v w) : v.list? text? = w.list? text? := by
  cases h with
  | arr hitems =>
    show List.mapM text? _ = List.mapM text? _
    induction hitems with
    | nil => rfl
    | cons hvw _ ih => rw [List.mapM_cons, List.mapM_cons, hvw.text?_eq, ih]
  | _ => rfl

end Json

open Json

namespace Form

/-- Strings, with no layout but the spelling of their characters. -/
def text : Form String := .plain text? rfl Respelled.text?_eq

def bool : Form Bool := .plain bool? rfl Respelled.bool?_eq

def int64 : Form Int64 := .plain int64? rfl fun h => by rw [int64?, h.intWithin?_eq, int64?]

def int32 : Form Int32 := .plain int32? rfl fun h => by rw [int32?, h.intWithin?_eq, int32?]

def uint64 : Form UInt64 := .plain uint64? rfl fun h => by rw [uint64?, h.intWithin?_eq, uint64?]

def uint32 : Form UInt32 := .plain uint32? rfl fun h => by rw [uint32?, h.intWithin?_eq, uint32?]

/-- Lists of strings, the order of which counts. -/
def texts : Form (List String) := .plain (list? text?) rfl Respelled.texts?_eq

/-- Kinds of facts, which are variants and have two forms. -/
def factKind : Form FactKind :=
  .plain FactKind.ofJson? rfl fun h => by rw [FactKind.ofJson?, h.variant?_eq, FactKind.ofJson?]

def status : Form Status :=
  .plain Status.ofJson? rfl fun h => by rw [Status.ofJson?, h.variant?_eq, Status.ofJson?]

@[simp] theorem read_text : text.read = text? := rfl

@[simp] theorem read_bool : bool.read = bool? := rfl

@[simp] theorem read_int64 : int64.read = int64? := rfl

@[simp] theorem read_int32 : int32.read = int32? := rfl

@[simp] theorem read_uint64 : uint64.read = uint64? := rfl

@[simp] theorem read_uint32 : uint32.read = uint32? := rfl

@[simp] theorem read_texts : texts.read = list? text? := rfl

@[simp] theorem read_factKind : factKind.read = FactKind.ofJson? := rfl

@[simp] theorem read_status : status.read = Status.ofJson? := rfl

end Form

namespace Mismatch

def fields : List (Field Mismatch) :=
  [.required "fact_name" .text (·.factName), .required "expected" .int64 (·.expected),
    .required "actual" .int64 (·.actual)]

theorem isRecord : IsRecord ofJson? fields := by
  refine .of_bind (by decide) (fun _ => rfl) (fun xs hlen m => ?_) (fun xs hlen => ?_)
  · match xs, hlen with
    | [factName, expected, actual], _ =>
      cases m
      simp [fields, Option.bind_eq_some_iff]
  · match xs, hlen with
    | [factName, expected, actual], _ =>
      simp [fields, Option.bind_eq_some_iff]

end Mismatch

namespace Tool

def fields : List (Field Tool) :=
  [.required "name" .text (·.name), .required "version" .text (·.version)]

theorem isRecord : IsRecord ofJson? fields := by
  refine .of_bind (by decide) (fun _ => rfl) (fun xs hlen t => ?_) (fun xs hlen => ?_)
  · match xs, hlen with
    | [name, version], _ =>
      cases t
      simp [fields, Option.bind_eq_some_iff]
  · match xs, hlen with
    | [name, version], _ =>
      simp [fields, Option.bind_eq_some_iff]

end Tool

namespace Target

def fields : List (Field Target) :=
  [.required "arch" .text (·.arch), .required "os" .text (·.os),
    .required "pointer_width" .uint32 (·.pointerWidth)]

theorem isRecord : IsRecord ofJson? fields := by
  refine .of_bind (by decide) (fun _ => rfl) (fun xs hlen t => ?_) (fun xs hlen => ?_)
  · match xs, hlen with
    | [arch, os, pointerWidth], _ =>
      cases t
      simp [fields, Option.bind_eq_some_iff]
  · match xs, hlen with
    | [arch, os, pointerWidth], _ =>
      simp [fields, Option.bind_eq_some_iff]

end Target

namespace EvaluatedFact

def fields : List (Field EvaluatedFact) :=
  [.required "name" .text (·.name), .required "kind" .factKind (·.kind),
    .required "expected" .int64 (·.expected), .required "actual" .int64 (·.actual),
    .required "passed" .bool (·.passed)]

theorem isRecord : IsRecord ofJson? fields := by
  refine .of_bind (by decide) (fun _ => rfl) (fun xs hlen e => ?_) (fun xs hlen => ?_)
  · match xs, hlen with
    | [name, kind, expected, actual, passed], _ =>
      cases e
      simp [fields, Option.bind_eq_some_iff, -Bool.exists_bool]
  · match xs, hlen with
    | [name, kind, expected, actual, passed], _ =>
      simp [fields, Option.bind_eq_some_iff, -Bool.exists_bool]

end EvaluatedFact

namespace Conclusion

/-- The failure is optional, and a record of its own. -/
def fields : List (Field Conclusion) :=
  [.required "status" .status (·.status),
    .optional "failure" (.record Mismatch.isRecord) (·.failure),
    .required "exit_code" .int32 (·.exitCode)]

theorem isRecord : IsRecord ofJson? fields := by
  refine .of_bind (by decide) (fun _ => rfl) (fun xs hlen c => ?_) (fun xs hlen => ?_)
  · match xs, hlen with
    | [status, failure, exitCode], _ =>
      cases c
      simp [fields, Option.bind_eq_some_iff]
  · match xs, hlen with
    | [status, failure, exitCode], _ =>
      simp [fields, Option.bind_eq_some_iff]

end Conclusion

namespace Checksum

def fields : List (Field Checksum) :=
  [.required "algorithm" .text (·.algorithm), .required "value" .text (·.value)]

theorem isRecord : IsRecord ofJson? fields := by
  refine .of_bind (by decide) (fun _ => rfl) (fun xs hlen c => ?_) (fun xs hlen => ?_)
  · match xs, hlen with
    | [algorithm, value], _ =>
      cases c
      simp [fields, Option.bind_eq_some_iff]
  · match xs, hlen with
    | [algorithm, value], _ =>
      simp [fields, Option.bind_eq_some_iff]

end Checksum

namespace Artifact

/-- The path is optional, and the checksum is a record of its own. -/
def fields : List (Field Artifact) :=
  [.optional "path" .text (·.path), .required "size_bytes" .uint64 (·.sizeBytes),
    .required "hash" (.record Checksum.isRecord) (·.hash)]

theorem isRecord : IsRecord ofJson? fields := by
  refine .of_bind (by decide) (fun _ => rfl) (fun xs hlen a => ?_) (fun xs hlen => ?_)
  · match xs, hlen with
    | [path, sizeBytes, hash], _ =>
      cases a
      simp [fields, Option.bind_eq_some_iff]
  · match xs, hlen with
    | [path, sizeBytes, hash], _ =>
      simp [fields, Option.bind_eq_some_iff]

end Artifact

namespace Analysis

def fields : List (Field Analysis) :=
  [.required "status" .text (·.status), .required "warnings" .texts (·.warnings)]

theorem isRecord : IsRecord ofJson? fields := by
  refine .of_bind (by decide) (fun _ => rfl) (fun xs hlen a => ?_) (fun xs hlen => ?_)
  · match xs, hlen with
    | [status, warnings], _ =>
      cases a
      simp [fields, Option.bind_eq_some_iff]
  · match xs, hlen with
    | [status, warnings], _ =>
      simp [fields, Option.bind_eq_some_iff]

end Analysis

/-- Every part of a report is read by its fields alone. Its documents are the objects with texts for
names that have each field once with a value of its type, the optional ones once, never or with
null, and the arrays of such values in the order of the fields. The layout of an object is of no
matter. -/
theorem parts_read_by_fields :
    ReadsRecord Mismatch.ofJson? Mismatch.fields ∧ ReadsRecord Target.ofJson? Target.fields ∧
    ReadsRecord Tool.ofJson? Tool.fields ∧
    ReadsRecord EvaluatedFact.ofJson? EvaluatedFact.fields ∧
    ReadsRecord Conclusion.ofJson? Conclusion.fields ∧
    ReadsRecord Artifact.ofJson? Artifact.fields ∧
    ReadsRecord Checksum.ofJson? Checksum.fields ∧
    ReadsRecord Analysis.ofJson? Analysis.fields :=
  ⟨Mismatch.isRecord.readsRecord, Target.isRecord.readsRecord, Tool.isRecord.readsRecord,
    EvaluatedFact.isRecord.readsRecord, Conclusion.isRecord.readsRecord,
    Artifact.isRecord.readsRecord, Checksum.isRecord.readsRecord, Analysis.isRecord.readsRecord⟩

/-- The fields of a tool, and a member behind them that is named by half of a surrogate pair. -/
def halfNamedMembers : List (Points × Json) :=
  [(.ofString "name", .ofString "a"), (.ofString "version", .ofString "b"), ([0xD800], .num ['1'])]

/-- A text of these members, where half of a surrogate pair can only be written as an escape. -/
def halfNamedTool : String := "\x7b\"name\":\"a\",\"version\":\"b\",\"\\ud800\":1\x7d"

theorem proper_halfNamedMembers : (Json.obj halfNamedMembers).Proper := by
  refine .obj ?_ ?_
  · simp only [halfNamedMembers, List.forall_mem_cons]
    exact ⟨Points.proper_ofString _, Points.proper_ofString _, by simp [Points.Proper], by simp⟩
  · simp only [halfNamedMembers, List.forall_mem_cons]
    exact ⟨proper_ofString _, proper_ofString _, .num (by decide), by simp⟩

/-- An object with each field once and a value of its type in it is not accepted if a name spells no
text. So not every member that is no field is passed over: without the last one the text is read. -/
theorem halfNamedTool_refused :
    Document (.obj halfNamedMembers) halfNamedTool ∧
    (∀ f ∈ Tool.fields, ∃ x, f.Gives (valuesOf halfNamedMembers f.name) x) ∧
    decode? Tool.ofJson? halfNamedTool = none ∧
    decode? Tool.ofJson? "\x7b\"name\":\"a\",\"version\":\"b\"\x7d" = some ⟨"a", "b"⟩ := by
  have hdocument : Document (.obj halfNamedMembers) halfNamedTool :=
    document_ofList_chars Spacing.lawful_compact proper_halfNamedMembers
  refine ⟨hdocument, ?given, ?refused, ?read⟩
  case given =>
    simp only [Tool.fields, List.forall_mem_cons]
    exact ⟨⟨some "a", .value (text?_ofString "a")⟩, ⟨some "b", .value (text?_ofString "b")⟩,
      by simp⟩
  case refused =>
    rw [decode?_of_document hdocument, ← Option.not_isSome_iff_eq_none,
      Tool.isRecord.obj_isSome_iff]
    rintro ⟨hnamed, -⟩
    exact hnamed ([0xD800], .num ['1']) (by simp [halfNamedMembers]) rfl
  case read =>
    exact (decode?_chars Spacing.lawful_compact (Tool.proper_json ⟨"a", "b"⟩)).trans
      (Tool.ofJson?_json _)

/-- A failure with its fields in another order than they are written in, and with a member that is
no field. -/
def relaidFailure : Json :=
  .record [("actual", .ofInt64 4), ("since", .bool true), ("expected", .ofInt64 1),
    ("fact_name", .ofString "POLLIN")]

/-- Members of a conclusion in another order, the failure among them. -/
def relaidMembers : List (String × Json) :=
  [("exit_code", .ofInt32 1), ("notes", .arr [.null, .obj []]), ("failure", relaidFailure),
    ("status", Status.failed.json)]

theorem relaidFailure_read : Mismatch.ofJson? relaidFailure = some ⟨"POLLIN", 1, 4⟩ := by
  refine Mismatch.isRecord.obj_eq_some_iff.2 ⟨named_record _, ?_⟩
  simp only [Mismatch.fields, List.forall_mem_cons]
  exact ⟨.value (text?_ofString "POLLIN"), .value (int64?_ofInt64 1), .value (int64?_ofInt64 4),
    by simp⟩

theorem relaidConclusion_read :
    decode? Conclusion.ofJson? (Json.record relaidMembers).pretty
      = some ⟨.failed, some ⟨"POLLIN", 1, 4⟩, 1⟩ := by
  have hproper : (Json.record relaidMembers).Proper := by
    refine proper_record ?_
    have hnotes : (Json.arr [.null, .obj []]).Proper := .arr (by simp [Proper.null, Proper.obj])
    have hfailure : relaidFailure.Proper := proper_record (by simp)
    simp [relaidMembers, Status.json, hnotes, hfailure]
  obtain ⟨-, -, -, -, hconclusion, -⟩ := parts_read_by_fields
  refine (hconclusion.states (document_pretty hproper)).2 ⟨named_record _, ?_⟩
  simp only [Conclusion.fields, List.forall_mem_cons]
  exact ⟨.value (Status.ofJson?_json .failed), .value relaidFailure_read,
    .value (int32?_ofInt32 1), by simp⟩

end HostAbi

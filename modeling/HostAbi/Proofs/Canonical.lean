import HostAbi.Proofs.Faithful

/-!
# One text for each part of a report

The parts of reports are read from texts of many kinds and written as texts of one kind. What is
written for a part is read back as that part, however it is spaced (`Json.RoundTrips.of`). So the
compact text of a part is a normal form of its texts: writing a text anew does not change what it
states, and doing so again does not change the text (`parts_round_trip`).
-/

namespace HostAbi

namespace Json

variable {α : Type} {write : α → Json} {read : Json → Option α}

theorem decode?_of_document {v : Json} {text : String} (h : Document v text) :
    decode? read text = read v := by
  rw [decode?, parse?_of_document h, Option.bind_some]

/-- What is written for a value is read back as what its JSON form is read as. -/
theorem decode?_chars {S : Spacing} (hS : S.Lawful) {v : Json} (hv : v.Proper) :
    decode? read (String.ofList (v.chars S 0)) = read v :=
  decode?_of_document (document_ofList_chars hS hv)

/-- Whether all that is written is read back, and a text that is written anew states the same and
is not changed by a second time. -/
structure RoundTrips (write : α → Json) (read : Json → Option α) : Prop where
  compact : ∀ a, decode? read (write a).compact = some a
  pretty : ∀ a, decode? read (write a).pretty = some a
  states_same : ∀ text, (rewrite? read write text).bind (decode? read) = decode? read text
  idempotent : ∀ text, (rewrite? read write text).bind (rewrite? read write)
    = rewrite? read write text

/-- All follows from the compact text, as a text that is written anew is one of those. -/
theorem RoundTrips.of (hproper : ∀ a, (write a).Proper) (hread : ∀ a, read (write a) = some a) :
    RoundTrips write read := by
  have hcompact : ∀ a, decode? read (write a).compact = some a := fun a =>
    (decode?_chars Spacing.lawful_compact (hproper a)).trans (hread a)
  refine ⟨hcompact, fun a => ?_, fun text => ?_, fun text => ?_⟩
  · exact (decode?_chars Spacing.lawful_pretty (hproper a)).trans (hread a)
  · cases h : decode? read text with
    | none => simp [rewrite?, h]
    | some a => simp [rewrite?, h, hcompact]
  · cases h : decode? read text with
    | none => simp [rewrite?, h]
    | some a => simp [rewrite?, h, hcompact]

end Json

open Json

/-- Every part of a report is read back from what is written for it. The compact text of a part is
a normal form of all the texts that state the part. -/
theorem parts_round_trip :
    RoundTrips Mismatch.json Mismatch.ofJson? ∧ RoundTrips Target.json Target.ofJson? ∧
    RoundTrips Tool.json Tool.ofJson? ∧ RoundTrips EvaluatedFact.json EvaluatedFact.ofJson? ∧
    RoundTrips Conclusion.json Conclusion.ofJson? ∧ RoundTrips Artifact.json Artifact.ofJson? ∧
    RoundTrips Analysis.json Analysis.ofJson? ∧ RoundTrips FactKind.json FactKind.ofJson? ∧
    RoundTrips Profile.json Profile.ofJson? ∧ RoundTrips Query.json Query.ofJson? ∧
    RoundTrips Status.json Status.ofJson? := by
  refine ⟨?mismatch, ?target, ?tool, ?evaluated, ?conclusion, ?artifact, ?analysis, ?kind,
    ?profile, ?query, ?status⟩
  case mismatch => exact .of Mismatch.proper_json Mismatch.ofJson?_json
  case target => exact .of Target.proper_json Target.ofJson?_json
  case tool => exact .of Tool.proper_json Tool.ofJson?_json
  case evaluated => exact .of EvaluatedFact.proper_json EvaluatedFact.ofJson?_json
  case conclusion => exact .of Conclusion.proper_json Conclusion.ofJson?_json
  case artifact => exact .of Artifact.proper_json Artifact.ofJson?_json
  case analysis => exact .of Analysis.proper_json Analysis.ofJson?_json
  case kind => exact .of (fun k => proper_ofString k.name) FactKind.ofJson?_json
  case profile => exact .of (fun p => proper_ofString p.name) Profile.ofJson?_json
  case query => exact .of (fun q => proper_ofString q.name) Query.ofJson?_json
  case status => exact .of (fun s => proper_ofString s.name) Status.ofJson?_json

end HostAbi

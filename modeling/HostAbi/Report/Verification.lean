import HostAbi.Fact.Pinned
import HostAbi.Platform.Layout
import HostAbi.Verification.Walk

/-!
# Verification reports

What a verification found, together with the tool, the target and the profile it was made for. A
report says how many facts the profile has, whether or not they were reached.
-/

namespace HostAbi

/-- Changes whenever the meaning of a report document does. -/
def schemaVersion : String := "0.1.0"

/-- The program that made a report. -/
structure Tool where
  name : String
  version : String
  deriving DecidableEq

/-- The machine that a report is about. -/
structure Target where
  arch : String
  os : String
  pointerWidth : UInt32
  deriving DecidableEq

/-- An evaluation as a report states it. -/
structure EvaluatedFact where
  name : String
  kind : FactKind
  expected : Int64
  actual : Int64
  passed : Bool
  deriving DecidableEq

/-- What a report keeps of an evaluation. The query and the profile of the fact are not in it. -/
def Evaluation.report (e : Evaluation) : EvaluatedFact where
  name := e.fact.name
  kind := e.fact.kind
  expected := e.fact.expected
  actual := e.actual
  passed := e.passed

/-- Whether a verification passed. -/
inductive Status where
  | passed
  | failed
  deriving DecidableEq

namespace Status

def all : List Status := [.passed, .failed]

/-- The name of a status, in documents and traces. -/
def name : Status → String
  | .passed => "PASSED"
  | .failed => "FAILED"

def ofName? (s : String) : Option Status := all.find? (·.name == s)

theorem ofName?_name (s : Status) : ofName? s.name = some s := by cases s <;> rfl

end Status

/-- An outcome as a report states it. -/
structure Conclusion where
  status : Status
  failure : Option Mismatch
  exitCode : Int32
  deriving DecidableEq

/-- How a report states an outcome. -/
def Outcome.conclusion (o : Outcome) : Conclusion where
  status := if o.mismatch?.isSome then .failed else .passed
  failure := o.mismatch?
  exitCode := o.exitCode

/-- What a verification reports, in the order of its document. -/
structure Report where
  schemaVersion : String := HostAbi.schemaVersion
  tool : Tool
  target : Target
  factTableVersion : String := HostAbi.factTableVersion
  profile : Profile
  factsTotal : Nat
  evaluated : List EvaluatedFact
  conclusion : Conclusion
  deriving DecidableEq

/-- The report on a verification of so many facts, of which it may have reached fewer. -/
def Verification.report (V : Verification) (tool : Tool) (target : Target) (profile : Profile)
    (factsTotal : Nat) : Report where
  tool
  target
  profile
  factsTotal
  evaluated := V.evaluated.map (·.report)
  conclusion := V.outcome.conclusion

/-- The report on the pinned facts of a profile, checked against a compiled target. -/
def check (profile : Profile) (tool : Tool) (target : Target) (L : Layout) : Report :=
  let facts := profile.select pinnedFacts
  (verify facts L.platform).1.report tool target profile facts.length

/-- 64-bit Linux on x86. -/
def Target.linux64 : Target := ⟨"x86_64", "linux", 64⟩

end HostAbi

import HostAbi.Fact.Query

/-!
# Facts

A fact pins the answer to one query. Its kind is read off the query, so no fact disagrees with
what backs it. Profiles choose among facts and are nested: the extended one takes every fact that
the minimal one takes.
-/

namespace HostAbi

/-- Which facts a check takes. -/
inductive Profile where
  | minimal
  | extended
  deriving DecidableEq

namespace Profile

/-- The profile that is taken unless another one is asked for. -/
instance : Inhabited Profile := ⟨.extended⟩

def all : List Profile := [.minimal, .extended]

/-- The name of a profile, in reports and on command lines. -/
def name : Profile → String
  | .minimal => "minimal"
  | .extended => "extended"

def ofName? (s : String) : Option Profile := all.find? (·.name == s)

theorem ofName?_name (p : Profile) : ofName? p.name = some p := by cases p <;> rfl

/-- Whether a check under the first profile takes a fact tagged with the second. -/
def includes : Profile → Profile → Bool
  | .minimal, .extended => false
  | _, _ => true

end Profile

/-- One pinned expectation about a platform, tagged with the smallest profile that checks it. -/
structure Fact where
  name : String
  expected : Int64
  source : Query
  profile : Profile
  deriving DecidableEq

namespace Fact

/-- The kind of a fact, which is that of its query. -/
def kind (f : Fact) : FactKind := f.source.kind

/-- The fact with another value pinned. What is asked for stays. -/
def withExpected (f : Fact) (v : Int64) : Fact := { f with expected := v }

/-- Whether an answer is the value that a fact pins. -/
def holds (f : Fact) (actual : Int64) : Bool := actual == f.expected

end Fact

/-- The facts of a list that a profile takes, in the list's order. -/
def Profile.select (p : Profile) (facts : List Fact) : List Fact :=
  facts.filter (p.includes ·.profile)

end HostAbi

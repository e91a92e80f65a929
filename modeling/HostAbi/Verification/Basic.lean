import HostAbi.Fact.Basic

/-!
# Outcomes of a verification

A fact checked against a platform is an evaluation. A verification passes if every fact holds, and
otherwise fails with the first mismatch.
-/

namespace HostAbi

/-- A value that a platform gave, against the one that a fact pins. -/
structure Mismatch where
  factName : String
  expected : Int64
  actual : Int64
  deriving DecidableEq

namespace Mismatch

/-- The mismatch of a fact with an answer. That the two differ is not asked for. -/
def ofFact (f : Fact) (actual : Int64) : Mismatch := ⟨f.name, f.expected, actual⟩

/-- A mismatch in one line, unless the fact's name has more. -/
def message (m : Mismatch) : String :=
  m.factName ++ ": expected " ++ m.expected.toInt.repr ++ ", found " ++ m.actual.toInt.repr

end Mismatch

/-- A fact and what the platform answered. -/
structure Evaluation where
  fact : Fact
  actual : Int64
  deriving DecidableEq

/-- Whether the fact holds with the answer it was given. -/
def Evaluation.passed (e : Evaluation) : Bool := e.fact.holds e.actual

/-- How a verification ends. -/
inductive Outcome where
  | passed
  | failed (m : Mismatch)
  deriving DecidableEq

namespace Outcome

/-- What a verification failed with. -/
def mismatch? : Outcome → Option Mismatch
  | .passed => none
  | .failed m => some m

/-- The exit code that an outcome stands for. -/
def exitCode : Outcome → Int32
  | .passed => 0
  | .failed _ => 1

end Outcome

/-- An outcome, with the evaluations that led to it in order. -/
structure Verification where
  outcome : Outcome
  evaluated : List Evaluation
  deriving DecidableEq

end HostAbi

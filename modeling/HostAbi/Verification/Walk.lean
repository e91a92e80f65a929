import HostAbi.Platform.Basic
import HostAbi.Verification.Basic

/-!
# Walking a list of facts

A walk asks a platform about one fact at a step, in order, and ends at the first that does not
hold or after the last. A walk that has ended stays as it is. Running it takes steps until it ends,
and that is after as many steps as there are facts at most, and one for no facts.
-/

namespace HostAbi

/-- Where a walk stands. -/
inductive Phase where
  | notStarted
  | running
  | passed
  | failed (m : Mismatch)
  deriving DecidableEq

namespace Phase

/-- How a walk has ended, if it has. -/
def outcome? : Phase → Option Outcome
  | .passed => some .passed
  | .failed m => some (.failed m)
  | .notStarted | .running => none

/-- Whether a walk has ended. -/
def isTerminal (p : Phase) : Bool := p.outcome?.isSome

end Phase

/-- The facts still to come, and what has been learnt from those before. -/
structure Walk (σ : Type) where
  pending : List Fact
  platform : Platform σ
  phase : Phase := .notStarted
  evaluated : List Evaluation := []

namespace Walk

variable {σ : Type}

/-- A walk that has not asked anything yet. -/
def start (facts : List Fact) (P : Platform σ) : Walk σ := { pending := facts, platform := P }

/-- The phase after a fact, of which `pending` come next. -/
def phaseAfter (e : Evaluation) (pending : List Fact) : Phase :=
  if !e.passed then .failed (.ofFact e.fact e.actual)
  else if pending.isEmpty then .passed
  else .running

/-- Asks about the next fact and notes the answer. A walk without facts passes instead, and one that
has ended is left as it is, so a platform is not asked again. -/
def step (w : Walk σ) : Walk σ :=
  if w.phase.isTerminal then w
  else
    match w.pending with
    | [] => { w with phase := .passed }
    | f :: pending =>
      let r := w.platform.ask f.source
      { pending, platform := r.2, phase := phaseAfter ⟨f, r.1⟩ pending,
        evaluated := w.evaluated ++ [⟨f, r.1⟩] }

/-- A bound on the steps that a walk has to go. -/
def stepsLeft (w : Walk σ) : Nat := if w.phase.isTerminal then 0 else w.pending.length + 1

theorem stepsLeft_step_lt {w : Walk σ} (h : w.phase.outcome? = none) :
    w.step.stepsLeft < w.stepsLeft := by
  have hw : w.phase.isTerminal = false := by simp [Phase.isTerminal, h]
  unfold stepsLeft step
  rw [hw]
  rcases hp : w.pending with _ | ⟨f, pending⟩
  · simp [Phase.isTerminal, Phase.outcome?]
  · simp only [Bool.false_eq_true, ↓reduceIte, List.length_cons]
    split <;> omega

/-- Steps until the walk ends. Gives the verification and the platform as it was left. -/
def run (w : Walk σ) : Verification × Platform σ :=
  match h : w.phase.outcome? with
  | some outcome => (⟨outcome, w.evaluated⟩, w.platform)
  | none =>
    have := stepsLeft_step_lt h
    w.step.run
termination_by w.stepsLeft

end Walk

/-- Checks facts in order, up to the first that does not hold. -/
def verify {σ : Type} (facts : List Fact) (P : Platform σ) : Verification × Platform σ :=
  (Walk.start facts P).run

end HostAbi

import HostAbi.Proofs.Checking
import Mathlib.Logic.Function.Iterate

/-!
# Stepping and then running

A run is steps up to the end, so it makes no difference how many of them were taken before it
(`run_after_steps`). A walk ends with the evaluation of its last fact, and one without facts takes a
step for that.
-/

namespace HostAbi

variable {σ : Type}

namespace Walk

theorem run_step (w : Walk σ) : w.step.run = w.run := by
  rcases h : w.phase.outcome? with _ | o
  · rw [run_of_open h]
  · rw [step_of_ended h]

theorem run_iterate_step (w : Walk σ) : ∀ k : ℕ, (step^[k] w).run = w.run
  | 0 => rfl
  | k + 1 => by rw [Function.iterate_succ_apply', run_step, run_iterate_step w k]

theorem iterate_step_of_ended {w : Walk σ} {o : Outcome} (h : w.phase.outcome? = some o) (k : ℕ) :
    step^[k] w = w := Function.iterate_fixed (step_of_ended h) k

theorem isTerminal_iterate_of_ended {w : Walk σ} {o : Outcome} (h : w.phase.outcome? = some o)
    (k : ℕ) : (step^[k] w).phase.isTerminal = true := by
  rw [iterate_step_of_ended h, Phase.isTerminal, h, Option.isSome_some]

end Walk

theorem length_evaluated_le : ∀ (facts : List Fact) (P : Platform σ),
    (verify facts P).1.evaluated.length ≤ facts.length
  | [], P => by simp [verify_nil]
  | f :: fs, P => by
    by_cases heq : (P.ask f.source).1 = f.expected
    · have ih := length_evaluated_le fs (P.ask f.source).2
      simp only [verify_cons_of_eq heq, Verification.after, List.length_append, List.length_cons,
        List.length_nil]
      omega
    · simp [verify_cons_of_ne heq]

theorem length_evaluated_pos (f : Fact) (fs : List Fact) (P : Platform σ) :
    0 < (verify (f :: fs) P).1.evaluated.length := by
  by_cases heq : (P.ask f.source).1 = f.expected
  · simp [verify_cons_of_eq heq, Verification.after]
  · simp [verify_cons_of_ne heq]

namespace Walk

/-- A walk that has not ended takes a step for each fact that its check gets to, at least one. -/
theorem isTerminal_iterate_step : ∀ (k : ℕ) (facts : List Fact) {P : Platform σ} {p : Phase}
    {es : List Evaluation}, p.outcome? = none →
      ((step^[k] (Walk.mk facts P p es)).phase.isTerminal = true ↔
        max 1 (verify facts P).1.evaluated.length ≤ k)
  | 0, facts, P, p, es, h => by
    have hopen : p.isTerminal = false := isTerminal_of_open h
    simp [hopen]
  | k + 1, [], P, p, es, h => by
    rw [Function.iterate_succ_apply, step_nil h, verify_nil]
    exact iff_of_true (isTerminal_iterate_of_ended rfl k) (by simp)
  | k + 1, f :: fs, P, p, es, h => by
    rw [Function.iterate_succ_apply, step_cons h]
    by_cases heq : (P.ask f.source).1 = f.expected
    · rw [verify_cons_of_eq heq]
      cases fs with
      | nil =>
        rw [phaseAfter_nil heq, verify_nil]
        exact iff_of_true (isTerminal_iterate_of_ended rfl k) (by simp [Verification.after])
      | cons g gs =>
        have hpos := length_evaluated_pos g gs (P.ask f.source).2
        rw [phaseAfter_cons heq, isTerminal_iterate_step k (g :: gs) rfl]
        simp only [Verification.after, List.length_append, List.length_cons, List.length_nil]
        omega
    · rw [phaseAfter_of_ne heq, verify_cons_of_ne heq]
      exact iff_of_true (isTerminal_iterate_of_ended rfl k) (by simp)

end Walk

/-- Running after any number of steps gives what a check gives, the platform included. A walk ends
after as many steps as the check has evaluations, but at least one, not before, and in the state
that the check gives. -/
theorem run_after_steps (facts : List Fact) (P : Platform σ) :
    (∀ k, (Walk.step^[k] (Walk.start facts P)).run = verify facts P) ∧
      (∀ k, (Walk.step^[k] (Walk.start facts P)).phase.isTerminal = true ↔
        max 1 (verify facts P).1.evaluated.length ≤ k) ∧
      max 1 (verify facts P).1.evaluated.length ≤ max 1 facts.length ∧
      let w := Walk.step^[max 1 (verify facts P).1.evaluated.length] (Walk.start facts P)
      w.phase.outcome? = some (verify facts P).1.outcome ∧
        w.evaluated = (verify facts P).1.evaluated ∧ w.platform = (verify facts P).2 := by
  have hrun : ∀ k, (Walk.step^[k] (Walk.start facts P)).run = verify facts P :=
    (Walk.start facts P).run_iterate_step
  have hend : ∀ k, (Walk.step^[k] (Walk.start facts P)).phase.isTerminal = true ↔
      max 1 (verify facts P).1.evaluated.length ≤ k :=
    fun k => Walk.isTerminal_iterate_step k facts rfl
  have hle := length_evaluated_le facts P
  refine ⟨hrun, hend, by omega, ?_⟩
  intro w
  obtain ⟨o, ho⟩ := Option.isSome_iff_exists.1 ((hend _).2 (Nat.le_refl _))
  have hw : (⟨⟨o, w.evaluated⟩, w.platform⟩ : Verification × Platform σ) = verify facts P :=
    (Walk.run_of_ended ho).symm.trans (hrun _)
  rw [← hw]
  exact ⟨ho, rfl, rfl⟩

end HostAbi

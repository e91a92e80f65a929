import HostAbi.Verification.Walk

/-!
# Checking one fact after the other

A check of no facts passes. A check of some facts asks about the first, and fails there or goes on
with the others on the platform as it was left (`verify_cons_of_ne`, `verify_cons_of_eq`). A walk
that has not ended goes on like a check of the facts still to come, whatever came before
(`run_eq_after`).
-/

namespace HostAbi

variable {σ : Type}

/-- A verification that comes after some evaluations. -/
def Verification.after (es : List Evaluation) (V : Verification) : Verification :=
  ⟨V.outcome, es ++ V.evaluated⟩

namespace Walk

theorem run_of_ended {w : Walk σ} {o : Outcome} (h : w.phase.outcome? = some o) :
    w.run = (⟨o, w.evaluated⟩, w.platform) := by
  rw [run.eq_def]
  split
  · rename_i h'
    rw [h, Option.some.injEq] at h'
    rw [h']
  · rename_i h'
    rw [h] at h'
    cases h'

theorem run_of_open {w : Walk σ} (h : w.phase.outcome? = none) : w.run = w.step.run := by
  rw [run.eq_def]
  split
  · rename_i h'
    rw [h] at h'
    cases h'
  · rfl

theorem isTerminal_of_open {p : Phase} (h : p.outcome? = none) : p.isTerminal = false := by
  rw [Phase.isTerminal, h, Option.isSome_none]

theorem step_of_ended {w : Walk σ} {o : Outcome} (h : w.phase.outcome? = some o) : w.step = w := by
  have hw : w.phase.isTerminal = true := by rw [Phase.isTerminal, h, Option.isSome_some]
  rw [step, if_pos hw]

theorem step_nil {P : Platform σ} {p : Phase} {es : List Evaluation} (h : p.outcome? = none) :
    (Walk.mk [] P p es).step = ⟨[], P, .passed, es⟩ := by
  simp [step, isTerminal_of_open h]

theorem step_cons {f : Fact} {fs : List Fact} {P : Platform σ} {p : Phase} {es : List Evaluation}
    (h : p.outcome? = none) :
    (Walk.mk (f :: fs) P p es).step = ⟨fs, (P.ask f.source).2,
      phaseAfter ⟨f, (P.ask f.source).1⟩ fs, es ++ [⟨f, (P.ask f.source).1⟩]⟩ := by
  simp [step, isTerminal_of_open h]

section PhaseAfter

variable {f : Fact} {a : Int64}

theorem phaseAfter_of_ne (h : a ≠ f.expected) (fs : List Fact) :
    phaseAfter ⟨f, a⟩ fs = .failed (.ofFact f a) := by
  simp [phaseAfter, Evaluation.passed, Fact.holds, h]

theorem phaseAfter_nil (h : a = f.expected) : phaseAfter ⟨f, a⟩ [] = .passed := by
  simp [phaseAfter, Evaluation.passed, Fact.holds, h]

theorem phaseAfter_cons (h : a = f.expected) (g : Fact) (gs : List Fact) :
    phaseAfter ⟨f, a⟩ (g :: gs) = .running := by
  simp [phaseAfter, Evaluation.passed, Fact.holds, h]

end PhaseAfter

theorem run_nil {P : Platform σ} {p : Phase} {es : List Evaluation} (h : p.outcome? = none) :
    (Walk.mk [] P p es).run = (⟨.passed, es⟩, P) := by
  rw [run_of_open h, step_nil h, run_of_ended rfl]

theorem run_cons_of_ne {f : Fact} {fs : List Fact} {P : Platform σ} {p : Phase}
    {es : List Evaluation} (h : p.outcome? = none) (hne : (P.ask f.source).1 ≠ f.expected) :
    (Walk.mk (f :: fs) P p es).run =
      (⟨.failed (.ofFact f (P.ask f.source).1), es ++ [⟨f, (P.ask f.source).1⟩]⟩,
        (P.ask f.source).2) := by
  rw [run_of_open h, step_cons h, phaseAfter_of_ne hne, run_of_ended rfl]

/-- After a fact that holds the walk goes on, also if it has ended because the fact was the last. -/
theorem run_cons_of_eq {f : Fact} {fs : List Fact} {P : Platform σ} {p : Phase}
    {es : List Evaluation} (h : p.outcome? = none) (heq : (P.ask f.source).1 = f.expected) :
    (Walk.mk (f :: fs) P p es).run =
      (Walk.mk fs (P.ask f.source).2 .running (es ++ [⟨f, (P.ask f.source).1⟩])).run := by
  rw [run_of_open h, step_cons h]
  cases fs with
  | nil => rw [phaseAfter_nil heq, run_of_ended rfl, run_nil rfl]
  | cons g gs => rw [phaseAfter_cons heq]

/-- Where a walk stands, and what it has learnt, is of no matter for how it goes on. -/
theorem run_eq_after : ∀ {facts : List Fact} {P : Platform σ} {p : Phase} {es : List Evaluation},
    p.outcome? = none →
      (Walk.mk facts P p es).run = ((verify facts P).1.after es, (verify facts P).2)
  | [], P, p, es, h => by
    rw [run_nil h, verify, start, run_nil rfl, Verification.after, List.append_nil]
  | f :: fs, P, p, es, h => by
    by_cases heq : (P.ask f.source).1 = f.expected
    · have hv : verify (f :: fs) P = _ := (run_cons_of_eq rfl heq).trans (run_eq_after rfl)
      rw [run_cons_of_eq h heq, run_eq_after rfl, hv]
      simp [Verification.after]
    · have hv : verify (f :: fs) P = _ := run_cons_of_ne rfl heq
      rw [run_cons_of_ne h heq, hv]
      rfl

end Walk

theorem verify_nil (P : Platform σ) : verify [] P = (⟨.passed, []⟩, P) := Walk.run_nil rfl

variable {f : Fact} {fs : List Fact} {P : Platform σ}

theorem verify_cons_of_ne (h : (P.ask f.source).1 ≠ f.expected) : verify (f :: fs) P =
    (⟨.failed (.ofFact f (P.ask f.source).1), [⟨f, (P.ask f.source).1⟩]⟩, (P.ask f.source).2) :=
  Walk.run_cons_of_ne rfl h

theorem verify_cons_of_eq (h : (P.ask f.source).1 = f.expected) : verify (f :: fs) P =
    ((verify fs (P.ask f.source).2).1.after [⟨f, (P.ask f.source).1⟩],
      (verify fs (P.ask f.source).2).2) :=
  (Walk.run_cons_of_eq rfl h).trans (Walk.run_eq_after rfl)

end HostAbi

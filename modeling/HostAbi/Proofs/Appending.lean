import HostAbi.Proofs.Checking

/-!
# Checks of appended facts

A check of some facts and then more is a check of the first ones that goes on with the others only
if those held, on the platform as they left it. So facts that are appended never change how the
ones before them come out, and nothing is asked for them if one of those fails
(`verify_append_facts`).
-/

namespace HostAbi

variable {σ : Type}

/-- What a platform was asked for these evaluations. -/
def Verification.queries (V : Verification) : List Query := V.evaluated.map (·.fact.source)

/-- A check asks one query for each of its evaluations and nothing else. -/
theorem asked_verify : ∀ (facts : List Fact) (P : Platform σ),
    (verify facts P).2.asked = P.asked ++ (verify facts P).1.queries
  | [], P => by
    rw [verify_nil]
    exact (List.append_nil _).symm
  | f :: fs, P => by
    by_cases heq : (P.ask f.source).1 = f.expected
    · have ih := asked_verify fs (P.ask f.source).2
      rw [verify_cons_of_eq heq, ih]
      simp [Platform.ask, Verification.after, Verification.queries]
    · rw [verify_cons_of_ne heq]
      rfl

theorem after_nil (V : Verification) : V.after [] = V := rfl

theorem after_after (V : Verification) (es es' : List Evaluation) :
    (V.after es').after es = V.after (es ++ es') := by
  simp only [Verification.after, List.append_assoc]

/-- A check that fails does so whatever comes after its facts. -/
theorem verify_append_of_failed : ∀ {fs : List Fact} {P : Platform σ} {m : Mismatch},
    (verify fs P).1.outcome = .failed m → ∀ gs, verify (fs ++ gs) P = verify fs P
  | [], P, m, h, gs => by
    rw [verify_nil] at h
    cases h
  | f :: fs, P, m, h, gs => by
    rw [List.cons_append]
    by_cases heq : (P.ask f.source).1 = f.expected
    · rw [verify_cons_of_eq heq] at h ⊢
      rw [verify_cons_of_eq heq, verify_append_of_failed h gs]
    · rw [verify_cons_of_ne heq, verify_cons_of_ne heq]

/-- A check that passes goes on with what comes after its facts. -/
theorem verify_append_of_passed : ∀ {fs : List Fact} {P : Platform σ},
    (verify fs P).1.outcome = .passed → ∀ gs, verify (fs ++ gs) P =
      ((verify gs (verify fs P).2).1.after (verify fs P).1.evaluated,
        (verify gs (verify fs P).2).2)
  | [], P, _, gs => by
    rw [List.nil_append, verify_nil, after_nil]
  | f :: fs, P, h, gs => by
    rw [List.cons_append]
    by_cases heq : (P.ask f.source).1 = f.expected
    · rw [verify_cons_of_eq heq] at h
      rw [verify_cons_of_eq heq, verify_cons_of_eq heq, verify_append_of_passed h gs, after_after]
      rfl
    · rw [verify_cons_of_ne heq] at h
      cases h

/-- A check that fails is what the check of more facts is, down to the platform that it leaves.
After one that passes the facts behind are checked on the platform as it was left: they decide the
outcome, and their evaluations and queries follow those of the facts before. -/
theorem verify_append_facts (fs gs : List Fact) (P : Platform σ) :
    let first := verify fs P
    let next := verify gs first.2
    let both := verify (fs ++ gs) P
    first.2.asked = P.asked ++ first.1.queries ∧
      next.2.asked = first.2.asked ++ next.1.queries ∧
      (∀ m, first.1.outcome = .failed m → both = first) ∧
      (first.1.outcome = .passed →
        both.1.outcome = next.1.outcome ∧
        both.1.evaluated = first.1.evaluated ++ next.1.evaluated ∧
        both.2 = next.2 ∧
        both.2.asked = P.asked ++ (first.1.queries ++ next.1.queries)) := by
  intro first next both
  have hfirst : first.2.asked = P.asked ++ first.1.queries := asked_verify fs P
  have hnext : next.2.asked = first.2.asked ++ next.1.queries := asked_verify gs first.2
  refine ⟨hfirst, hnext, fun m h => verify_append_of_failed h gs, fun h => ?_⟩
  have hboth : both = (next.1.after first.1.evaluated, next.2) := verify_append_of_passed h gs
  rw [hboth]
  exact ⟨rfl, rfl, rfl, by rw [hnext, hfirst, List.append_assoc]⟩

end HostAbi

import HostAbi.Proofs.Checking

/-!
# The first failure

Asked about all facts in order, a platform gives a list of answers. A check gives the part of it up
to the first answer that is not the expected one, and asks no more than that
(`verify_first_failure`). The platform may change with every question, so each answer is used for
all that is said of its fact.
-/

namespace HostAbi

variable {σ : Type}

namespace Platform

/-- What a platform answers when it is asked about all facts, one after the other. -/
def answers (P : Platform σ) (facts : List Fact) : List Int64 :=
  (P.askAll (facts.map (·.source))).1

/-- A platform once it has been asked about all facts, one after the other. -/
def afterFacts (P : Platform σ) (facts : List Fact) : Platform σ :=
  (P.askAll (facts.map (·.source))).2

theorem answers_cons (P : Platform σ) (f : Fact) (fs : List Fact) :
    P.answers (f :: fs) = (P.ask f.source).1 :: (P.ask f.source).2.answers fs := rfl

theorem afterFacts_cons (P : Platform σ) (f : Fact) (fs : List Fact) :
    P.afterFacts (f :: fs) = (P.ask f.source).2.afterFacts fs := rfl

theorem answers_append : ∀ (P : Platform σ) (fs gs : List Fact),
    P.answers (fs ++ gs) = P.answers fs ++ (P.afterFacts fs).answers gs
  | _, [], _ => rfl
  | P, f :: fs, gs => by
    rw [List.cons_append, answers_cons, answers_append, answers_cons, afterFacts_cons]
    rfl

theorem afterFacts_append : ∀ (P : Platform σ) (fs gs : List Fact),
    P.afterFacts (fs ++ gs) = (P.afterFacts fs).afterFacts gs
  | _, [], _ => rfl
  | P, f :: fs, gs => by
    rw [List.cons_append, afterFacts_cons, afterFacts_append, afterFacts_cons]

theorem length_answers : ∀ (P : Platform σ) (facts : List Fact),
    (P.answers facts).length = facts.length
  | _, [] => rfl
  | P, f :: fs => by rw [answers_cons, List.length_cons, length_answers, List.length_cons]

theorem asked_afterFacts : ∀ (P : Platform σ) (facts : List Fact),
    (P.afterFacts facts).asked = P.asked ++ facts.map (·.source)
  | P, [] => (List.append_nil P.asked).symm
  | P, f :: fs => by
    rw [afterFacts_cons, asked_afterFacts]
    simp [ask]

end Platform

/-- Facts with the answers to them. -/
def evaluations (facts : List Fact) (answers : List Int64) : List Evaluation :=
  List.zipWith .mk facts answers

theorem length_evaluations {facts : List Fact} {as : List Int64} (h : as.length = facts.length) :
    (evaluations facts as).length = facts.length := by
  rw [evaluations, List.length_zipWith, h, Nat.min_self]

theorem evaluations_append {fs : List Fact} {as : List Int64} (h : as.length = fs.length)
    (gs : List Fact) (bs : List Int64) :
    evaluations (fs ++ gs) (as ++ bs) = evaluations fs as ++ evaluations gs bs :=
  List.zipWith_append h.symm

/-- Whether the answer at a place is the one that the fact there expects. -/
def HoldsAt (facts : List Fact) (answers : List Int64) (j : Nat) : Prop :=
  ∀ f a, facts[j]? = some f → answers[j]? = some a → a = f.expected

theorem verify_of_all_hold : ∀ (facts : List Fact) (P : Platform σ),
    (∀ j, HoldsAt facts (P.answers facts) j) →
      verify facts P = (⟨.passed, evaluations facts (P.answers facts)⟩, P.afterFacts facts)
  | [], P, _ => verify_nil P
  | f :: fs, P, h => by
    have ih := verify_of_all_hold fs (P.ask f.source).2 fun j => h (j + 1)
    rw [verify_cons_of_eq (h 0 f _ rfl rfl), ih]
    rfl

theorem verify_of_first_failure : ∀ (facts : List Fact) (P : Platform σ) (k : Nat) {f : Fact}
    {a : Int64}, facts[k]? = some f → (P.answers facts)[k]? = some a → a ≠ f.expected →
      (∀ j < k, HoldsAt facts (P.answers facts) j) →
        verify facts P = (⟨.failed ⟨f.name, f.expected, a⟩,
          evaluations (facts.take (k + 1)) (P.answers facts)⟩, P.afterFacts (facts.take (k + 1)))
  | [], _, _, _, _, hf, _, _, _ => by simp at hf
  | g :: gs, P, 0, f, a, hf, ha, hne, _ => by
    obtain rfl : g = f := Option.some.inj hf
    obtain rfl : (P.ask g.source).1 = a := Option.some.inj ha
    exact verify_cons_of_ne hne
  | g :: gs, P, k + 1, f, a, hf, ha, hne, hbefore => by
    have hg : (P.ask g.source).1 = g.expected := hbefore 0 (Nat.succ_pos k) g _ rfl rfl
    have ih := verify_of_first_failure gs (P.ask g.source).2 k hf ha hne
      fun j hj => hbefore (j + 1) (Nat.succ_lt_succ hj)
    rw [verify_cons_of_eq hg, ih]
    rfl

/-- A check fails at the first fact whose answer is not the expected one, with the answers up to
there and no question after it, and passes with all answers if there is no such fact. -/
theorem verify_first_failure (facts : List Fact) (P : Platform σ) :
    (P.answers facts).length = facts.length ∧
      (∀ (k : Nat) (f : Fact) (a : Int64), facts[k]? = some f →
        (P.answers facts)[k]? = some a → a ≠ f.expected →
        (∀ j < k, HoldsAt facts (P.answers facts) j) →
          (verify facts P).1.outcome = .failed ⟨f.name, f.expected, a⟩ ∧
          (verify facts P).1.evaluated = evaluations (facts.take (k + 1)) (P.answers facts) ∧
          (verify facts P).2 = P.afterFacts (facts.take (k + 1)) ∧
          (verify facts P).2.asked = P.asked ++ (facts.take (k + 1)).map (·.source)) ∧
      ((∀ j, HoldsAt facts (P.answers facts) j) →
        (verify facts P).1.outcome = .passed ∧
        (verify facts P).1.evaluated = evaluations facts (P.answers facts) ∧
        (verify facts P).2 = P.afterFacts facts ∧
        (verify facts P).2.asked = P.asked ++ facts.map (·.source)) := by
  refine ⟨P.length_answers facts, fun k f a hf ha hne hbefore => ?_, fun hall => ?_⟩
  · rw [verify_of_first_failure facts P k hf ha hne hbefore]
    exact ⟨rfl, rfl, rfl, P.asked_afterFacts _⟩
  · rw [verify_of_all_hold facts P hall]
    exact ⟨rfl, rfl, rfl, P.asked_afterFacts _⟩

/-- Three facts, two of them on one query. -/
def repeatedFacts : List Fact :=
  [⟨"one", 4, .sizeOfLong, .minimal⟩, ⟨"two", 4, .sizeOfLong, .minimal⟩,
    ⟨"three", 1, .pollin, .minimal⟩]

/-- A platform that answers 4 and then 8 to the same query. -/
def driftingPlatform : Platform (Query → List Int64) :=
  .scripted (fun _ => 0) fun q => if q = .sizeOfLong then [4, 8] else []

theorem verify_repeatedFacts : driftingPlatform.answers repeatedFacts = [4, 8, 0] ∧
    (verify repeatedFacts driftingPlatform).1.outcome = .failed ⟨"two", 4, 8⟩ ∧
    (verify repeatedFacts driftingPlatform).2.asked = [.sizeOfLong, .sizeOfLong] := by
  have hanswers : driftingPlatform.answers repeatedFacts = [4, 8, 0] := by decide
  have hholds : ∀ j < 1, HoldsAt repeatedFacts (driftingPlatform.answers repeatedFacts) j := by
    intro j hj f a hf ha
    obtain rfl : j = 0 := by omega
    obtain rfl := Option.some.inj hf
    rw [hanswers] at ha
    exact (Option.some.inj ha).symm
  have h := (verify_first_failure repeatedFacts driftingPlatform).2.1 1 _ 8 rfl
    (by rw [hanswers]; rfl) (by decide) hholds
  exact ⟨hanswers, h.1, h.2.2.2⟩

end HostAbi

import HostAbi.Proofs.Repinning

/-!
# What a check depends on

On platforms that do not change, a check depends on the answers to the facts that it gets to and on
no others, although those answers decide how far it gets. Two platforms that agree on them are led
through the same facts in step and cannot be told apart. Platforms that disagree on one of them can
be (`verify_footprint`).
-/

namespace HostAbi

open Profile

variable {σ τ : Type} {P : Platform σ} {Q : Platform τ} {p q : Query → Int64} {facts : List Fact}

/-- Whether answers agree on every query that led to these evaluations. -/
def Verification.AgreedOn (V : Verification) (p q : Query → Int64) : Prop :=
  ∀ e ∈ V.evaluated, p e.fact.source = q e.fact.source

instance (V : Verification) (p q : Query → Int64) : Decidable (V.AgreedOn p q) :=
  inferInstanceAs (Decidable (∀ e ∈ V.evaluated, _))

/-- Whether a check asks the same of two platforms, and finds the same. -/
structure CheckedAlike (facts : List Fact) (P : Platform σ) (Q : Platform τ) : Prop where
  outcome : (verify facts P).1.outcome = (verify facts Q).1.outcome
  evaluated : (verify facts P).1.evaluated = (verify facts Q).1.evaluated
  asked : ∃ queries, (verify facts P).2.asked = P.asked ++ queries ∧
    (verify facts Q).2.asked = Q.asked ++ queries

/-! ## Evaluations on a platform that does not change -/

/-- An evaluation is one of the facts with the answer to it. -/
theorem exists_of_mem_evaluated (hP : P.Steady p) {e : Evaluation}
    (he : e ∈ (verify facts P).1.evaluated) : ∃ f ∈ facts, e = f.evaluate p := by
  rcases all_holding_or_failing p facts with hall | ⟨before, f, after, rfl, hbefore, hf⟩
  · rw [verify_of_all_holding hP hall] at he
    obtain ⟨u, hu, rfl⟩ := List.mem_map.1 he
    exact ⟨u, hu, rfl⟩
  · rw [verify_of_failing hP hbefore hf] at he
    obtain ⟨u, hu, rfl⟩ := List.mem_map.1 he
    refine ⟨u, ?_, rfl⟩
    rw [List.append_cons]
    exact List.mem_append_left after hu

theorem actual_of_mem_evaluated (hP : P.Steady p) {e : Evaluation}
    (he : e ∈ (verify facts P).1.evaluated) : e.actual = p e.fact.source := by
  obtain ⟨f, -, rfl⟩ := exists_of_mem_evaluated hP he
  rfl

/-- A mismatch shows the answer to the fact at which a check fails. -/
theorem mismatch_of_failsAt (hP : P.Steady p) {f : Fact} {m : Mismatch}
    (h : (verify facts P).1.FailsAt f m) : m = .ofFact f (p f.source) := by
  rcases all_holding_or_failing p facts with hall | ⟨before, u, after, rfl, hbefore, hu⟩
  · rw [verify_of_all_holding hP hall] at h
    cases h.1
  · rw [verify_of_failing hP hbefore hu] at h
    obtain ⟨rfl, rfl⟩ := Verification.failsAt_failed_iff.1 h
    rfl

theorem evaluated_cons (f : Fact) (fs : List Fact) (P : Platform σ) :
    ∃ es, (verify (f :: fs) P).1.evaluated = ⟨f, (P.ask f.source).1⟩ :: es := by
  by_cases heq : (P.ask f.source).1 = f.expected
  · exact ⟨_, by rw [verify_cons_of_eq heq]; rfl⟩
  · exact ⟨[], by rw [verify_cons_of_ne heq]⟩

/-! ## Two platforms in step -/

/-- The first fact is evaluated whatever its answer is, so the platforms agree on it, and either
both checks end there or both go on with the others. -/
theorem verify_eq_of_agreedOn : ∀ {facts : List Fact} {P : Platform σ} {Q : Platform τ},
    P.Steady p → Q.Steady q → (verify facts P).1.AgreedOn p q →
      (verify facts P).1 = (verify facts Q).1
  | [], _, _, _, _, _ => by rw [verify_nil, verify_nil]
  | f :: fs, P, Q, hP, hQ, h => by
    -- That they agree on this fact comes from the evaluations, which it is in if it fails, too.
    obtain ⟨es, hes⟩ := evaluated_cons f fs P
    have hf : p f.source = q f.source := h ⟨f, (P.ask f.source).1⟩ (by simp [hes])
    have hask : (P.ask f.source).1 = (Q.ask f.source).1 := by
      rw [hP.ask_fst, hQ.ask_fst, hf]
    by_cases heq : (P.ask f.source).1 = f.expected
    · rw [verify_cons_of_eq heq] at h
      have hrest : (verify fs (P.ask f.source).2).1.AgreedOn p q := fun e he =>
        h e (List.mem_append_right _ he)
      have ih := verify_eq_of_agreedOn (hP.ask_snd f.source) (hQ.ask_snd f.source) hrest
      rw [verify_cons_of_eq heq, verify_cons_of_eq (hask ▸ heq), ih, hask]
    · rw [verify_cons_of_ne heq, verify_cons_of_ne (hask ▸ heq), hask]

theorem checkedAlike_of_agreedOn (hP : P.Steady p) (hQ : Q.Steady q)
    (h : (verify facts P).1.AgreedOn p q) : CheckedAlike facts P Q := by
  have hrun : (verify facts P).1 = (verify facts Q).1 := verify_eq_of_agreedOn hP hQ h
  refine ⟨by rw [hrun], by rw [hrun], (verify facts P).1.queries, asked_verify facts P, ?_⟩
  rw [hrun]
  exact asked_verify facts Q

/-- An evaluation that comes up on both platforms shows the answer of both. -/
theorem agreedOn_of_verify_eq (hP : P.Steady p) (hQ : Q.Steady q)
    (h : (verify facts P).1 = (verify facts Q).1) : (verify facts P).1.AgreedOn p q := by
  intro e he
  rw [← actual_of_mem_evaluated hP he]
  exact actual_of_mem_evaluated hQ (h ▸ he)

/-- Answers that differ only where facts of the extended profile alone ask agree on all that a
minimal check gets to. -/
theorem agreedOn_minimal (hP : P.Steady p)
    (h : ∀ x, p x ≠ q x → ∀ f ∈ facts, f.source = x → f.profile = extended) :
    (verify (minimal.select facts) P).1.AgreedOn p q := by
  intro e he
  obtain ⟨f, hf, rfl⟩ := exists_of_mem_evaluated hP he
  obtain ⟨hmem, hprofile⟩ := mem_select_minimal.1 hf
  by_contra hne
  have hextended : f.profile = extended := h f.source hne f hmem rfl
  rw [hprofile] at hextended
  cases hextended

/-- A check asks the queries of its evaluations. Another platform that agrees on them is checked
alike, and one on which the check finds the same does agree on them. So the minimal check of a table
cannot tell platforms apart that differ on queries of extended facts alone. -/
theorem verify_footprint (hP : P.Steady p) (hQ : Q.Steady q) (facts : List Fact) :
    (verify facts P).2.asked = P.asked ++ (verify facts P).1.evaluated.map (·.fact.source) ∧
    ((verify facts P).1.AgreedOn p q → CheckedAlike facts P Q) ∧
    ((verify facts P).1 = (verify facts Q).1 → (verify facts P).1.AgreedOn p q) ∧
    ((∀ x, p x ≠ q x → ∀ f ∈ facts, f.source = x → f.profile = .extended) →
      CheckedAlike (minimal.select facts) P Q) :=
  ⟨asked_verify facts P, checkedAlike_of_agreedOn hP hQ, agreedOn_of_verify_eq hP hQ,
    fun h => checkedAlike_of_agreedOn hP hQ (agreedOn_minimal hP h)⟩

/-- A host whose long integers are too long cannot be told from one that answers 8 to everything.
Platforms that differ in one constant can be told apart, but not by the minimal check. -/
theorem unasked_answers :
    Layout.linux64.platform.Steady Layout.linux64.answer ∧
    (Platform.fixed fun _ => 8).Steady (fun _ => 8) ∧
    CheckedAlike pinnedFacts Layout.linux64.platform (.fixed fun _ => 8) ∧
    CheckedAlike (minimal.select pinnedFacts) (.fixed pinnedAnswer) (.fixed pollinAnswer) ∧
    (verify pinnedFacts (.fixed pinnedAnswer)).1 ≠
      (verify pinnedFacts (.fixed pollinAnswer)).1 := by
  have hlinux : Layout.linux64.platform.Steady Layout.linux64.answer := fun _ _ => rfl
  have hconst : (Platform.fixed fun _ => 8).Steady fun _ => 8 := fun _ _ => rfl
  have hpinned : (Platform.fixed pinnedAnswer).Steady pinnedAnswer := fun _ _ => rfl
  have hpollin : (Platform.fixed pollinAnswer).Steady pollinAnswer := fun _ _ => rfl
  obtain ⟨-, halike, -, -⟩ := verify_footprint hlinux hconst pinnedFacts
  obtain ⟨-, -, hagreed, hminimal⟩ := verify_footprint hpinned hpollin pinnedFacts
  refine ⟨hlinux, hconst, halike ?_, hminimal ?_, fun hsame => ?_⟩
  · have hbefore : ∀ f ∈ pinnedFacts.take 1, (f.evaluate Layout.linux64.answer).passed := by decide
    have hrun : (verify pinnedFacts Layout.linux64.platform).1 = ⟨.failed ⟨"size of long", 4, 8⟩,
        (pinnedFacts.take 2).map (·.evaluate Layout.linux64.answer)⟩ :=
      verify_of_failing hlinux hbefore (by decide) (pinnedFacts.drop 2)
    rw [hrun]
    decide
  · intro x hx
    obtain rfl : x = .pollin := by
      by_contra hne
      exact hx (if_neg hne).symm
    decide
  · have hall : ∀ f ∈ pinnedFacts, (f.evaluate pinnedAnswer).passed := by decide
    have hmem : pollinFact.evaluate pinnedAnswer ∈
        (verify pinnedFacts (.fixed pinnedAnswer)).1.evaluated := by
      rw [verify_of_all_holding hpinned hall]
      exact List.mem_map_of_mem (by decide)
    exact absurd (hagreed hsame _ hmem) (by decide)

end HostAbi

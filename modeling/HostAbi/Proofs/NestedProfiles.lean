import HostAbi.Fact.Pinned
import HostAbi.Proofs.Checking
import Mathlib.Data.List.Infix

/-!
# Nested profiles

The extended profile takes all facts and the minimal one takes some of them, so on a platform that
does not change the minimal check goes through part of what the extended one goes through. It
passes if the extended one does, fails alike where that fails at a fact of its own, and goes on
where that stops at another (`verification_minimal_extended`).

On such a platform a check is known once the first fact that does not hold is
(`verify_of_all_holding`, `verify_of_failing`), and a list of facts either has one or has none.
-/

namespace HostAbi

variable {σ : Type}

/-- Whether a platform has one answer to each query, however often and in whatever state it is
asked. -/
def Platform.Steady (P : Platform σ) (g : Query → Int64) : Prop :=
  ∀ s q, (P.answer s q).1 = g q

/-- A fact with the answer to its query. -/
def Fact.evaluate (f : Fact) (g : Query → Int64) : Evaluation := ⟨f, g f.source⟩

/-- What a check finds of the facts that a profile takes. -/
def Profile.verification (p : Profile) (facts : List Fact) (P : Platform σ) : Verification :=
  (verify (p.select facts) P).1

namespace Platform.Steady

variable {P : Platform σ} {g : Query → Int64}

theorem ask_fst (h : P.Steady g) (q : Query) : (P.ask q).1 = g q := h P.state q

theorem ask_snd (h : P.Steady g) (q : Query) : (P.ask q).2.Steady g := h

end Platform.Steady

section Steady

variable {P : Platform σ} {g : Query → Int64} {f : Fact} {before after rest : List Fact}

theorem verify_cons_of_holds (hP : P.Steady g) (h : (f.evaluate g).passed) (fs : List Fact) :
    (verify (f :: fs) P).1 = (verify fs (P.ask f.source).2).1.after [f.evaluate g] := by
  have hask := hP.ask_fst f.source
  have heq : (P.ask f.source).1 = f.expected := by
    rw [hask]
    exact eq_of_beq h
  rw [verify_cons_of_eq heq, hask]
  rfl

theorem verify_of_all_holding : ∀ {facts : List Fact} {P : Platform σ}, P.Steady g →
    (∀ f ∈ facts, (f.evaluate g).passed) →
      (verify facts P).1 = ⟨.passed, facts.map (·.evaluate g)⟩
  | [], P, _, _ => by
    rw [verify_nil]
    rfl
  | f :: fs, P, hP, h => by
    have ih := verify_of_all_holding (hP.ask_snd f.source) fun u hu =>
      h u (List.mem_cons_of_mem f hu)
    rw [verify_cons_of_holds hP (h f (by simp)), ih]
    rfl

/-- A check ends at the first fact that does not hold, whatever comes after it. -/
theorem verify_of_failing : ∀ {before : List Fact} {P : Platform σ}, P.Steady g →
    (∀ u ∈ before, (u.evaluate g).passed) → (f.evaluate g).passed = false → ∀ after,
      (verify (before ++ f :: after) P).1 =
        ⟨.failed (.ofFact f (g f.source)), (before ++ [f]).map (·.evaluate g)⟩
  | [], P, hP, _, hf, after => by
    have hask := hP.ask_fst f.source
    have hne : (P.ask f.source).1 ≠ f.expected := by
      rw [hask]
      exact ne_of_beq_false hf
    rw [List.nil_append, verify_cons_of_ne hne, hask]
    rfl
  | u :: before, P, hP, hbefore, hf, after => by
    have ih := verify_of_failing (hP.ask_snd u.source)
      (fun w hw => hbefore w (List.mem_cons_of_mem u hw)) hf after
    rw [List.cons_append, verify_cons_of_holds hP (hbefore u (by simp)), ih]
    rfl

/-- Of some facts all hold, or there is a first that does not. -/
theorem all_holding_or_failing (g : Query → Int64) : ∀ facts : List Fact,
    (∀ f ∈ facts, (f.evaluate g).passed) ∨
      ∃ before f after, facts = before ++ f :: after ∧
        (∀ u ∈ before, (u.evaluate g).passed) ∧ (f.evaluate g).passed = false
  | [] => .inl (by simp)
  | f :: fs => by
    rcases hf : (f.evaluate g).passed with _ | _
    · exact .inr ⟨[], f, fs, rfl, by simp, hf⟩
    · rcases all_holding_or_failing g fs with h | ⟨before, u, after, rfl, hbefore, hu⟩
      · exact .inl (List.forall_mem_cons.2 ⟨hf, h⟩)
      · exact .inr ⟨f :: before, u, after, rfl, List.forall_mem_cons.2 ⟨hf, hbefore⟩, hu⟩

/-- Facts that hold are all evaluated, whatever comes after them. -/
theorem prefix_evaluated (hP : P.Steady g) (hbefore : ∀ f ∈ before, (f.evaluate g).passed)
    (rest : List Fact) :
    before.map (·.evaluate g) <+: (verify (before ++ rest) P).1.evaluated := by
  rcases all_holding_or_failing g rest with h | ⟨more, f, after, rfl, hmore, hf⟩
  · rw [verify_of_all_holding hP (List.forall_mem_append.2 ⟨hbefore, h⟩), List.map_append]
    exact List.prefix_append _ _
  · have hall : ∀ u ∈ before ++ more, (u.evaluate g).passed :=
      List.forall_mem_append.2 ⟨hbefore, hmore⟩
    rw [← List.append_assoc, verify_of_failing hP hall hf, List.append_assoc, List.map_append]
    exact List.prefix_append _ _

end Steady

namespace Profile

theorem select_extended (facts : List Fact) : extended.select facts = facts :=
  List.filter_eq_self.2 fun _ _ => rfl

theorem includes_minimal_iff {p : Profile} : minimal.includes p ↔ p = minimal := by
  cases p <;> decide

theorem mem_select_minimal {f : Fact} {facts : List Fact} :
    f ∈ minimal.select facts ↔ f ∈ facts ∧ f.profile = minimal := by
  rw [select, List.mem_filter, includes_minimal_iff]

theorem select_minimal_append (before after : List Fact) (f : Fact) :
    minimal.select (before ++ f :: after) =
      minimal.select before ++
        if f.profile = minimal then f :: minimal.select after else minimal.select after := by
  simp only [select, List.filter_append, List.filter_cons, includes_minimal_iff]

/-- The evaluations of the facts that the minimal profile takes. -/
theorem filter_evaluate (facts : List Fact) (g : Query → Int64) :
    (facts.map (·.evaluate g)).filter (·.fact.profile = minimal) =
      (minimal.select facts).map (·.evaluate g) := by
  rw [List.filter_map, select]
  congr 2
  funext f
  rcases hf : f.profile with _ | _ <;> simp [Fact.evaluate, includes, hf]

/-- Where in a list the first of its minimal facts is that does not hold, if any. -/
theorem minimal_holding_or_failing (g : Query → Int64) (facts : List Fact) :
    (∀ f ∈ minimal.select facts, (f.evaluate g).passed) ∨
      ∃ before f after, facts = before ++ f :: after ∧ f.profile = minimal ∧
        (∀ u ∈ minimal.select before, (u.evaluate g).passed) ∧ (f.evaluate g).passed = false := by
  rcases all_holding_or_failing g (minimal.select facts) with
    h | ⟨first, f, later, hselect, hfirst, hf⟩
  · exact .inl h
  -- The facts between the last minimal one that holds and the failing one are passed over.
  · obtain ⟨front, back, rfl, rfl, hback⟩ := List.filter_eq_append_iff.1 hselect
    obtain ⟨skipped, after, rfl, hskipped, hprofile, -⟩ := List.filter_eq_cons_iff.1 hback
    refine .inr ⟨front ++ skipped, f, after, by simp, includes_minimal_iff.1 hprofile, ?_, hf⟩
    intro u hu
    obtain ⟨hmem, hu⟩ := List.mem_filter.1 hu
    rcases List.mem_append.1 hmem with hmem | hmem
    · exact hfirst u (List.mem_filter.2 ⟨hmem, hu⟩)
    · exact absurd hu (hskipped u hmem)

section Verification

variable {P : Platform σ} {g : Query → Int64} {f : Fact} {before facts : List Fact}

theorem extended_verification_of_all_holding (hP : P.Steady g)
    (h : ∀ f ∈ facts, (f.evaluate g).passed) :
    extended.verification facts P = ⟨.passed, facts.map (·.evaluate g)⟩ := by
  rw [verification, select_extended, verify_of_all_holding hP h]

theorem extended_verification_of_failing (hP : P.Steady g)
    (hbefore : ∀ u ∈ before, (u.evaluate g).passed) (hf : (f.evaluate g).passed = false)
    (after : List Fact) : extended.verification (before ++ f :: after) P =
      ⟨.failed (.ofFact f (g f.source)), (before ++ [f]).map (·.evaluate g)⟩ := by
  rw [verification, select_extended, verify_of_failing hP hbefore hf]

theorem minimal_verification_of_all_holding (hP : P.Steady g)
    (h : ∀ f ∈ minimal.select facts, (f.evaluate g).passed) :
    minimal.verification facts P = ⟨.passed, (minimal.select facts).map (·.evaluate g)⟩ :=
  verify_of_all_holding hP h

theorem minimal_verification_of_failing (hP : P.Steady g)
    (hbefore : ∀ u ∈ minimal.select before, (u.evaluate g).passed) (hprofile : f.profile = minimal)
    (hf : (f.evaluate g).passed = false) (after : List Fact) :
    minimal.verification (before ++ f :: after) P = ⟨.failed (.ofFact f (g f.source)),
      (minimal.select before ++ [f]).map (·.evaluate g)⟩ := by
  rw [verification, select_minimal_append, if_pos hprofile, verify_of_failing hP hbefore hf]

end Verification

end Profile

open Profile

namespace Verification

/-- Whether a verification fails with a mismatch, and at which fact. -/
def FailsAt (V : Verification) (f : Fact) (m : Mismatch) : Prop :=
  V.outcome = .failed m ∧ V.evaluated.getLast?.map (·.fact) = some f

/-- The evaluations of facts that are tagged as minimal. -/
def minimalPart (V : Verification) : List Evaluation :=
  V.evaluated.filter (·.fact.profile = .minimal)

theorem failsAt_failed_iff {m m' : Mismatch} {before : List Fact} {f u : Fact}
    {g : Query → Int64} :
    FailsAt ⟨.failed m, (before ++ [f]).map (·.evaluate g)⟩ u m' ↔ f = u ∧ m = m' := by
  simp [FailsAt, Fact.evaluate, and_comm]

theorem map_fact_evaluate (facts : List Fact) (g : Query → Int64) :
    (facts.map (·.evaluate g)).map (·.fact) = facts := by
  simp [Fact.evaluate, Function.comp_def]

end Verification

section Compared

open Verification

variable {P : Platform σ} {g : Query → Int64} {facts : List Fact} {f : Fact} {m : Mismatch}

theorem minimal_passed_of_extended (hP : P.Steady g)
    (h : (extended.verification facts P).outcome = .passed) :
    (minimal.verification facts P).outcome = .passed := by
  rcases all_holding_or_failing g facts with hall | ⟨before, u, after, rfl, hbefore, hu⟩
  · rw [minimal_verification_of_all_holding hP fun f hf => hall f (mem_select_minimal.1 hf).1]
  · rw [extended_verification_of_failing hP hbefore hu] at h
    cases h

theorem exists_extended_failsAt (hP : P.Steady g)
    (h : (extended.verification facts P).outcome = .failed m) :
    ∃ f, (extended.verification facts P).FailsAt f m := by
  rcases all_holding_or_failing g facts with hall | ⟨before, u, after, rfl, hbefore, hu⟩
  · rw [extended_verification_of_all_holding hP hall] at h
    cases h
  · rw [extended_verification_of_failing hP hbefore hu] at h ⊢
    cases h
    exact ⟨u, failsAt_failed_iff.2 ⟨rfl, rfl⟩⟩

/-- What the extended check went through before it failed. -/
theorem exists_before_of_extended_failsAt (hP : P.Steady g)
    (h : (extended.verification facts P).FailsAt f m) :
    ∃ before after, facts = before ++ f :: after ∧ m = .ofFact f (g f.source) ∧
      (∀ u ∈ before, (u.evaluate g).passed) ∧ (f.evaluate g).passed = false ∧
      (extended.verification facts P).minimalPart =
        (minimal.select (before ++ [f])).map (·.evaluate g) := by
  rcases all_holding_or_failing g facts with hall | ⟨before, u, after, rfl, hbefore, hu⟩
  · rw [extended_verification_of_all_holding hP hall] at h
    exact absurd h.1 nofun
  · rw [extended_verification_of_failing hP hbefore hu] at h ⊢
    obtain ⟨rfl, rfl⟩ := failsAt_failed_iff.1 h
    exact ⟨before, after, rfl, rfl, hbefore, hu, filter_evaluate _ g⟩

theorem minimal_failsAt_of_extended (hP : P.Steady g)
    (h : (extended.verification facts P).FailsAt f m) (hf : f.profile = .minimal) :
    (minimal.verification facts P).FailsAt f m ∧
      (minimal.verification facts P).evaluated = (extended.verification facts P).minimalPart := by
  obtain ⟨before, after, rfl, rfl, hbefore, hfails, hpart⟩ := exists_before_of_extended_failsAt hP h
  have hselect : ∀ u ∈ minimal.select before, (u.evaluate g).passed := fun u hu =>
    hbefore u (mem_select_minimal.1 hu).1
  rw [hpart, minimal_verification_of_failing hP hselect hf hfails, select_minimal_append, if_pos hf]
  exact ⟨failsAt_failed_iff.2 ⟨rfl, rfl⟩, rfl⟩

theorem minimalPart_prefix_of_extended (hP : P.Steady g)
    (h : (extended.verification facts P).FailsAt f m) (hf : f.profile = .extended) :
    (extended.verification facts P).minimalPart <+: (minimal.verification facts P).evaluated ∧
      ∀ e ∈ (extended.verification facts P).minimalPart, e.passed := by
  obtain ⟨before, after, rfl, rfl, hbefore, -, hpart⟩ := exists_before_of_extended_failsAt hP h
  have hne : f.profile ≠ .minimal := by simp [hf]
  have hselect : ∀ u ∈ minimal.select before, (u.evaluate g).passed := fun u hu =>
    hbefore u (mem_select_minimal.1 hu).1
  have hpart : (extended.verification (before ++ f :: after) P).minimalPart =
      (minimal.select before).map (·.evaluate g) := by
    rw [hpart, select_minimal_append, if_neg hne]
    simp [select]
  rw [hpart]
  constructor
  · rw [verification, select_minimal_append, if_neg hne]
    exact prefix_evaluated hP hselect _
  · intro e he
    obtain ⟨u, hu, rfl⟩ := List.mem_map.1 he
    exact hselect u hu

/-- Where the minimal check fails, the extended one does, unless it failed before at a fact that
the minimal one leaves out. -/
theorem extended_failsAt_of_minimal (hP : P.Steady g)
    (h : (minimal.verification facts P).outcome = .failed m) :
    ∃ before f after, facts = before ++ f :: after ∧
      (minimal.verification facts P).FailsAt f m ∧
      (minimal.verification facts P).evaluated.map (·.fact) = minimal.select before ++ [f] ∧
      ((extended.verification facts P).FailsAt f m ∧
          (extended.verification facts P).evaluated.map (·.fact) = before ++ [f] ∨
        ∃ earlier u between m', before = earlier ++ u :: between ∧ u.profile = .extended ∧
          (extended.verification facts P).FailsAt u m' ∧
          (extended.verification facts P).evaluated.map (·.fact) = earlier ++ [u]) := by
  rcases minimal_holding_or_failing g facts with
    hall | ⟨before, u, after, rfl, hprofile, hselect, hu⟩
  · rw [minimal_verification_of_all_holding hP hall] at h
    cases h
  · rw [minimal_verification_of_failing hP hselect hprofile hu] at h ⊢
    cases h
    refine ⟨before, u, after, rfl, failsAt_failed_iff.2 ⟨rfl, rfl⟩, map_fact_evaluate _ g, ?_⟩
    -- The extended check gets as far as this fact if all facts before it hold, the others too.
    rcases all_holding_or_failing g before with hbefore | ⟨earlier, w, between, rfl, hearlier, hw⟩
    · rw [extended_verification_of_failing hP hbefore hu]
      exact .inl ⟨failsAt_failed_iff.2 ⟨rfl, rfl⟩, map_fact_evaluate _ g⟩
    · have hextended : w.profile = .extended := by
        rcases hw' : w.profile with _ | _
        · have hpassed := hselect w (mem_select_minimal.2 ⟨by simp, hw'⟩)
          rw [hw] at hpassed
          cases hpassed
        · rfl
      rw [List.append_assoc, List.cons_append, extended_verification_of_failing hP hearlier hw]
      exact .inr ⟨earlier, w, between, _, rfl, hextended, failsAt_failed_iff.2 ⟨rfl, rfl⟩,
        map_fact_evaluate _ g⟩

end Compared

/-- The minimal check of some facts beside the extended one, on a platform that does not change.
What one of them goes through is a part of what the other does, up to the first failure. -/
theorem verification_minimal_extended {P : Platform σ} {g : Query → Int64} (hP : P.Steady g)
    (facts : List Fact) :
    ((extended.verification facts P).outcome = .passed →
      (minimal.verification facts P).outcome = .passed) ∧
    (∀ m, (extended.verification facts P).outcome = .failed m →
      ∃ f, (extended.verification facts P).FailsAt f m ∧
        (f.profile = .minimal → (minimal.verification facts P).FailsAt f m ∧
          (minimal.verification facts P).evaluated =
            (extended.verification facts P).minimalPart) ∧
        (f.profile = .extended →
          (extended.verification facts P).minimalPart <+:
            (minimal.verification facts P).evaluated ∧
          ∀ e ∈ (extended.verification facts P).minimalPart, e.passed)) ∧
    (∀ m, (minimal.verification facts P).outcome = .failed m →
      ∃ before f after, facts = before ++ f :: after ∧
        (minimal.verification facts P).FailsAt f m ∧
        (minimal.verification facts P).evaluated.map (·.fact) = minimal.select before ++ [f] ∧
        ((extended.verification facts P).FailsAt f m ∧
            (extended.verification facts P).evaluated.map (·.fact) = before ++ [f] ∨
          ∃ earlier u between m', before = earlier ++ u :: between ∧ u.profile = .extended ∧
            (extended.verification facts P).FailsAt u m' ∧
            (extended.verification facts P).evaluated.map (·.fact) = earlier ++ [u])) := by
  refine ⟨minimal_passed_of_extended hP, fun m h => ?_, fun m => extended_failsAt_of_minimal hP⟩
  obtain ⟨f, hf⟩ := exists_extended_failsAt hP h
  exact ⟨f, hf, minimal_failsAt_of_extended hP hf, minimalPart_prefix_of_extended hP hf⟩

/-- The pinned fact about what can be polled for. -/
def pollinFact : Fact := ⟨"value of POLLIN", 1, .pollin, .extended⟩

/-- The pinned answers, but for one constant. -/
def pollinAnswer (q : Query) : Int64 := if q = .pollin then 2 else (pinnedValue? q).getD 0

/-- A wrong constant of the extended profile alone leaves the minimal check as it is. -/
theorem pollin_verifications : (Platform.fixed pollinAnswer).Steady pollinAnswer ∧
    (extended.verification pinnedFacts (.fixed pollinAnswer)).outcome =
      .failed ⟨"value of POLLIN", 1, 2⟩ ∧
    (extended.verification pinnedFacts (.fixed pollinAnswer)).minimalPart <+:
      (minimal.verification pinnedFacts (.fixed pollinAnswer)).evaluated := by
  have hsteady : (Platform.fixed pollinAnswer).Steady pollinAnswer := fun _ _ => rfl
  have hbefore : ∀ f ∈ pinnedFacts.take 10, (f.evaluate pollinAnswer).passed := by decide
  have hV : extended.verification pinnedFacts (.fixed pollinAnswer) =
      ⟨.failed ⟨"value of POLLIN", 1, 2⟩,
        (pinnedFacts.take 10 ++ [pollinFact]).map (·.evaluate pollinAnswer)⟩ :=
    extended_verification_of_failing hsteady hbefore (by decide) (pinnedFacts.drop 11)
  have hfails : (extended.verification pinnedFacts (.fixed pollinAnswer)).outcome =
      .failed ⟨"value of POLLIN", 1, 2⟩ := by
    rw [hV]
  obtain ⟨f, hf, -, hpart⟩ :=
    (verification_minimal_extended hsteady pinnedFacts).2.1 _ hfails
  have hpollin : pollinFact = f := by
    rw [hV] at hf
    exact (Verification.failsAt_failed_iff.1 hf).1
  exact ⟨hsteady, hfails, (hpart (hpollin ▸ rfl)).1⟩

end HostAbi

import HostAbi.Proofs.Appending
import HostAbi.Proofs.NestedProfiles
import HostAbi.Proofs.ReportedRun

/-!
# Pinning another value

On a platform that does not change, a fact that pins another value decides about itself and nothing
else. A check that fails before it stays as it is. Otherwise the facts before it are evaluated as
they were, and the check fails at it exactly if the new value is not the answer. If it is, the facts
behind it decide (`verify_repinned`).
-/

namespace HostAbi

variable {σ : Type} {P : Platform σ} {g : Query → Int64}

/-- A check that fails among some facts does not come to those behind them. -/
theorem verify_append_of_not_holding (hP : P.Steady g) {before : List Fact}
    (h : ∃ u ∈ before, u.holds (g u.source) = false) (rest : List Fact) :
    verify (before ++ rest) P = verify before P := by
  obtain ⟨u, hu, hfails⟩ := h
  rcases all_holding_or_failing g before with hall | ⟨first, w, more, rfl, hfirst, hw⟩
  · have hholds : u.holds (g u.source) = true := hall u hu
    rw [hholds] at hfails
    cases hfails
  · refine verify_append_of_failed (m := .ofFact w (g w.source)) ?_ rest
    rw [verify_of_failing hP hfirst hw]

section Repinned

variable {f : Fact} {before : List Fact} {v : Int64}

/-- Facts that hold are evaluated in the same way, whatever comes after them. -/
theorem take_evaluated (hP : P.Steady g) (hbefore : ∀ u ∈ before, (u.evaluate g).passed)
    (rest : List Fact) :
    (verify (before ++ rest) P).1.evaluated.take before.length = before.map (·.evaluate g) := by
  obtain ⟨es, hes⟩ := prefix_evaluated hP hbefore rest
  rw [← hes]
  exact List.take_left' (List.length_map _)

theorem verify_repinned_of_ne (hP : P.Steady g) (hbefore : ∀ u ∈ before, (u.evaluate g).passed)
    (hv : v ≠ g f.source) (after : List Fact) :
    (verify (before ++ f.withExpected v :: after) P).1 =
      ⟨.failed ⟨f.name, v, g f.source⟩, (before ++ [f.withExpected v]).map (·.evaluate g)⟩ := by
  have hfails : ((f.withExpected v).evaluate g).passed = false :=
    beq_eq_false_iff_ne.2 hv.symm
  exact verify_of_failing hP hbefore hfails after

/-- The queries are those of the facts as they were, for a pinned value is not asked for. -/
theorem queries_repinned_of_ne (hP : P.Steady g)
    (hbefore : ∀ u ∈ before, (u.evaluate g).passed) (hv : v ≠ g f.source) (after : List Fact) :
    (verify (before ++ f.withExpected v :: after) P).1.queries =
      (before ++ [f]).map (·.source) := by
  unfold Verification.queries
  rw [verify_repinned_of_ne hP hbefore hv after, List.map_map, List.map_append, List.map_append]
  rfl

/-- A fact that pins the answer is evaluated with those before it, and the check goes on. -/
theorem verify_repinned_of_eq (hP : P.Steady g) (hbefore : ∀ u ∈ before, (u.evaluate g).passed)
    (hv : v = g f.source) (after : List Fact) :
    (∀ u ∈ after, (u.evaluate g).passed) ∧
        (verify (before ++ f.withExpected v :: after) P).1 =
          ⟨.passed, (before ++ f.withExpected v :: after).map (·.evaluate g)⟩ ∨
      ∃ between u rest, after = between ++ u :: rest ∧ (∀ w ∈ between, (w.evaluate g).passed) ∧
        (u.evaluate g).passed = false ∧
        (verify (before ++ f.withExpected v :: after) P).1 =
          ⟨.failed (.ofFact u (g u.source)),
            (before ++ f.withExpected v :: between ++ [u]).map (·.evaluate g)⟩ := by
  have hholds : ((f.withExpected v).evaluate g).passed := beq_iff_eq.2 hv.symm
  have hfront : ∀ {fs : List Fact}, (∀ u ∈ fs, (u.evaluate g).passed) →
      ∀ u ∈ before ++ f.withExpected v :: fs, (u.evaluate g).passed := fun hfs =>
    List.forall_mem_append.2 ⟨hbefore, List.forall_mem_cons.2 ⟨hholds, hfs⟩⟩
  rcases all_holding_or_failing g after with h | ⟨between, u, rest, rfl, hbetween, hu⟩
  · exact .inl ⟨h, verify_of_all_holding hP (hfront h)⟩
  · refine .inr ⟨between, u, rest, rfl, hbetween, hu, ?_⟩
    have hrun := verify_of_failing hP (hfront hbetween) hu rest
    rwa [List.append_assoc, List.cons_append] at hrun

theorem getElem?_map_evaluate (before : List Fact) (f : Fact) (after : List Fact) :
    ((before ++ f :: after).map (·.evaluate g))[before.length]? = some (f.evaluate g) := by
  rw [List.getElem?_map, List.getElem?_append_right (Nat.le_refl _), Nat.sub_self]
  rfl

end Repinned

/-- What is reported at a place has the kind of the fact there. -/
theorem kind_reported {facts : List Fact} {P : Platform σ} {i : Nat} {f : Fact} {e : Evaluation}
    (hf : facts[i]? = some f) (he : (verify facts P).1.evaluated[i]? = some e) :
    e.report.kind = f.kind := by
  have hfact := (getElem?_verify_evaluated he).1
  rw [hf, Option.some.injEq] at hfact
  rw [hfact]
  rfl

/-- The fact at a place of a list, with those before it and those after it. -/
theorem split_at_fact {facts : List Fact} {i : Nat} {f : Fact} (hf : facts[i]? = some f) :
    (facts.take i).length = i ∧ facts = facts.take i ++ f :: facts.drop (i + 1) := by
  obtain ⟨hi, rfl⟩ := List.getElem?_eq_some_iff.1 hf
  refine ⟨List.length_take_of_le hi.le, ?_⟩
  rw [List.cons_getElem_drop_succ, List.take_append_drop]

theorem modify_at_fact {facts : List Fact} {i : Nat} {f : Fact} (hf : facts[i]? = some f)
    (v : Int64) : facts.modify i (·.withExpected v) =
      facts.take i ++ f.withExpected v :: facts.drop (i + 1) := by
  obtain ⟨hi, rfl⟩ := List.getElem?_eq_some_iff.1 hf
  exact List.modify_eq_take_cons_drop hi

/-- A check after the fact at one place was made to pin another value. If a fact before it fails,
the check is the one that it was. If those before it hold, the check fails at this fact when the
value is not the answer, and when it is, this fact holds and the first failure behind it is the
outcome. In no case is another kind reported for the fact. -/
theorem verify_repinned (hP : P.Steady g) {facts : List Fact} {i : Nat} {f : Fact}
    (hf : facts[i]? = some f) (v : Int64) :
    let old := verify facts P
    let new := verify (facts.modify i (·.withExpected v)) P
    ((∃ u ∈ facts.take i, u.holds (g u.source) = false) → new = old) ∧
    ((∀ u ∈ facts.take i, u.holds (g u.source) = true) →
      (v ≠ g f.source →
        new.1.outcome = .failed ⟨f.name, v, g f.source⟩ ∧
        new.1.evaluated.length = i + 1 ∧
        i ≤ old.1.evaluated.length ∧
        new.1.evaluated.take i = old.1.evaluated.take i ∧
        new.2.asked = P.asked ++ (facts.take (i + 1)).map (·.source) ∧
        new.2.asked.length = P.asked.length + (i + 1)) ∧
      (v = g f.source →
        new.1.evaluated[i]? = some ⟨f.withExpected v, g f.source⟩ ∧
        (f.withExpected v).holds (g f.source) = true ∧
        ((∀ u ∈ facts.drop (i + 1), u.holds (g u.source) = true) ∧ new.1.outcome = .passed ∨
          ∃ between u rest, facts.drop (i + 1) = between ++ u :: rest ∧
            (∀ w ∈ between, w.holds (g w.source) = true) ∧ u.holds (g u.source) = false ∧
            new.1.outcome = .failed ⟨u.name, u.expected, g u.source⟩ ∧
            new.1.evaluated.length = i + 1 + between.length + 1))) ∧
    (∀ e, new.1.evaluated[i]? = some e → e.report.kind = f.kind) ∧
    ∀ e, old.1.evaluated[i]? = some e → e.report.kind = f.kind := by
  intro old new
  obtain ⟨hlen, hsplit⟩ := split_at_fact hf
  have hold : old = verify (facts.take i ++ f :: facts.drop (i + 1)) P := by rw [← hsplit]
  have hnew : new = verify (facts.take i ++ f.withExpected v :: facts.drop (i + 1)) P := by
    rw [← modify_at_fact hf]
  refine ⟨fun h => ?_, fun hbefore => ⟨fun hv => ?_, fun hv => ?_⟩, fun e he => ?_, fun e he => ?_⟩
  · rw [hold, hnew, verify_append_of_not_holding hP h, verify_append_of_not_holding hP h]
  · have hrun := verify_repinned_of_ne hP hbefore hv (facts.drop (i + 1))
    have htake := take_evaluated hP hbefore (f :: facts.drop (i + 1))
    have hasked := asked_verify (facts.take i ++ f.withExpected v :: facts.drop (i + 1)) P
    rw [queries_repinned_of_ne hP hbefore hv] at hasked
    rw [← hnew] at hrun hasked
    rw [← hold, hlen] at htake
    rw [List.take_add_one, hf, Option.toList_some]
    refine ⟨by rw [hrun], ?_, ?_, ?_, hasked, ?_⟩
    · rw [hrun, List.length_map, List.length_append, hlen, List.length_singleton]
    · have hcount := congrArg List.length htake
      rw [List.length_take, List.length_map, hlen] at hcount
      omega
    · rw [hrun, htake, List.map_append]
      exact List.take_left' (by rw [List.length_map, hlen])
    · rw [hasked, List.length_append, List.length_map, List.length_append, hlen,
        List.length_singleton]
  · have hholds : (f.withExpected v).holds (g f.source) = true := beq_iff_eq.2 hv.symm
    have hat := getElem?_map_evaluate (g := g) (facts.take i) (f.withExpected v)
    rw [hlen] at hat
    rcases verify_repinned_of_eq hP hbefore hv (facts.drop (i + 1)) with
      ⟨hall, hrun⟩ | ⟨between, u, rest, hrest, hbetween, hu, hrun⟩ <;> rw [← hnew] at hrun
    · exact ⟨by rw [hrun]; exact hat _, hholds, .inl ⟨hall, by rw [hrun]⟩⟩
    · refine ⟨?_, hholds, .inr ⟨between, u, rest, hrest, hbetween, hu, by rw [hrun]; rfl, ?_⟩⟩
      · rw [hrun, List.append_assoc, List.cons_append]
        exact hat _
      · rw [hrun]
        simp only [List.length_map, List.length_append, List.length_cons, List.length_nil, hlen]
        omega
  · refine kind_reported (f := f.withExpected v) ?_ he
    rw [List.getElem?_modify, hf]
    simp
  · exact kind_reported hf he

/-- The answers that the pinned facts expect. -/
def pinnedAnswer (q : Query) : Int64 := (pinnedValue? q).getD 0

/-- The pinned fact with the largest size. -/
def statFact : Fact := ⟨"size of struct stat", 144, .sizeOfStat, .extended⟩

/-- A size pinned one too high fails at its fact, after the four before it. -/
theorem statFact_repinned : (Platform.fixed pinnedAnswer).Steady pinnedAnswer ∧
    pinnedFacts[4]? = some statFact ∧
    (∀ u ∈ pinnedFacts.take 4, u.holds (pinnedAnswer u.source) = true) ∧
    (verify (pinnedFacts.modify 4 (·.withExpected 145)) (.fixed pinnedAnswer)).1.outcome =
      .failed ⟨"size of struct stat", 145, 144⟩ ∧
    (verify (pinnedFacts.modify 4 (·.withExpected 145))
      (.fixed pinnedAnswer)).1.evaluated.length = 5 := by
  have hsteady : (Platform.fixed pinnedAnswer).Steady pinnedAnswer := fun _ _ => rfl
  have hfact : pinnedFacts[4]? = some statFact := rfl
  have hbefore : ∀ u ∈ pinnedFacts.take 4, u.holds (pinnedAnswer u.source) = true := by decide
  obtain ⟨hne, -⟩ := (verify_repinned hsteady hfact 145).2.1 hbefore
  obtain ⟨houtcome, hlength, -⟩ := hne (by decide)
  exact ⟨hsteady, hfact, hbefore, houtcome, hlength⟩

end HostAbi

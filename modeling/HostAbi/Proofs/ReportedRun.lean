import HostAbi.Proofs.Consistency
import HostAbi.Proofs.FindingLines

/-!
# The report on a run

A check either passes with all facts or fails at the last of those it got to (`verify_ends`). Its
report shows that several times: in the entries for the facts, in the conclusion, in the text and in
the trace. They agree on every run, as each of them comes from the one verification
(`report_agrees`).
-/

namespace HostAbi

variable {σ : Type}

/-! ## The two ways a run ends -/

/-- The verifications that a check of some number of facts can end with. -/
inductive Verification.Ends (total : Nat) : Verification → Prop where
  | passed {es : List Evaluation} : (∀ e ∈ es, e.passed) → es.length = total →
      Ends total ⟨.passed, es⟩
  | failed {es : List Evaluation} {e : Evaluation} : (∀ x ∈ es, x.passed) → e.passed = false →
      es.length < total → Ends total ⟨.failed (.ofFact e.fact e.actual), es ++ [e]⟩

namespace Walk.Consistent

variable {facts done : List Fact} {P : Platform σ} {w : Walk σ}

theorem length_eq (h : w.Consistent facts P done) :
    facts.length = w.evaluated.length + w.pending.length := by
  rw [h.evaluated, length_evaluations (P.length_answers done), h.facts_eq, List.length_append]

/-- What has been learnt of a place in the list is the fact there and the answer to it. -/
theorem getElem?_evaluated (h : w.Consistent facts P done) {i : Nat} {e : Evaluation}
    (he : w.evaluated[i]? = some e) :
    facts[i]? = some e.fact ∧ (P.answers facts)[i]? = some e.actual := by
  rw [h.evaluated, evaluations, List.getElem?_zipWith_eq_some] at he
  obtain ⟨f, a, hf, ha, rfl⟩ := he
  have hi : i < done.length := (List.getElem?_eq_some_iff.1 hf).1
  have hi' : i < (P.answers done).length := by rwa [P.length_answers]
  rw [h.facts_eq, P.answers_append, List.getElem?_append_left hi, List.getElem?_append_left hi']
  exact ⟨hf, ha⟩

theorem ends (h : w.Consistent facts P done) {o : Outcome} (ho : w.phase.outcome? = some o) :
    Verification.Ends facts.length ⟨o, w.evaluated⟩ := by
  have hlength := h.length_eq
  obtain ⟨-, -, -, hbefore, hphase⟩ := h
  rcases hp : w.phase with _ | _ | _ | m <;> rw [hp] at ho hphase <;> cases ho
  · obtain ⟨hall, hnone⟩ := hphase
    rw [hnone, List.length_nil, Nat.add_zero] at hlength
    exact .passed hall hlength.symm
  · obtain ⟨e, hlast, he, rfl⟩ := hphase
    have hsplit : w.evaluated = w.evaluated.dropLast ++ [e] :=
      (List.dropLast_append_getLast? e hlast).symm
    rw [hsplit] at hlength ⊢
    refine .failed hbefore he ?_
    rw [List.length_append, List.length_singleton] at hlength
    omega

end Walk.Consistent

theorem verify_ends (facts : List Fact) (P : Platform σ) :
    (verify facts P).1.Ends facts.length := by
  obtain ⟨_, w, hw, ho, hes⟩ := (Walk.consistent_start facts P).run
  have hends := hw.ends ho
  rwa [hes] at hends

theorem getElem?_verify_evaluated {facts : List Fact} {P : Platform σ} {i : Nat} {e : Evaluation}
    (h : (verify facts P).1.evaluated[i]? = some e) :
    facts[i]? = some e.fact ∧ (P.answers facts)[i]? = some e.actual := by
  obtain ⟨_, w, hw, -, hes⟩ := (Walk.consistent_start facts P).run
  exact hw.getElem?_evaluated (hes ▸ h)

/-! ## Entries, conclusion and text -/

/-- An entry of a report is a fact of the list with the answer to it. -/
theorem getElem?_report_evaluated {facts : List Fact} {P : Platform σ} {tool : Tool}
    {target : Target} {profile : Profile} {total i : Nat} {e : EvaluatedFact}
    (h : ((verify facts P).1.report tool target profile total).evaluated[i]? = some e) :
    ∃ (f : Fact) (a : Int64), facts[i]? = some f ∧ (verify facts P).1.evaluated[i]? = some ⟨f, a⟩ ∧
      (P.answers facts)[i]? = some a ∧ e = ⟨f.name, f.kind, f.expected, a, a == f.expected⟩ := by
  obtain ⟨x, hx, rfl⟩ := Option.map_eq_some_iff.1 (List.getElem?_map.symm.trans h)
  obtain ⟨hf, ha⟩ := getElem?_verify_evaluated hx
  exact ⟨x.fact, x.actual, hf, hx, ha, rfl⟩

namespace Verification

variable {total : Nat} {V : Verification} (tool : Tool) (target : Target) (profile : Profile)

theorem Ends.length_le (h : V.Ends total) : V.evaluated.length ≤ total := by
  cases h with
  | passed _ hlen => exact Nat.le_of_eq hlen
  | failed _ _ hlen => simpa using hlen

theorem text_report : (V.report tool target profile total).text =
    unlines (V.outcome.mismatch?.map (·.factName)).toList := rfl

/-- What a report says all at once if the run passed, and in no part of it otherwise. -/
theorem Ends.passed_iff (h : V.Ends total) :
    let r := V.report tool target profile total
    (r.conclusion.status = .passed ↔ r.conclusion.failure = none) ∧
      (r.conclusion.status = .passed ↔ r.conclusion.exitCode = 0) ∧
      (r.conclusion.status = .passed ↔ r.text = "") ∧
      (r.conclusion.status = .passed ↔
        (∀ e ∈ r.evaluated, e.passed = true) ∧ r.evaluated.length = r.factsTotal) := by
  intro r
  rw [text_report, unlines_eq_empty]
  cases h with
  | @passed es hall hlen =>
    have hentries : ∀ e ∈ r.evaluated, e.passed = true := List.forall_mem_map.2 hall
    have hlength : r.evaluated.length = r.factsTotal := (List.length_map _).trans hlen
    exact ⟨iff_of_true rfl rfl, iff_of_true rfl rfl, iff_of_true rfl rfl,
      iff_of_true rfl ⟨hentries, hlength⟩⟩
  | @failed es e hall he hlen =>
    have hstatus : r.conclusion.status ≠ .passed := nofun
    have hexit : r.conclusion.exitCode ≠ 0 := show (1 : Int32) ≠ 0 by decide
    have hentries : ¬∀ e ∈ r.evaluated, e.passed = true := by
      intro hentries
      have hlast : e.passed = true := hentries e.report (List.mem_map_of_mem (by simp))
      rw [he] at hlast
      cases hlast
    exact ⟨iff_of_false hstatus nofun, iff_of_false hstatus hexit,
      iff_of_false hstatus nofun, iff_of_false hstatus fun hboth => hentries hboth.1⟩

/-- What a report says of a run that failed: the last of its entries, and no other, did not pass,
and that is the one that the conclusion and the text name. -/
theorem Ends.of_failed (h : V.Ends total) :
    let r := V.report tool target profile total
    r.conclusion.status = .failed → r.conclusion.exitCode = 1 ∧ ∃ es e,
      r.evaluated = es ++ [e] ∧ (∀ x ∈ es, x.passed = true) ∧ e.passed = false ∧
        r.conclusion.failure = some ⟨e.name, e.expected, e.actual⟩ ∧ r.text = e.name ++ "\n" := by
  intro r hstatus
  cases h with
  | passed => cases hstatus
  | @failed es e hall he _ =>
    refine ⟨rfl, es.map Evaluation.report, e.report, List.map_append, List.forall_mem_map.2 hall,
      he, rfl, ?_⟩
    simp [r, text_report, unlines, Outcome.mismatch?, Mismatch.ofFact, Evaluation.report]

/-- An entry did not pass exactly if it is the last one of a run that failed. -/
theorem Ends.entry_failed_iff (h : V.Ends total) {i : Nat} {e : EvaluatedFact} :
    let r := V.report tool target profile total
    r.evaluated[i]? = some e →
      (e.passed = false ↔ r.conclusion.status = .failed ∧ i + 1 = r.evaluated.length) := by
  intro r he
  rcases hstatus : r.conclusion.status with _ | _
  · obtain ⟨hall, -⟩ := (h.passed_iff tool target profile).2.2.2.1 hstatus
    have hpassed := hall e (List.mem_of_getElem? he)
    exact iff_of_false (by simp [hpassed]) (by simp)
  · obtain ⟨-, es, last, hsplit, hall, hlast, -⟩ := h.of_failed tool target profile hstatus
    have hlength : r.evaluated.length = es.length + 1 := by rw [hsplit, List.length_append]; rfl
    rw [hsplit] at he
    rcases Nat.lt_or_ge i es.length with hi | hi
    · rw [List.getElem?_append_left hi] at he
      have hpassed := hall e (List.mem_of_getElem? he)
      exact iff_of_false (by simp [hpassed]) (by omega)
    · rw [List.getElem?_append_right hi, List.getElem?_singleton] at he
      split at he <;> cases he
      exact iff_of_true hlast ⟨rfl, by omega⟩

end Verification

/-! ## The trace -/

/-- Whether a line of a trace marks its fact as one that failed. -/
def MarkedFailed (l : String) : Prop := "  FAIL  ".toList <+: l.toList

theorem oneLine_repr (n : Nat) : OneLine n.repr := by
  intro h
  rw [Nat.toList_repr] at h
  exact absurd (Nat.isDigit_of_mem_toDigits (by decide) (by decide) h) (by decide)

theorem oneLine_intRepr (n : Int) : OneLine n.repr := by
  cases n with
  | ofNat n => exact oneLine_repr n
  | negSucc n => exact oneLine_append.2 ⟨by decide, oneLine_repr (n + 1)⟩

namespace EvaluatedFact

variable {e : EvaluatedFact}

theorem line_of_passed (h : e.passed = true) :
    e.line = "  ok    " ++ e.name ++ " = " ++ e.actual.toInt.repr := if_pos h

theorem line_of_failed (h : e.passed = false) :
    e.line = "  FAIL  " ++ e.name ++ ": expected " ++ e.expected.toInt.repr ++ ", found "
      ++ e.actual.toInt.repr := by
  rw [line, if_neg (by simp [h]), Mismatch.message]
  simp only [String.append_assoc]

theorem markedFailed_line : MarkedFailed e.line ↔ e.passed = false := by
  unfold MarkedFailed
  rcases h : e.passed with _ | _
  · rw [line_of_failed h]
    simp
  · rw [line_of_passed h]
    simp

theorem oneLine_line (h : OneLine e.name) : OneLine e.line := by
  have hok : OneLine "  ok    " := by decide
  have heq : OneLine " = " := by decide
  have hfail : OneLine "  FAIL  " := by decide
  have hexpected : OneLine ": expected " := by decide
  have hfound : OneLine ", found " := by decide
  rcases hp : e.passed with _ | _
  · simp only [line_of_failed hp, oneLine_append, oneLine_intRepr, h, hfail, hexpected, hfound,
      and_self]
  · simp only [line_of_passed hp, oneLine_append, oneLine_intRepr, h, hok, heq, and_self]

end EvaluatedFact

namespace Report

theorem oneLine_openingLine {r : Report} : OneLine r.openingLine ↔
    OneLine r.tool.name ∧ OneLine r.tool.version ∧ OneLine r.target.arch ∧ OneLine r.target.os := by
  have hprofile : OneLine r.profile.name := by cases r.profile <;> decide
  have hblank : OneLine " " := by decide
  have hcolon : OneLine ": " := by decide
  have hon : OneLine " profile on " := by decide
  have hdash : OneLine "-" := by decide
  have hopen : OneLine " (" := by decide
  have hfacts : OneLine " facts)" := by decide
  simp only [openingLine, oneLine_append, oneLine_repr, hprofile, hblank, hcolon, hon, hdash, hopen,
    hfacts, and_true, and_assoc]

theorem oneLine_closingLine (r : Report) : OneLine r.closingLine := by
  have hstatus : OneLine r.conclusion.status.name := by cases r.conclusion.status <;> decide
  have hopen : OneLine " (" := by decide
  have hslash : OneLine "/" := by decide
  have hchecked : OneLine " checked)" := by decide
  simp only [closingLine, oneLine_append, oneLine_repr, hstatus, hopen, hslash, hchecked, and_self]

theorem hasLines_trace {r : Report} (hopening : OneLine r.openingLine)
    (hnames : ∀ e ∈ r.evaluated, OneLine e.name) : HasLines r.trace r.traceLines where
  text_eq := rfl
  oneLine := by
    have hentries : ∀ l ∈ r.evaluated.map (·.line), OneLine l :=
      List.forall_mem_map.2 fun e he => EvaluatedFact.oneLine_line (hnames e he)
    have hclosing : ∀ l ∈ [r.closingLine], OneLine l :=
      List.forall_mem_singleton.2 r.oneLine_closingLine
    exact List.forall_mem_append.2 ⟨List.forall_mem_cons.2 ⟨hopening, hentries⟩, hclosing⟩

theorem length_traceLines (r : Report) : r.traceLines.length = r.evaluated.length + 2 := by
  simp [traceLines]

theorem getElem?_traceLines {r : Report} {i : Nat} {e : EvaluatedFact}
    (h : r.evaluated[i]? = some e) : r.traceLines[i + 1]? = some e.line := by
  have hi : i < r.evaluated.length := (List.getElem?_eq_some_iff.1 h).1
  have hmap : i < (r.evaluated.map (·.line)).length := by rwa [List.length_map]
  rw [traceLines, List.cons_append, List.getElem?_cons_succ, List.getElem?_append_left hmap,
    List.getElem?_map, h, Option.map_some]

end Report

/-- A report shows the run that it reports. Its entries are the first facts with the answers to
them. Either it says all over that the run passed, or it says all over that the run failed at the
last entry. And if no name in it has a line end, its trace is a line for each entry between two
others, with the failed entry marked. -/
theorem report_agrees (facts : List Fact) (P : Platform σ) (tool : Tool) (target : Target)
    (profile : Profile) :
    let V := (verify facts P).1
    let r := V.report tool target profile facts.length
    (r.factsTotal = facts.length ∧ r.evaluated.length ≤ r.factsTotal ∧
      r.evaluated.length = V.evaluated.length ∧
      ∀ (i : Nat) (e : EvaluatedFact), r.evaluated[i]? = some e →
        ∃ (f : Fact) (a : Int64), facts[i]? = some f ∧ V.evaluated[i]? = some ⟨f, a⟩ ∧
          (P.answers facts)[i]? = some a ∧
          e = ⟨f.name, f.kind, f.expected, a, a == f.expected⟩) ∧
    ((r.conclusion.status = .passed ↔ r.conclusion.failure = none) ∧
      (r.conclusion.status = .passed ↔ r.conclusion.exitCode = 0) ∧
      (r.conclusion.status = .passed ↔ r.text = "") ∧
      (r.conclusion.status = .passed ↔
        (∀ e ∈ r.evaluated, e.passed = true) ∧ r.evaluated.length = r.factsTotal)) ∧
    (r.conclusion.status ≠ .passed → r.conclusion.status = .failed ∧ r.conclusion.exitCode = 1 ∧
      ∃ es e, r.evaluated = es ++ [e] ∧ (∀ x ∈ es, x.passed = true) ∧ e.passed = false ∧
        r.conclusion.failure = some ⟨e.name, e.expected, e.actual⟩ ∧ r.text = e.name ++ "\n") ∧
    (OneLine tool.name → OneLine tool.version → OneLine target.arch → OneLine target.os →
      (∀ f ∈ facts, OneLine f.name) →
      ∃ ls, HasLines r.trace ls ∧ ls.length = r.evaluated.length + 2 ∧
        ∀ (i : Nat) (e : EvaluatedFact), r.evaluated[i]? = some e → ∃ l, ls[i + 1]? = some l ∧
          (e.passed = true → l = "  ok    " ++ e.name ++ " = " ++ e.actual.toInt.repr) ∧
          (e.passed = false → l = "  FAIL  " ++ e.name ++ ": expected " ++ e.expected.toInt.repr
            ++ ", found " ++ e.actual.toInt.repr) ∧
          (MarkedFailed l ↔ r.conclusion.status = .failed ∧ i + 1 = r.evaluated.length)) := by
  intro V r
  have hends : V.Ends facts.length := verify_ends facts P
  refine ⟨⟨rfl, ?_, List.length_map _, fun i e => getElem?_report_evaluated⟩,
    hends.passed_iff tool target profile, fun hstatus => ?_,
    fun hname hversion harch hos hfacts => ?_⟩
  · exact (List.length_map _).trans_le hends.length_le
  · have hfailed : r.conclusion.status = .failed := by
      rcases h : r.conclusion.status with _ | _
      · exact absurd h hstatus
      · rfl
    exact ⟨hfailed, hends.of_failed tool target profile hfailed⟩
  · have hopening : OneLine r.openingLine :=
      Report.oneLine_openingLine.2 ⟨hname, hversion, harch, hos⟩
    have hnames : ∀ e ∈ r.evaluated, OneLine e.name := by
      intro e he
      obtain ⟨i, hi⟩ := List.mem_iff_getElem?.1 he
      obtain ⟨f, a, hf, -, -, rfl⟩ := getElem?_report_evaluated hi
      exact hfacts f (List.mem_of_getElem? hf)
    refine ⟨r.traceLines, Report.hasLines_trace hopening hnames, r.length_traceLines,
      fun i e he => ⟨e.line, Report.getElem?_traceLines he, EvaluatedFact.line_of_passed,
        EvaluatedFact.line_of_failed, ?_⟩⟩
    rw [EvaluatedFact.markedFailed_line]
    exact hends.entry_failed_iff tool target profile he

/-- What a platform that drifts is found to answer. -/
def driftedVerification : Verification :=
  ⟨.failed ⟨"two", 4, 8⟩, [⟨⟨"one", 4, .sizeOfLong, .minimal⟩, 4⟩,
    ⟨⟨"two", 4, .sizeOfLong, .minimal⟩, 8⟩]⟩

theorem driftedVerification_reported :
    (verify repeatedFacts driftingPlatform).1 = driftedVerification ∧
      (∀ f ∈ repeatedFacts, OneLine f.name) ∧
      let r := driftedVerification.report commandTool .linux64 .minimal repeatedFacts.length
      r.conclusion.exitCode = 1 ∧ (∃ e, r.evaluated.getLast? = some e ∧ r.text = e.name ++ "\n") ∧
        ∃ ls, HasLines r.trace ls ∧ ls.length = 4 ∧
          ls[2]? = some "  FAIL  two: expected 4, found 8" := by
  have hrun : (verify repeatedFacts driftingPlatform).1 = driftedVerification := by
    rw [repeatedFacts, verify_cons_of_eq (by decide), verify_cons_of_ne (by decide)]
    rfl
  have hnames : ∀ f ∈ repeatedFacts, OneLine f.name := by decide
  have h := report_agrees repeatedFacts driftingPlatform commandTool .linux64 .minimal
  rw [hrun] at h
  obtain ⟨-, -, hfailed, htrace⟩ := h
  obtain ⟨-, hexit, es, e, hes, -, -, -, htext⟩ := hfailed nofun
  obtain ⟨ls, hls, hlength, hline⟩ :=
    htrace (by decide) (by decide) (by decide) (by decide) hnames
  obtain ⟨l, hl, -, hfail, -⟩ := hline 1 _ rfl
  have hline : l = "  FAIL  two: expected 4, found 8" := (hfail rfl).trans (by decide +kernel)
  have hentry := (congrArg List.getLast? hes).trans List.getLast?_concat
  exact ⟨hrun, hnames, hexit, ⟨e, hentry, htext⟩, ls, hls, hlength, hline ▸ hl⟩

end HostAbi

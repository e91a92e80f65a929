import HostAbi.Proofs.FirstFailure

/-!
# Walks in every state they can be in

Whatever a walk is called to do, it is done with some of the facts, in order, and has learnt the
answers to these and no others. Its phase can be read off what it has learnt, and a walk that has
ended does not change any more (`calls_consistent`).
-/

namespace HostAbi

variable {σ : Type}

/-- What a walk can be called to do. Only a step changes it. -/
inductive Call where
  | step
  | state
  | evaluated
  deriving DecidableEq

namespace Walk

def call (w : Walk σ) : Call → Walk σ
  | .step => w.step
  | .state | .evaluated => w

/-- A walk after some calls, one after the other. -/
def calls (w : Walk σ) (cs : List Call) : Walk σ := cs.foldl call w

theorem calls_cons (w : Walk σ) (c : Call) (cs : List Call) :
    w.calls (c :: cs) = (w.call c).calls cs := rfl

theorem calls_of_ended {w : Walk σ} {o : Outcome} (h : w.phase.outcome? = some o) :
    ∀ cs : List Call, w.calls cs = w
  | [] => rfl
  | .step :: cs => by
    rw [calls_cons, call, step_of_ended h]
    exact calls_of_ended h cs
  | .state :: cs | .evaluated :: cs => calls_of_ended h cs

end Walk

/-- Whether a walk can be in a phase with these evaluations and these facts still to come. -/
def Phase.Fits (es : List Evaluation) (pending : List Fact) : Phase → Prop
  | .notStarted => es = []
  | .running => (∀ e ∈ es, e.passed) ∧ es ≠ [] ∧ pending ≠ []
  | .passed => (∀ e ∈ es, e.passed) ∧ pending = []
  | .failed m => ∃ e, es.getLast? = some e ∧ e.passed = false ∧ m = .ofFact e.fact e.actual

namespace Phase

variable {es : List Evaluation} {pending : List Fact} {p : Phase}

theorem Fits.all_passed (h : p.Fits es pending) (hp : p.outcome? = none) :
    ∀ e ∈ es, e.passed := by
  cases p with
  | notStarted =>
    obtain rfl : es = [] := h
    simp
  | running => exact h.1
  | passed => cases hp
  | failed m => cases hp

theorem not_all_passed {e : Evaluation} (hlast : es.getLast? = some e) (he : e.passed = false) :
    ¬∀ e ∈ es, e.passed := by
  intro h
  rw [h e (List.mem_of_getLast? hlast)] at he
  cases he

section Started

variable {started : Prop}

theorem Fits.eq_running_iff (h : p.Fits es pending) (hp : p = .notStarted ↔ ¬started) :
    p = .running ↔ started ∧ (∀ e ∈ es, e.passed) ∧ es ≠ [] ∧ pending ≠ [] := by
  cases p with
  | notStarted => exact iff_of_false (by simp) fun h' => hp.1 rfl h'.1
  | running =>
    have hstarted : started := Classical.not_not.1 fun hs => by cases hp.2 hs
    exact iff_of_true rfl ⟨hstarted, h⟩
  | passed => exact iff_of_false (by simp) fun h' => h'.2.2.2 h.2
  | failed m =>
    obtain ⟨e, hlast, he, -⟩ := h
    exact iff_of_false (by simp) fun h' => not_all_passed hlast he h'.2.1

theorem Fits.eq_passed_iff (h : p.Fits es pending) (hp : p = .notStarted ↔ ¬started) :
    p = .passed ↔ started ∧ (∀ e ∈ es, e.passed) ∧ pending = [] := by
  cases p with
  | notStarted => exact iff_of_false (by simp) fun h' => hp.1 rfl h'.1
  | running => exact iff_of_false (by simp) fun h' => h.2.2 h'.2.2
  | passed =>
    have hstarted : started := Classical.not_not.1 fun hs => by cases hp.2 hs
    exact iff_of_true rfl ⟨hstarted, h⟩
  | failed m =>
    obtain ⟨e, hlast, he, -⟩ := h
    exact iff_of_false (by simp) fun h' => not_all_passed hlast he h'.2.1

end Started

theorem Fits.eq_failed_iff (h : p.Fits es pending) (m : Mismatch) :
    p = .failed m ↔
      ∃ e, es.getLast? = some e ∧ e.passed = false ∧ m = .ofFact e.fact e.actual := by
  cases p with
  | notStarted =>
    obtain rfl : es = [] := h
    simp
  | running => exact iff_of_false (by simp) fun ⟨_, hlast, he, _⟩ => not_all_passed hlast he h.1
  | passed => exact iff_of_false (by simp) fun ⟨_, hlast, he, _⟩ => not_all_passed hlast he h.1
  | failed m' =>
    obtain ⟨e, hlast, he, rfl⟩ := h
    constructor
    · intro heq
      exact ⟨e, hlast, he, (Phase.failed.inj heq).symm⟩
    · rintro ⟨e', hlast', -, rfl⟩
      obtain rfl : e = e' := Option.some.inj (hlast.symm.trans hlast')
      rfl

end Phase

namespace Walk

/-- What holds of a walk over some facts that has done with the first of them: it has asked about
those and no others, and each of them held unless it is the last. -/
structure Consistent (facts : List Fact) (P : Platform σ) (done : List Fact) (w : Walk σ) :
    Prop where
  facts_eq : facts = done ++ w.pending
  evaluated : w.evaluated = evaluations done (P.answers done)
  platform : w.platform = P.afterFacts done
  before : ∀ e ∈ w.evaluated.dropLast, e.passed
  phase : w.phase.Fits w.evaluated w.pending

variable {facts done : List Fact} {P : Platform σ} {w : Walk σ}

theorem consistent_start (facts : List Fact) (P : Platform σ) :
    (start facts P).Consistent facts P [] where
  facts_eq := rfl
  evaluated := rfl
  platform := rfl
  before := by simp [start]
  phase := rfl

theorem fits_phaseAfter {es : List Evaluation} (hes : ∀ e ∈ es, e.passed) (f : Fact) (a : Int64)
    (fs : List Fact) : (phaseAfter ⟨f, a⟩ fs).Fits (es ++ [⟨f, a⟩]) fs := by
  by_cases ha : a = f.expected
  · have hall : ∀ e ∈ es ++ [⟨f, a⟩], e.passed := by
      intro e he
      rcases List.mem_append.1 he with he | he
      · exact hes e he
      · obtain rfl := List.mem_singleton.1 he
        simp [Evaluation.passed, Fact.holds, ha]
    cases fs with
    | nil =>
      rw [phaseAfter_nil ha]
      exact ⟨hall, rfl⟩
    | cons g gs =>
      rw [phaseAfter_cons ha]
      exact ⟨hall, by simp, by simp⟩
  · rw [phaseAfter_of_ne ha]
    exact ⟨_, List.getLast?_concat, by simp [Evaluation.passed, Fact.holds, ha], rfl⟩

/-- A step of a walk that has not ended either ends it, as there is nothing left, or has done with
one fact more. -/
theorem Consistent.step (h : w.Consistent facts P done) :
    ∃ done', w.step.Consistent facts P done' := by
  rcases w with ⟨pending, Q, p, es⟩
  obtain ⟨hfacts, hes, hQ, hbefore, hphase⟩ := h
  dsimp only at hfacts hes hQ hbefore hphase
  rcases hp : p.outcome? with _ | o
  · -- a walk that goes on has had no fact that did not hold
    have hall := hphase.all_passed hp
    cases pending with
    | nil =>
      rw [step_nil hp]
      exact ⟨done, hfacts, hes, hQ, hbefore, hall, rfl⟩
    | cons f fs =>
      rw [step_cons hp]
      -- the answer is the one that the platform gives after the facts that are done with
      refine ⟨done ++ [f], by simp [hfacts], ?_, ?_, ?_, fits_phaseAfter hall _ _ _⟩
      · rw [P.answers_append, evaluations_append (P.length_answers done), ← hes, ← hQ]
        rfl
      · rw [P.afterFacts_append, ← hQ]
        rfl
      · simpa using hall
  · rw [step_of_ended (w := ⟨pending, Q, p, es⟩) hp]
    exact ⟨done, hfacts, hes, hQ, hbefore, hphase⟩

theorem Consistent.calls : ∀ (cs : List Call) {w : Walk σ} {done : List Fact},
    w.Consistent facts P done → ∃ done', (w.calls cs).Consistent facts P done'
  | [], _, _, h => ⟨_, h⟩
  | .step :: cs, _, _, h =>
    have ⟨_, h'⟩ := h.step
    h'.calls cs
  | .state :: cs, _, _, h | .evaluated :: cs, _, _, h => h.calls cs

/-- A run ends in a state that a walk over the same facts can be in. -/
theorem Consistent.run (h : w.Consistent facts P done) : ∃ done' w',
    Consistent facts P done' w' ∧ w'.phase.outcome? = some w.run.1.outcome ∧
      w'.evaluated = w.run.1.evaluated := by
  induction w using Walk.run.induct generalizing done with
  | case1 w o hend =>
    rw [run_of_ended hend]
    exact ⟨done, w, h, hend, rfl⟩
  | case2 w hopen _ ih =>
    obtain ⟨done', hstep⟩ := h.step
    rw [run_of_open hopen]
    exact ih hstep

theorem phaseAfter_ne (e : Evaluation) (fs : List Fact) : phaseAfter e fs ≠ .notStarted := by
  unfold phaseAfter
  split
  · simp
  · split <;> simp

theorem phase_step_ne (w : Walk σ) : w.step.phase ≠ .notStarted := by
  rcases w with ⟨pending, Q, p, es⟩
  rcases hp : p.outcome? with _ | o
  · cases pending with
    | nil => simp [step_nil hp]
    | cons f fs =>
      rw [step_cons hp]
      exact phaseAfter_ne _ _
  · rw [step_of_ended (w := ⟨pending, Q, p, es⟩) hp]
    rintro rfl
    cases hp

theorem phase_calls_ne : ∀ (cs : List Call) {w : Walk σ}, w.phase ≠ .notStarted →
    (w.calls cs).phase ≠ .notStarted
  | [], _, h => h
  | .step :: cs, w, _ => phase_calls_ne cs w.phase_step_ne
  | .state :: cs, _, h | .evaluated :: cs, _, h => phase_calls_ne cs h

/-- A walk is not started until it takes a step. -/
theorem phase_calls_eq_notStarted : ∀ (cs : List Call) {w : Walk σ}, w.phase = .notStarted →
    ((w.calls cs).phase = .notStarted ↔ Call.step ∉ cs)
  | [], _, h => by simpa [calls] using h
  | .step :: cs, w, _ => by
    have h := phase_calls_ne cs w.phase_step_ne
    exact iff_of_false h (by simp)
  | .state :: cs, _, h | .evaluated :: cs, _, h =>
    (phase_calls_eq_notStarted cs h).trans (by simp)

end Walk

/-- Whatever a walk is called to do, it has asked about the first facts and nothing else, and its
phase says how that went: whether a step was taken, whether all facts held, and whether any are
left. Once it has ended, nothing changes it. -/
theorem calls_consistent (facts : List Fact) (P : Platform σ) (cs : List Call) :
    let w := (Walk.start facts P).calls cs
    let done := facts.take w.evaluated.length
    w.evaluated = evaluations done (P.answers done) ∧
      w.platform = P.afterFacts done ∧
      w.platform.asked = P.asked ++ done.map (·.source) ∧
      w.platform.asked.length = P.asked.length + w.evaluated.length ∧
      (∀ e ∈ w.evaluated.dropLast, e.passed) ∧
      (w.phase = .notStarted ↔ Call.step ∉ cs) ∧
      (w.phase = .notStarted → w.evaluated = []) ∧
      (w.phase = .running ↔ Call.step ∈ cs ∧ (∀ e ∈ w.evaluated, e.passed) ∧
        0 < w.evaluated.length ∧ w.evaluated.length < facts.length) ∧
      (w.phase = .passed ↔ Call.step ∈ cs ∧ (∀ e ∈ w.evaluated, e.passed) ∧
        w.evaluated.length = facts.length) ∧
      (∀ m, w.phase = .failed m ↔ ∃ e, w.evaluated.getLast? = some e ∧ e.passed = false ∧
        m = .ofFact e.fact e.actual) ∧
      (w.phase.isTerminal → ∀ more : List Call, w.calls more = w) := by
  intro w done
  obtain ⟨done', h⟩ := (Walk.consistent_start facts P).calls cs
  have hstep : w.phase = .notStarted ↔ ¬Call.step ∈ cs := Walk.phase_calls_eq_notStarted cs rfl
  have hlength : w.evaluated.length = done'.length := by
    rw [h.evaluated, length_evaluations (P.length_answers done')]
  have hdone : done = done' := by
    show facts.take w.evaluated.length = done'
    rw [hlength, h.facts_eq, List.take_left]
  have hfacts : facts.length = w.evaluated.length + w.pending.length := by
    rw [hlength, h.facts_eq, List.length_append]
  have hsome : w.evaluated ≠ [] ↔ 0 < w.evaluated.length := List.length_pos_iff.symm
  have hleft : w.pending ≠ [] ↔ w.evaluated.length < facts.length := by
    rw [← List.length_pos_iff]
    omega
  have hnone : w.pending = [] ↔ w.evaluated.length = facts.length := by
    rw [← List.length_eq_zero_iff]
    omega
  have hasked : w.platform.asked = P.asked ++ done.map (·.source) := by
    rw [h.platform, hdone, P.asked_afterFacts]
  refine ⟨hdone ▸ h.evaluated, hdone ▸ h.platform, hasked, ?_, h.before, hstep, ?_, ?_, ?_,
    h.phase.eq_failed_iff, ?_⟩
  · rw [hasked, List.length_append, List.length_map, hdone, hlength]
  · intro hp
    have hfits := h.phase
    rw [hp] at hfits
    exact hfits
  · rw [h.phase.eq_running_iff hstep, hsome, hleft]
  · rw [h.phase.eq_passed_iff hstep, hnone]
  · intro hend more
    obtain ⟨o, ho⟩ := Option.isSome_iff_exists.1 hend
    exact Walk.calls_of_ended ho more

end HostAbi

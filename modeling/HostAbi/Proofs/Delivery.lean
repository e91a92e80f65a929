import HostAbi.Proofs.FileWriting
import HostAbi.Proofs.Startable

/-!
# What a run leaves behind

A run gets its answer first, for which an audit reads its module, and opens the file for the answer
last. So there is nothing to undo when one of the two fails, and a run that is over has changed the
file it was told to write and no other (`runCommand_contained`).
-/

namespace HostAbi

namespace Answer

variable {a : Answer} {t : FileTree} {path : String}

theorem deliver_of_none (h : a.out = none) :
    a.deliver t =
      { code := a.exitCode, stdout := a.document, stderr := a.trace, files := t } := by
  simp only [deliver, h]

theorem deliver_of_target {place : List String} (h : a.out = some path)
    (hplace : t.target path = .ok place) :
    a.deliver t =
      { code := a.exitCode, stderr := a.trace, files := t.put place (Utf8.encode a.document) } := by
  simp only [deliver, h, FileTree.write_of_target hplace]

theorem deliver_of_error {e : OsError} (h : a.out = some path) (he : t.target path = .error e) :
    a.deliver t =
      { code := 1
        stderr := a.trace ++ (FileError.writing path e.message).report
        files := t } := by
  simp only [deliver, h, FileTree.write_of_target_error he]

/-- Delivered or not, an answer ends a run with its own exit code or with one. -/
theorem deliver_code (a : Answer) (t : FileTree) :
    (a.deliver t).code = a.exitCode ∨ (a.deliver t).code = 1 := by
  unfold deliver
  split
  · exact .inl rfl
  · split
    · exact .inl rfl
    · exact .inr rfl

end Answer

namespace Request

/-- The file that a request wants its answer in. -/
def out : Request → Option String
  | .verify v => v.out
  | .audit a => a.out

/-- The answer to a request. For an audit the module has to be read. -/
def answer (r : Request) (t : FileTree) : Except FileError Answer :=
  match r with
  | .verify v => .ok v.answer
  | .audit a =>
    match t.read a.path with
    | .ok bytes => .ok (a.answer bytes)
    | .error e => .error (.reading a.path e.message)

variable {r : Request} {t : FileTree} {a : Answer} {path : String}

theorem answer_eq_ok (h : r.answer t = .ok a) : (∃ v, r = .verify v ∧ v.answer = a) ∨
    ∃ q bytes, r = .audit q ∧ t.read q.path = .ok bytes ∧ q.answer bytes = a := by
  cases r with
  | verify v => exact .inl ⟨v, rfl, Except.ok.inj h⟩
  | audit q =>
    rcases hread : t.read q.path with e | bytes <;> simp only [answer, hread] at h
    · cases h
    · exact .inr ⟨q, bytes, rfl, hread, Except.ok.inj h⟩

theorem answer_eq_error {e : FileError} (h : r.answer t = .error e) :
    ∃ q e', r = .audit q ∧ t.read q.path = .error e' ∧ FileError.reading q.path e'.message = e := by
  cases r with
  | verify v => cases h
  | audit q =>
    rcases hread : t.read q.path with e' | bytes <;> simp only [answer, hread] at h
    · exact ⟨q, e', rfl, hread, Except.error.inj h⟩
    · cases h

theorem run_of_answer (h : r.answer t = .ok a) : r.run t = a.deliver t := by
  obtain ⟨v, rfl, rfl⟩ | ⟨q, bytes, rfl, hread, rfl⟩ := answer_eq_ok h
  · rfl
  · simp only [run, hread]

theorem run_of_error {e : FileError} (h : r.answer t = .error e) :
    r.run t = { code := 1, stderr := e.report, files := t } := by
  obtain ⟨q, e', rfl, hread, rfl⟩ := answer_eq_error h
  simp only [run, hread]

theorem out_of_answer (h : r.answer t = .ok a) : a.out = r.out := by
  obtain ⟨v, rfl, rfl⟩ | ⟨q, bytes, rfl, -, rfl⟩ := answer_eq_ok h <;> rfl

theorem exitCode_of_answer (h : r.answer t = .ok a) : a.exitCode = 0 ∨ a.exitCode = 1 := by
  obtain ⟨v, rfl, rfl⟩ | ⟨q, bytes, rfl, -, rfl⟩ := answer_eq_ok h
  · change Outcome.exitCode _ = 0 ∨ Outcome.exitCode _ = 1
    generalize Verification.outcome _ = o
    cases o with
    | passed => exact .inl rfl
    | failed m => exact .inr rfl
  · by_cases h₀ : (q.report bytes).exitCode = 0
    · exact .inl h₀
    · exact .inr (Interface.audit_exitCode_eq_one h₀)

theorem run_code (r : Request) (t : FileTree) : (r.run t).code = 0 ∨ (r.run t).code = 1 := by
  rcases h : r.answer t with e | a
  · rw [run_of_error h]
    exact .inr rfl
  · rw [run_of_answer h]
    rcases a.deliver_code t with hc | hc <;> rw [hc]
    · exact exitCode_of_answer h
    · exact .inr rfl

end Request

/-- Whether a run was given up with an exit code, nothing on standard output and no file changed. -/
def RunResult.GivenUp (res : RunResult) (code : Int32) (t : FileTree) : Prop :=
  res.code = code ∧ res.stdout = "" ∧ res.files = t

namespace Request

variable {r : Request} {t : FileTree} {path : String}

theorem run_of_read_error {q : AuditRequest} {e : OsError} (h : t.read q.path = .error e) :
    ((Request.audit q).run t).GivenUp 1 t := by
  have hanswer : (Request.audit q).answer t = .error (.reading q.path e.message) := by
    simp only [answer, h]
  rw [run_of_error hanswer]
  exact ⟨rfl, rfl, rfl⟩

theorem run_of_target_error {e : OsError} (hout : r.out = some path)
    (he : t.target path = .error e) : (r.run t).GivenUp 1 t := by
  rcases h : r.answer t with e' | a
  · rw [run_of_error h]
    exact ⟨rfl, rfl, rfl⟩
  · rw [run_of_answer h, Answer.deliver_of_error ((out_of_answer h).trans hout) he]
    exact ⟨rfl, rfl, rfl⟩

theorem files_of_out_eq_none (hout : r.out = none) : (r.run t).files = t := by
  rcases h : r.answer t with e | a
  · rw [run_of_error h]
  · rw [run_of_answer h, Answer.deliver_of_none ((out_of_answer h).trans hout)]

theorem files_of_target {place : List String} {a : Answer} (hout : r.out = some path)
    (hplace : t.target path = .ok place) (h : r.answer t = .ok a) :
    (r.run t).files = t.put place (Utf8.encode a.document) := by
  rw [run_of_answer h, Answer.deliver_of_target ((out_of_answer h).trans hout) hplace]

end Request

theorem runCommand_of_error {words : List String} {s : Stop} (t : FileTree)
    (h : Request.ofWords words = .error s) : runCommand words t = s.run t := by
  simp only [runCommand, h]

theorem runCommand_of_request {words : List String} {r : Request} (t : FileTree)
    (h : Request.ofWords words = .ok r) : runCommand words t = r.run t := by
  simp only [runCommand, h]

theorem runCommand_code_eq_two {words : List String} {t : FileTree} :
    (runCommand words t).code = 2 ↔ Request.ofWords words = .error .usageError := by
  rcases h : Request.ofWords words with s | r
  · rw [runCommand_of_error t h]
    cases s <;> simp [Stop.run, Stop.exitCode]
  · rw [runCommand_of_request t h]
    rcases r.run_code t with hc | hc <;> simp [hc]

/-- A run of any command line on any files ends with one of three exit codes, the last of which is
for usage errors. A run that fails is given up with all files as they were, and any other changes no
place but that of the file it has to write, which then holds the answer and nothing else. -/
theorem runCommand_contained (words : List String) (t : FileTree) :
    ((runCommand words t).code = 0 ∨ (runCommand words t).code = 1 ∨
      (runCommand words t).code = 2) ∧
    ((runCommand words t).code = 2 ↔ Request.ofWords words = .error .usageError) ∧
    ((runCommand words t).code = 2 → (runCommand words t).GivenUp 2 t) ∧
    (∀ s, Request.ofWords words = .error s → (runCommand words t).files = t) ∧
    ∀ r, Request.ofWords words = .ok r →
      (∀ q e, r = .audit q → t.read q.path = .error e → (runCommand words t).GivenUp 1 t) ∧
      (∀ path e, r.out = some path → t.target path = .error e →
        (runCommand words t).GivenUp 1 t) ∧
      (r.out = none → (runCommand words t).files = t) ∧
      ∀ path place a, r.out = some path → t.target path = .ok place → r.answer t = .ok a →
        (∀ q, q ≠ place → (runCommand words t).files.node? q = t.node? q) ∧
        (runCommand words t).files.read path = .ok (Utf8.encode a.document) := by
  refine ⟨?_, runCommand_code_eq_two, fun h => ?_, fun s h => ?_, fun r h => ?_⟩
  · rcases h : Request.ofWords words with s | r
    · rw [runCommand_of_error t h]
      cases s <;> simp [Stop.run, Stop.exitCode]
    · rw [runCommand_of_request t h]
      exact (r.run_code t).imp_right .inl
  · rw [runCommand_of_error t (runCommand_code_eq_two.1 h)]
    exact ⟨rfl, rfl, rfl⟩
  · rw [runCommand_of_error t h]
    rfl
  · rw [runCommand_of_request t h]
    refine ⟨fun q e hr hread => ?_, fun path e => Request.run_of_target_error,
      Request.files_of_out_eq_none, fun path place a hout hplace hanswer => ?_⟩
    · subst hr
      exact Request.run_of_read_error hread
    · rw [Request.files_of_target hout hplace hanswer]
      have hadmits := (FileTree.target_eq_ok hplace).2.1
      exact ⟨fun q => FileTree.node?_put_of_ne hadmits, FileTree.read_put hplace⟩

end HostAbi

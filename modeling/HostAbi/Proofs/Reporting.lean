import HostAbi.Proofs.Delivery
import HostAbi.Proofs.Faithful
import HostAbi.Proofs.PieceOrder

/-!
# Flags that only move output

The report of a request depends on the profile or the module and on nothing else, so format, trace
and output file leave the exit code alone, which is the one that the document of the report states.
A trace comes on top of standard error, and an output file gets what would have been printed
(`reporting_flags`).
-/

namespace HostAbi

namespace Answer

variable {a : Answer} {t : FileTree}

theorem deliver_of_writable (h : ∀ path, a.out = some path → t.Writable path) :
    (a.deliver t).code = a.exitCode ∧ (a.deliver t).stderr = a.trace := by
  rcases hout : a.out with _ | path
  · rw [deliver_of_none hout]
    exact ⟨rfl, rfl⟩
  · obtain ⟨place, hplace⟩ := h path hout
    rw [deliver_of_target hout hplace]
    exact ⟨rfl, rfl⟩

/-- A trace comes before what there is on standard error and changes nothing else. -/
theorem deliver_with_trace (h : a.trace = "") (trace : String) (t : FileTree) :
    ({ a with trace } : Answer).deliver t =
      { a.deliver t with stderr := trace ++ (a.deliver t).stderr } := by
  simp only [deliver, h]
  split
  · simp
  · split <;> simp

/-- An answer that is written to a file is the one that would be printed. -/
theorem deliver_with_out {path : String} {place : List String} (h : a.out = none)
    (hplace : t.target path = .ok place) :
    ({ a with out := some path } : Answer).deliver t =
      { a.deliver t with
        stdout := "", files := t.put place (Utf8.encode (a.deliver t).stdout) } := by
  rw [deliver_of_none h, deliver_of_target rfl hplace]

end Answer

namespace Request

/-- The format that a request asks for. -/
def format : Request → Format
  | .verify v => v.format
  | .audit q => q.format

/-- Whether the file that a request wants its answer in, if any, can be written. -/
def CanDeliver (r : Request) (t : FileTree) : Prop := ∀ path, r.out = some path → t.Writable path

/-- Whether two requests are for the same report, if not in the same form. -/
def SameReport : Request → Request → Prop
  | .verify v, .verify v' => v.profile = v'.profile
  | .audit q, .audit q' => q.path = q'.path
  | _, _ => False

/-- The document of the report that a request is for. -/
def reportJson? (r : Request) (t : FileTree) : Option Json :=
  match r with
  | .verify v => some v.report.json
  | .audit q =>
    match t.read q.path with
    | .ok bytes => some (q.report bytes).json
    | .error _ => none

/-- The exit code that a document states, if it is that of a report such as a request is for. -/
def statedExitCode? : Request → Json → Option Int32
  | .verify _, v => (Report.ofJson? v).map (·.conclusion.exitCode)
  | .audit _, v => (AuditReport.ofJson? v).map (·.exitCode)

variable {r r' : Request} {t : FileTree} {a : Answer}

theorem reportJson?_of_answer (h : r.answer t = .ok a) : ∃ v, r.reportJson? t = some v ∧
    r.statedExitCode? v = some a.exitCode ∧
    (r.format = .json → Json.parse? a.document = some v) := by
  obtain ⟨v, rfl, rfl⟩ | ⟨q, bytes, rfl, hread, rfl⟩ := answer_eq_ok h
  · refine ⟨v.report.json, rfl, ?_, fun hformat => ?_⟩
    · simp only [statedExitCode?, Report.ofJson?_json]
      rfl
    · simp only [VerifyRequest.answer, show v.format = .json from hformat]
      exact Json.parse?_pretty_line v.report.proper_json
  · refine ⟨(q.report bytes).json, by simp only [reportJson?, hread], ?_, fun hformat => ?_⟩
    · simp only [statedExitCode?, AuditReport.ofJson?_json]
      rfl
    · simp only [AuditRequest.answer, show q.format = .json from hformat]
      exact Json.parse?_pretty_line (q.report bytes).proper_json

theorem SameReport.answer (hsame : r'.SameReport r) (h : r.answer t = .ok a) :
    ∃ a', r'.answer t = .ok a' ∧ r'.reportJson? t = r.reportJson? t ∧
      r'.statedExitCode? = r.statedExitCode? := by
  obtain ⟨v, rfl, rfl⟩ | ⟨q, bytes, rfl, hread, rfl⟩ := answer_eq_ok h
  · cases r' with
    | verify v' =>
      have hreport : v'.report = v.report :=
        congrArg (check · commandTool .linux64 .linux64) hsame
      exact ⟨v'.answer, rfl, congrArg (fun r : Report => some r.json) hreport, rfl⟩
    | audit q' => exact hsame.elim
  · cases r' with
    | verify v' => exact hsame.elim
    | audit q' =>
      have hpath : q'.path = q.path := hsame
      have hread' : t.read q'.path = .ok bytes := hpath ▸ hread
      refine ⟨q'.answer bytes, by simp only [Request.answer, hread'], ?_, rfl⟩
      simp only [reportJson?, hread, AuditRequest.report, hpath]

/-- A run for a report ends with the exit code that the document of the report states. -/
theorem SameReport.run {code : Int32} {v : Json} (hsame : r'.SameReport r) (h : r.answer t = .ok a)
    (hv : r.reportJson? t = some v) (hcode : r.statedExitCode? v = some code)
    (hout : r'.CanDeliver t) : (r'.run t).code = code ∧
      (r'.format = .json → r'.out = none → Json.parse? (r'.run t).stdout = some v) := by
  obtain ⟨a', h', hjson, hstated⟩ := hsame.answer h
  obtain ⟨v', hv', hcode', hdocument⟩ := reportJson?_of_answer h'
  obtain rfl := Option.some.inj (hv'.symm.trans (hjson.trans hv))
  obtain rfl := Option.some.inj (hcode'.symm.trans (hstated ▸ hcode))
  rw [run_of_answer h']
  refine ⟨(Answer.deliver_of_writable fun path hpath => ?_).1, fun hformat hnone => ?_⟩
  · exact hout path ((out_of_answer h').symm.trans hpath)
  · rw [Answer.deliver_of_none ((out_of_answer h').trans hnone)]
    exact hdocument hformat

/-- A request with its answer in a file. -/
def withOut (path : String) : Request → Request
  | .verify v => .verify { v with out := some path }
  | .audit q => .audit { q with out := some path }

theorem answer_withOut (path : String) (h : r.answer t = .ok a) :
    (r.withOut path).answer t = .ok { a with out := some path } := by
  obtain ⟨v, rfl, rfl⟩ | ⟨q, bytes, rfl, hread, rfl⟩ := answer_eq_ok h
  · rfl
  · simp only [withOut, answer, hread]
    rfl

end Request

/-! ## Adding a flag -/

namespace Draft

variable {S : Scope} {d : Draft}

theorem request_with_verbose {v : VerifyRequest} (h : d.request S = .ok (.verify v)) :
    d.verbose = v.verbose ∧
      ({ d with verbose := true } : Draft).request S =
        .ok (.verify { v with verbose := true }) := by
  cases S with
  | audit => rcases hpath : d.path with _ | path <;> simp [request, hpath] at h
  | _ =>
    obtain rfl := Request.verify.inj (Except.ok.inj h)
    exact ⟨rfl, rfl⟩

theorem request_with_out {r : Request} (path : String) (h : d.request S = .ok r) :
    d.out = r.out ∧ ({ d with out := some path } : Draft).request S = .ok (r.withOut path) := by
  cases S with
  | audit =>
    rcases hpath : d.path with _ | p <;> simp [request, hpath] at h
    subst h
    simp [request, Request.out, Request.withOut]
  | _ =>
    obtain rfl := Except.ok.inj h
    exact ⟨rfl, rfl⟩

end Draft

namespace Request

variable {words words' : List String} {path : String}

theorem ofWords_of_gained_verbose {v : VerifyRequest}
    (hgain : (Piece.flag .verbose).Gained words words')
    (h : Request.ofWords words = .ok (.verify v)) (hv : v.verbose = false) :
    Request.ofWords words' = .ok (.verify { v with verbose := true }) := by
  obtain ⟨S, d, hd, hadd⟩ := ofWords_of_gained hgain h
  obtain ⟨hverbose, hrequest⟩ := Draft.request_with_verbose hd
  exact (hadd _ (.verbose (hverbose.trans hv))).trans hrequest

theorem not_gained_verbose_of_audit {q : AuditRequest}
    (h : Request.ofWords words = .ok (.audit q)) :
    ¬(Piece.flag .verbose).Gained words words' := by
  rintro ⟨S, ws, ws', hws, -, hperm⟩
  rw [Scope.ofWords_of_split? hws] at h
  obtain ⟨d, -, hd⟩ := Scope.request_eq_ok.1 h
  have hflag := Scope.mem_flags_of_mem_pieces (hperm.mem_iff.2 List.mem_cons_self)
  cases S with
  | audit => exact absurd hflag (by decide)
  | _ => cases hd

theorem ofWords_of_gained_out {r : Request} (hgain : (Piece.option .out path).Gained words words')
    (h : Request.ofWords words = .ok r) (hout : r.out = none) (hne : path ≠ "") :
    Request.ofWords words' = .ok (r.withOut path) := by
  obtain ⟨S, d, hd, hadd⟩ := ofWords_of_gained hgain h
  obtain ⟨hdout, hrequest⟩ := Draft.request_with_out path hd
  exact (hadd _ (.out (hdout.trans hout) hne)).trans hrequest

end Request

/-- The format, the file for the answer and the trace have no say in the report of a request that
can be answered. The exit code is the one in the document of the report for every request for it
that can deliver. One more flag for a trace puts the trace in front of standard error and nothing
else, and no audit takes it. One more option for an output file puts what was printed there. -/
theorem reporting_flags {words : List String} {r : Request} {t : FileTree}
    (h : Request.ofWords words = .ok r)
    (hread : ∀ q, r = .audit q → ∃ bytes, t.read q.path = .ok bytes) :
    (∃ v code, r.reportJson? t = some v ∧ r.statedExitCode? v = some code ∧
      ∀ words' r', Request.ofWords words' = .ok r' → r'.SameReport r → r'.CanDeliver t →
        (runCommand words' t).code = code ∧
        (r'.format = .json → r'.out = none →
          Json.parse? (runCommand words' t).stdout = some v)) ∧
    (∀ v words', r = .verify v → v.verbose = false → (Piece.flag .verbose).Gained words words' →
      (runCommand words' t).code = (runCommand words t).code ∧
      (runCommand words' t).stdout = (runCommand words t).stdout ∧
      (runCommand words' t).files = (runCommand words t).files ∧
      (runCommand words' t).stderr = v.report.trace ++ (runCommand words t).stderr ∧
      (r.CanDeliver t → (runCommand words t).stderr = "")) ∧
    (∀ q words', r = .audit q → ¬(Piece.flag .verbose).Gained words words') ∧
    ∀ path words', r.out = none → t.Writable path → (Piece.option .out path).Gained words words' →
      (runCommand words' t).code = (runCommand words t).code ∧
      (runCommand words' t).stdout = "" ∧
      (runCommand words' t).stderr = (runCommand words t).stderr ∧
      (runCommand words' t).files.read path = .ok (Utf8.encode (runCommand words t).stdout) := by
  obtain ⟨a, ha⟩ : ∃ a, r.answer t = .ok a := by
    rcases ha : r.answer t with e | a
    · obtain ⟨q, e', hr, he, -⟩ := Request.answer_eq_error ha
      obtain ⟨bytes, hbytes⟩ := hread q hr
      rw [hbytes] at he
      cases he
    · exact ⟨a, rfl⟩
  refine ⟨?_, fun v words' hr hv hgain => ?_, fun q words' hr => ?_,
    fun path words' hout hpath hgain => ?_⟩
  · obtain ⟨v, hv, hcode, -⟩ := Request.reportJson?_of_answer ha
    refine ⟨v, a.exitCode, hv, hcode, fun words' r' h' hsame hdeliver => ?_⟩
    rw [runCommand_of_request t h']
    exact hsame.run ha hv hcode hdeliver
  · subst hr
    have h' := Request.ofWords_of_gained_verbose hgain h hv
    have htrace : v.answer.trace = "" := by simp [VerifyRequest.answer, hv]
    have hrun : (Request.verify { v with verbose := true }).run t =
        { (Request.verify v).run t with
          stderr := v.report.trace ++ ((Request.verify v).run t).stderr } :=
      Answer.deliver_with_trace htrace v.report.trace t
    rw [runCommand_of_request t h, runCommand_of_request t h', hrun]
    refine ⟨rfl, rfl, rfl, rfl, fun hdeliver => ?_⟩
    have hout : ∀ path, v.answer.out = some path → t.Writable path := hdeliver
    exact (Answer.deliver_of_writable hout).2.trans htrace
  · exact Request.not_gained_verbose_of_audit (hr ▸ h)
  · obtain ⟨place, hplace⟩ := hpath
    have hne := (FileTree.target_eq_ok hplace).1
    have h' := Request.ofWords_of_gained_out hgain h hout hne
    have hrun := Answer.deliver_with_out ((Request.out_of_answer ha).trans hout) hplace
    rw [runCommand_of_request t h, runCommand_of_request t h', Request.run_of_answer ha,
      Request.run_of_answer (Request.answer_withOut path ha), hrun]
    exact ⟨rfl, rfl, rfl, FileTree.read_put hplace⟩

/-- The audit of an empty file, written over that file. -/
theorem emptyFile_reporting :
    Request.ofWords ["audit", "m", "--format=json"] = .ok (.audit ⟨"m", .json, none⟩) ∧
      (FileTree.ofFiles [] [("m", [])]).read "m" = .ok [] ∧
      (runCommand ["audit", "m", "--out=m", "--format=json"]
          (.ofFiles [] [("m", [])])).files.read "m" =
        .ok (Utf8.encode
          (runCommand ["audit", "m", "--format=json"] (.ofFiles [] [("m", [])])).stdout) := by
  have hname : FileTree.names "m" = ["m"] := by cbv
  have hwords : Request.ofWords ["audit", "m", "--format=json"] =
      .ok (.audit ⟨"m", .json, none⟩) := by
    decide +kernel
  have hread := read_ofFiles_singleton []
  have hwritable : (FileTree.ofFiles [] [("m", [])]).Writable "m" := by
    refine ⟨["m"], ?_⟩
    simp only [FileTree.ofFiles, FileTree.target, hname]
    cbv
  have hgain : (Piece.option .out "m").Gained ["audit", "m", "--format=json"]
      ["audit", "m", "--out=m", "--format=json"] :=
    ⟨.audit, ["m", "--format=json"], ["m", "--out=m", "--format=json"], by decide +kernel,
      by decide +kernel, by decide +kernel⟩
  obtain ⟨-, -, -, hout⟩ := reporting_flags hwords fun q hq => ⟨[], by cases hq; exact hread⟩
  exact ⟨hwords, hread, (hout "m" _ rfl hwritable hgain).2.2.2⟩

end HostAbi

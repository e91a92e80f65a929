import HostAbi.Proofs.FindingLines

/-!
# When an audit is silent

The text of an audit is empty exactly for the modules that the host can start and that call nothing
but what works (`inspect_silent_iff`). A file with a fault and a component always have a warning,
and what the host does not provide is always a finding, so nothing that ends with exit code one is
silent. What links and fails when called breaks the silence without changing the exit code.
-/

namespace HostAbi

namespace Interface

variable {I : Interface}

theorem findings_stubbed_eq_nil : I.findings.stubbed = [] ↔ ∀ i ∈ I.imports, ¬i.Stubbed := by
  simp only [findings, List.filter_eq_nil_iff, decide_eq_true_eq, Import.linkage_eq_stubbed]

theorem findings_lines_eq_nil :
    I.findings.lines = [] ↔ I.Startable ∧ ∀ i ∈ I.imports, ¬i.Stubbed := by
  simp only [Findings.lines, List.append_eq_nil_iff, List.map_eq_nil_iff,
    findings_unsupported_eq_nil, findings_stubbed_eq_nil, findings_missing_eq_nil, Startable]
  exact and_right_comm

/-- Without stubs, an interface that can be started is one that has nothing but what works. -/
theorem startable_and_forall_not_stubbed :
    (I.Startable ∧ ∀ i ∈ I.imports, ¬i.Stubbed) ↔
      (∀ i ∈ I.imports, i.Provided) ∧ ⟨"memory", "memory"⟩ ∈ I.exports ∧
        ⟨"_initialize", "func"⟩ ∈ I.exports := by
  simp only [Startable, Import.provided_iff, forall₂_and]
  exact and_right_comm

end Interface

/-- A reading that did not get to the end of the file has a warning to show. -/
theorem Verdict.lines_eq_nil {v : Verdict} : v.analysis.lines = [] ↔ v.analysis.status = "ok" := by
  rw [Verdict.status_eq_ok]
  cases v with
  | ok => exact iff_of_true rfl rfl
  | faulty f => exact iff_of_false nofun nofun
  | component => exact iff_of_false nofun nofun

theorem AuditReport.text_eq_empty {r : AuditReport} :
    r.text = "" ↔ r.analysis.lines = [] ∧ r.findings.lines = [] :=
  unlines_eq_empty.trans List.append_eq_nil_iff

theorem auditFile_text_eq_empty (path : String) (bytes : List UInt8) (tool : Tool) :
    (auditFile path bytes tool).text = "" ↔
      (readModule bytes).verdict.analysis.status = "ok" ∧
        (readModule bytes).interface.Startable ∧
          ∀ i ∈ (readModule bytes).interface.imports, ¬i.Stubbed := by
  rw [AuditReport.text_eq_empty, ← Verdict.lines_eq_nil, ← Interface.findings_lines_eq_nil]
  rfl

/-- The text of an audit is empty exactly if the exit code is zero and nothing is imported that
fails when called, which is so exactly if the file is fine, all that is imported works, and both
exports are there. So nothing that ends with exit code one is silent, and a stub is shown though it
leaves the exit code at zero. -/
theorem inspect_silent_iff {t : FileTree} {path : String} {bytes : List UInt8} (tool : Tool)
    (h : t.read path = .ok bytes) : ∃ r, inspect path tool t = .ok r ∧
      (r.text = "" ↔ r.exitCode = 0 ∧ ∀ i ∈ r.imports, ¬i.Stubbed) ∧
      (r.text = "" ↔
        (readModule bytes).verdict.analysis.status = "ok" ∧
          (∀ i ∈ (readModule bytes).interface.imports, i.Provided) ∧
          ⟨"memory", "memory"⟩ ∈ (readModule bytes).interface.exports ∧
          ⟨"_initialize", "func"⟩ ∈ (readModule bytes).interface.exports) ∧
      (r.exitCode = 1 → r.text ≠ "") ∧
      (∀ f, (readModule bytes).verdict = .faulty f → r.exitCode = 1 ∧ r.text ≠ "") ∧
      ((readModule bytes).verdict = .component → r.exitCode = 1 ∧ r.text ≠ "") ∧
      (r.findings.unsupported ≠ [] ∨ r.findings.missing ≠ [] → r.exitCode = 1 ∧ r.text ≠ "") ∧
      ((readModule bytes).verdict.analysis.status = "ok" → (readModule bytes).interface.Startable →
        (∃ i ∈ r.imports, i.Stubbed) → r.exitCode = 0 ∧ r.text ≠ "") := by
  have htext := auditFile_text_eq_empty path bytes tool
  have hzero : (auditFile path bytes tool).exitCode = 0 ↔
      (readModule bytes).verdict.analysis.status = "ok" ∧
        (readModule bytes).interface.Startable := Interface.audit_exitCode_eq_zero
  have hsilent : (auditFile path bytes tool).text = "" → (auditFile path bytes tool).exitCode = 0 :=
    fun hempty => hzero.2 ⟨(htext.1 hempty).1, (htext.1 hempty).2.1⟩
  have hloud : (auditFile path bytes tool).exitCode ≠ 0 →
      (auditFile path bytes tool).exitCode = 1 ∧ (auditFile path bytes tool).text ≠ "" :=
    fun hne => ⟨Interface.audit_exitCode_eq_one hne, fun hempty => hne (hsilent hempty)⟩
  refine ⟨_, inspect_of_read tool h, ?_, ?_, fun hone => ?_, fun f hv => hloud fun h₀ => ?_,
    fun hv => hloud fun h₀ => ?_, fun hfind => hloud fun h₀ => ?_, fun hok hstart hstub => ?_⟩
  · rw [htext, hzero, and_assoc]
    rfl
  · rw [htext, Interface.startable_and_forall_not_stubbed]
  · exact (hloud (by rw [hone]; decide)).2
  · have hok := Verdict.status_eq_ok.1 (hzero.1 h₀).1
    rw [hv] at hok
    cases hok
  · have hok := Verdict.status_eq_ok.1 (hzero.1 h₀).1
    rw [hv] at hok
    cases hok
  · obtain ⟨himports, hexports⟩ := (hzero.1 h₀).2
    exact hfind.elim (· (Interface.findings_unsupported_eq_nil.2 himports))
      (· (Interface.findings_missing_eq_nil.2 hexports))
  · obtain ⟨i, hi, hfails⟩ := hstub
    exact ⟨hzero.2 ⟨hok, hstart⟩, fun hempty => (htext.1 hempty).2.2 i hi hfails⟩

/-- A module that could be started and imports a function that fails when called. -/
def stubbingModule : List UInt8 :=
  [0x00, 0x61, 0x73, 0x6d, 0x01, 0x00, 0x00, 0x00, 0x02, 0x23, 0x01, 0x16, 0x77, 0x61, 0x73, 0x69,
    0x5f, 0x73, 0x6e, 0x61, 0x70, 0x73, 0x68, 0x6f, 0x74, 0x5f, 0x70, 0x72, 0x65, 0x76, 0x69, 0x65,
    0x77, 0x31, 0x08, 0x66, 0x64, 0x5f, 0x77, 0x72, 0x69, 0x74, 0x65, 0x00, 0x00, 0x07, 0x18, 0x02,
    0x06, 0x6d, 0x65, 0x6d, 0x6f, 0x72, 0x79, 0x02, 0x00, 0x0b, 0x5f, 0x69, 0x6e, 0x69, 0x74, 0x69,
    0x61, 0x6c, 0x69, 0x7a, 0x65, 0x00, 0x00]

theorem stubbingModule_not_silent :
    (FileTree.ofFiles [] [("m", stubbingModule)]).read "m" = .ok stubbingModule ∧
      ∃ r, inspect "m" commandTool (.ofFiles [] [("m", stubbingModule)]) = .ok r ∧
        r.exitCode = 0 ∧ r.text ≠ "" := by
  have hread := read_ofFiles_singleton stubbingModule
  have hhead : Reader.header ⟨stubbingModule, 0⟩ =
      .ok (.coreModule, ⟨stubbingModule.drop 8, 8⟩) := rfl
  have hfound : readSections ⟨stubbingModule.drop 8, 8⟩ {} =
      (⟨[⟨"wasi_snapshot_preview1", "fd_write", "func"⟩],
        [⟨"_initialize", "func"⟩, ⟨"memory", "memory"⟩]⟩, none) := by
    decide +kernel
  obtain ⟨r, hr, -, -, -, -, -, -, hstub⟩ := inspect_silent_iff commandTool hread
  obtain rfl := Except.ok.inj (hr.symm.trans (inspect_of_read commandTool hread))
  have himport : ⟨"wasi_snapshot_preview1", "fd_write", "func"⟩ ∈
      (readModule stubbingModule).interface.imports := by
    rw [readModule_of_coreModule hhead, hfound]
    exact (Interface.sorted_imports_perm _).mem_iff.2 (by decide)
  have hstubbed : Import.Stubbed ⟨"wasi_snapshot_preview1", "fd_write", "func"⟩ :=
    ⟨rfl, rfl, by simp [Host.stubbed]⟩
  refine ⟨hread, _, hr, hstub ?_ ⟨?_, ?_, ?_⟩ ⟨_, himport, hstubbed⟩⟩ <;>
    rw [readModule_of_coreModule hhead, hfound]
  · rfl
  · intro i hi
    obtain rfl := List.mem_singleton.1 ((Interface.sorted_imports_perm _).mem_iff.1 hi)
    exact ⟨rfl, .inl ⟨rfl, .inr (by simp [Host.stubbed])⟩⟩
  · exact (Interface.sorted_exports_perm _).mem_iff.2 (by decide)
  · exact (Interface.sorted_exports_perm _).mem_iff.2 (by decide)

end HostAbi

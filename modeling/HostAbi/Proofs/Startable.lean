import HostAbi.Command.Run
import HostAbi.Interface.Sorted
import HostAbi.Proofs.Lookup
import Mathlib

/-!
# The modules that can be started

An audit ends with exit code zero exactly for the modules that the host can start: the file is fine,
every import is a function that links, and both exports that the host looks up are there
(`inspect_exitCode_iff`). More exports, of the same name too, do no harm.
-/

namespace HostAbi

namespace Import

/-- Whether the host links an import, if only to a function that fails. -/
def Linkable (i : Import) : Prop :=
  i.kind = "func" ∧
    (i.fromModule = "wasi_snapshot_preview1" ∧ (i.name ∈ Host.implemented ∨ i.name ∈ Host.stubbed)
      ∨ i.fromModule = "env" ∧ i.name ∈ Host.identity)

/-- Whether the host links an import to a function that works. -/
def Provided (i : Import) : Prop :=
  i.kind = "func" ∧
    (i.fromModule = "wasi_snapshot_preview1" ∧ i.name ∈ Host.implemented
      ∨ i.fromModule = "env" ∧ i.name ∈ Host.identity)

/-- Whether the host links an import to a function that fails on every call. -/
def Stubbed (i : Import) : Prop :=
  i.kind = "func" ∧ i.fromModule = "wasi_snapshot_preview1" ∧ i.name ∈ Host.stubbed

variable {i : Import}

theorem linkage_of_func (h : i.kind = "func") : i.linkage = Host.linkage i.fromModule i.name :=
  if_pos h

theorem linkage_of_ne_func (h : i.kind ≠ "func") : i.linkage = .unlinked := if_neg h

theorem linkage_eq_iff {l : Linkage} (hl : l ≠ .unlinked) :
    i.linkage = l ↔ i.kind = "func" ∧ Host.linkage i.fromModule i.name = l := by
  by_cases hk : i.kind = "func"
  · rw [linkage_of_func hk, and_iff_right hk]
  · rw [linkage_of_ne_func hk]
    exact iff_of_false hl.symm fun h => hk h.1

theorem linkage_eq_provided : i.linkage = .provided ↔ i.Provided :=
  (linkage_eq_iff (by decide)).trans (and_congr_right' Host.linkage_eq_provided)

theorem linkage_eq_stubbed : i.linkage = .stubbed ↔ i.Stubbed :=
  (linkage_eq_iff (by decide)).trans (and_congr_right' Host.linkage_eq_stubbed)

theorem linkage_eq_unlinked : i.linkage = .unlinked ↔ ¬i.Linkable := by
  by_cases hk : i.kind = "func"
  · rw [linkage_of_func hk, Host.linkage_eq_unlinked]
    exact not_congr (and_iff_right hk).symm
  · rw [linkage_of_ne_func hk]
    exact iff_of_true rfl fun h => hk h.1

/-- What links either works or fails. -/
theorem provided_iff : i.Provided ↔ i.Linkable ∧ ¬i.Stubbed := by
  have hlink : i.Linkable ↔ i.linkage ≠ .unlinked := by
    rw [ne_eq, linkage_eq_unlinked, not_not]
  rw [hlink, ← linkage_eq_provided, ← linkage_eq_stubbed]
  cases i.linkage <;> simp

end Import

namespace Interface

/-- Whether the host can start a module with this interface. -/
def Startable (I : Interface) : Prop :=
  (∀ i ∈ I.imports, i.Linkable) ∧ ⟨"memory", "memory"⟩ ∈ I.exports ∧
    ⟨"_initialize", "func"⟩ ∈ I.exports

theorem findings_unsupported_eq_nil {I : Interface} :
    I.findings.unsupported = [] ↔ ∀ i ∈ I.imports, i.Linkable := by
  simp only [findings, List.filter_eq_nil_iff, decide_eq_true_eq, Import.linkage_eq_unlinked,
    Classical.not_not]

theorem findings_missing_eq_nil {I : Interface} :
    I.findings.missing = [] ↔
      ⟨"memory", "memory"⟩ ∈ I.exports ∧ ⟨"_initialize", "func"⟩ ∈ I.exports := by
  simp [findings, requiredExports, List.filter_eq_nil_iff]

theorem findings_isClean {I : Interface} : I.findings.isClean = true ↔ I.Startable := by
  rw [Findings.isClean, Bool.and_eq_true, List.isEmpty_iff, List.isEmpty_iff,
    findings_unsupported_eq_nil, findings_missing_eq_nil]
  rfl

theorem audit_exitCode_eq_zero {I : Interface} {A : Analysis} {tool : Tool} {artifact : Artifact} :
    (I.audit A tool artifact).exitCode = 0 ↔ A.status = "ok" ∧ I.Startable := by
  rw [← findings_isClean]
  by_cases hs : A.status = "ok" <;> by_cases hc : I.findings.isClean = true <;>
    simp [audit, Analysis.isOk, hs, hc]

theorem audit_exitCode_eq_one {I : Interface} {A : Analysis} {tool : Tool} {artifact : Artifact}
    (h : (I.audit A tool artifact).exitCode ≠ 0) : (I.audit A tool artifact).exitCode = 1 := by
  unfold audit at h ⊢
  dsimp only at h ⊢
  split
  · rename_i hc
    rw [if_pos hc] at h
    exact absurd rfl h
  · rfl

end Interface

theorem inspect_of_read {t : FileTree} {path : String} {bytes : List UInt8} (tool : Tool)
    (h : t.read path = .ok bytes) : inspect path tool t = .ok (auditFile path bytes tool) := by
  simp only [inspect, h]

/-- An audit of a file that can be read gives a report, with exit code zero exactly if the host can
start the module in the file and one otherwise. -/
theorem inspect_exitCode_iff {t : FileTree} {path : String} {bytes : List UInt8} (tool : Tool)
    (h : t.read path = .ok bytes) : ∃ r, inspect path tool t = .ok r ∧
      (r.exitCode = 0 ↔
        (readModule bytes).verdict.analysis.status = "ok" ∧
          (∀ i ∈ (readModule bytes).interface.imports, i.Linkable) ∧
          ⟨"memory", "memory"⟩ ∈ (readModule bytes).interface.exports ∧
          ⟨"_initialize", "func"⟩ ∈ (readModule bytes).interface.exports) ∧
      (r.exitCode ≠ 0 → r.exitCode = 1) ∧
      ((readModule bytes).verdict = .component → r.exitCode = 1) ∧
      ∀ f, (readModule bytes).verdict = .faulty f → r.exitCode = 1 := by
  refine ⟨_, inspect_of_read tool h, Interface.audit_exitCode_eq_zero,
    Interface.audit_exitCode_eq_one, fun hv => ?_, fun f hv => ?_⟩ <;>
  · refine Interface.audit_exitCode_eq_one fun h₀ => ?_
    have hok := Verdict.status_eq_ok.1 (Interface.audit_exitCode_eq_zero.1 h₀).1
    rw [hv] at hok
    cases hok

/-- A file in the working directory is read under its name. -/
theorem read_ofFiles_singleton (bytes : List UInt8) :
    (FileTree.ofFiles [] [("m", bytes)]).read "m" = .ok bytes := by
  have hname : FileTree.names "m" = ["m"] := by cbv
  simp only [FileTree.ofFiles, FileTree.read, hname]
  cbv

/-- A module with an import that links, and with a function beside the memory of that name. -/
def startableModule : List UInt8 :=
  [0x00, 0x61, 0x73, 0x6d, 0x01, 0x00, 0x00, 0x00, 0x02, 0x0e, 0x01, 0x03, 0x65, 0x6e, 0x76, 0x06,
    0x67, 0x65, 0x74, 0x70, 0x69, 0x64, 0x00, 0x00, 0x07, 0x21, 0x03, 0x06, 0x6d, 0x65, 0x6d, 0x6f,
    0x72, 0x79, 0x02, 0x00, 0x06, 0x6d, 0x65, 0x6d, 0x6f, 0x72, 0x79, 0x00, 0x00, 0x0b, 0x5f, 0x69,
    0x6e, 0x69, 0x74, 0x69, 0x61, 0x6c, 0x69, 0x7a, 0x65, 0x00, 0x00]

theorem startableModule_exitCode :
    (FileTree.ofFiles [] [("m", startableModule)]).read "m" = .ok startableModule ∧
      ∃ r, inspect "m" commandTool (.ofFiles [] [("m", startableModule)]) = .ok r ∧
        r.exitCode = 0 := by
  have hread := read_ofFiles_singleton startableModule
  have hfound : readSections ⟨startableModule.drop 8, 8⟩ {} =
      (⟨[⟨"env", "getpid", "func"⟩],
        [⟨"_initialize", "func"⟩, ⟨"memory", "func"⟩, ⟨"memory", "memory"⟩]⟩, none) := by
    decide +kernel
  have hhead : Reader.header ⟨startableModule, 0⟩ =
      .ok (.coreModule, ⟨startableModule.drop 8, 8⟩) := rfl
  obtain ⟨r, hr, hiff, -⟩ := inspect_exitCode_iff commandTool hread
  refine ⟨hread, r, hr, hiff.2 ?_⟩
  rw [readModule_of_coreModule hhead, hfound]
  refine ⟨rfl, fun i hi => ?_, ?_, ?_⟩
  · have hi := (Interface.sorted_imports_perm _).mem_iff.1 hi
    obtain rfl := List.mem_singleton.1 hi
    exact ⟨rfl, .inr ⟨rfl, by simp [Host.identity]⟩⟩
  · exact (Interface.sorted_exports_perm _).mem_iff.2 (by decide)
  · exact (Interface.sorted_exports_perm _).mem_iff.2 (by decide)

end HostAbi

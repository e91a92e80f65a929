import HostAbi.Proofs.Acceptance
import HostAbi.Proofs.Startable
import Mathlib

/-!
# How the entries of a module are arranged

Two files that declare the same entries are read alike, however the entries are arranged: in which
order, in which sections, and in which forms of their numbers. So the reports on them say the same
but for which file it was (`inspect_of_same_entries`).
-/

namespace HostAbi

section Reading

variable {bytes bytes' : List UInt8} {I J : Interface}

theorem readModule_congr (h : Grammar.Module I bytes) (h' : Grammar.Module J bytes')
    (himports : I.imports.Perm J.imports) (hexports : I.exports.Perm J.exports) :
    readModule bytes = readModule bytes' := by
  rw [readModule_eq_sorted h, readModule_eq_sorted h', Interface.sorted_congr himports hexports]

/-- A report says nothing of the bytes but what is read of them and which file they are. -/
theorem auditFile_congr (h : readModule bytes = readModule bytes') (path path' : String)
    (tool : Tool) : auditFile path' bytes' tool =
      { auditFile path bytes tool with artifact := .ofFile path' bytes' } := by
  unfold auditFile
  rw [h]
  rfl

end Reading

/-- The text of a report does not tell which file it is about. -/
theorem AuditReport.text_artifact (r : AuditReport) (A : Artifact) :
    { r with artifact := A }.text = r.text := rfl

/-- Reports on files with the same entries differ in nothing but the file they are about. Either
has these entries, and their texts are the same. -/
theorem inspect_of_same_entries {t t' : FileTree} {path path' : String} {bytes bytes' : List UInt8}
    {I J : Interface} (tool : Tool) (hread : t.read path = .ok bytes)
    (hread' : t'.read path' = .ok bytes') (hI : Grammar.Module I bytes)
    (hJ : Grammar.Module J bytes') (himports : I.imports.Perm J.imports)
    (hexports : I.exports.Perm J.exports) :
    ∃ r r', inspect path tool t = .ok r ∧ inspect path' tool t' = .ok r' ∧
      r.analysis = .ok ∧ r.imports.Perm I.imports ∧ r.exports.Perm I.exports ∧
      r' = { r with artifact := r'.artifact } ∧ r'.text = r.text := by
  have hcongr := auditFile_congr (readModule_congr hI hJ himports hexports) path path' tool
  have hr : auditFile path bytes tool = I.sorted.audit .ok tool (.ofFile path bytes) := by
    unfold auditFile
    rw [readModule_eq_sorted hI]
    rfl
  refine ⟨_, _, inspect_of_read tool hread, inspect_of_read tool hread', ?_, ?_, ?_, ?_, ?_⟩
  · rw [hr]
    rfl
  · rw [hr]
    exact I.sorted_imports_perm
  · rw [hr]
    exact I.sorted_exports_perm
  · rw [hcongr]
  · rw [hcongr, AuditReport.text_artifact]

theorem module_of_readSections {header bs : List UInt8} {found : Interface} {pos : Nat}
    (hh : Grammar.Header header) (h : readSections ⟨bs, pos⟩ {} = (found, none)) :
    Grammar.Module found.reverse (header ++ bs) := by
  obtain ⟨parts, hparts, rfl⟩ := readSections_eq_none.1 h
  have hjoin : ((Interface.join parts).reverse ++ {}).reverse = Interface.join parts := by
    rw [Interface.append_empty, Interface.reverse, Interface.reverse, List.reverse_reverse,
      List.reverse_reverse]
  rw [hjoin]
  exact .mk hh hparts

/-- Two import sections around a custom one, with padded numbers, and an export section. -/
def spreadSections : List UInt8 :=
  [0x02, 0x07, 0x81, 0x00, 0x01, 0x62, 0x00, 0x00, 0x00, 0x00, 0x02, 0x01, 0x78, 0x02, 0x07, 0x01,
    0x01, 0x61, 0x00, 0x00, 0x80, 0x00, 0x07, 0x05, 0x01, 0x01, 0x6d, 0x02, 0x00]

/-- An export section and an import section, with the same entries. -/
def compactSections : List UInt8 :=
  [0x07, 0x05, 0x01, 0x01, 0x6d, 0x02, 0x00, 0x02, 0x0b, 0x02, 0x01, 0x61, 0x00, 0x00, 0x00, 0x01,
    0x62, 0x00, 0x00, 0x00]

/-- A module file whose entries are spread over sections. -/
def spreadModule : List UInt8 := Reader.magic ++ [1, 0, 0, 0] ++ spreadSections

/-- A module file with the same entries in as few sections as can be. -/
def compactModule : List UInt8 := Reader.magic ++ [1, 0, 0, 0] ++ compactSections

theorem spreadModule_inspect :
    ∃ I J, Grammar.Module I spreadModule ∧ Grammar.Module J compactModule ∧
      I.imports = [⟨"b", "", "func"⟩, ⟨"a", "", "func"⟩] ∧
      J.imports = [⟨"a", "", "func"⟩, ⟨"b", "", "func"⟩] ∧
      ∃ r r', inspect "m" commandTool (.ofFiles [] [("m", spreadModule)]) = .ok r ∧
        inspect "m" commandTool (.ofFiles [] [("m", compactModule)]) = .ok r' ∧
        r.imports.Perm I.imports ∧ r' = { r with artifact := r'.artifact } ∧ r'.text = r.text := by
  have hspread : readSections ⟨spreadSections, 8⟩ {} =
      (⟨[⟨"a", "", "func"⟩, ⟨"b", "", "func"⟩], [⟨"m", "memory"⟩]⟩, none) := by
    decide +kernel
  have hcompact : readSections ⟨compactSections, 8⟩ {} =
      (⟨[⟨"b", "", "func"⟩, ⟨"a", "", "func"⟩], [⟨"m", "memory"⟩]⟩, none) := by
    decide +kernel
  have hI : Grammar.Module _ spreadModule := module_of_readSections (.mk 1 0) hspread
  have hJ : Grammar.Module _ compactModule := module_of_readSections (.mk 1 0) hcompact
  obtain ⟨r, r', hr, hr', -, himports, -, hsame, htext⟩ :=
    inspect_of_same_entries commandTool (read_ofFiles_singleton _) (read_ofFiles_singleton _) hI hJ
      (.swap _ _ _) (.refl _)
  exact ⟨_, _, hI, hJ, rfl, rfl, r, r', hr, hr', himports, hsame, htext⟩

end HostAbi

import HostAbi.Proofs.Kept
import HostAbi.Report.Audit
import Mathlib

/-!
# The files that are accepted

A file is fine exactly if it is a header and sections up to its end, each in its form, and what is
read of it then is what its sections declare, every entry as often as it stands there and in the
order of keys (`readModule_accepts`).
-/

namespace HostAbi

theorem readModule_eq_sorted {bytes : List UInt8} {I : Interface} (h : Grammar.Module I bytes) :
    readModule bytes = ⟨I.sorted, .ok⟩ :=
  readModule_eq_ok.2 ⟨I, h, rfl⟩

theorem status_ok_iff_module {bytes : List UInt8} :
    (readModule bytes).verdict.analysis.status = "ok" ↔ ∃ I, Grammar.Module I bytes := by
  rw [Verdict.status_eq_ok]
  constructor
  · intro h
    have : readModule bytes = ⟨(readModule bytes).interface, .ok⟩ := by rw [← h]
    obtain ⟨I, hI, -⟩ := readModule_eq_ok.1 this
    exact ⟨I, hI⟩
  · rintro ⟨I, hI⟩
    rw [readModule_eq_sorted hI]

/-- A file is fine exactly if it is the file of a module, and then each entry of its sections is
kept, in the order of keys and under the name of its kind. -/
theorem readModule_accepts (bytes : List UInt8) :
    ((readModule bytes).verdict.analysis.status = "ok" ↔ ∃ I, Grammar.Module I bytes) ∧
      ∀ I, Grammar.Module I bytes →
        (readModule bytes).verdict.analysis.warnings = [] ∧
          (readModule bytes).interface.imports.Perm I.imports ∧
          (readModule bytes).interface.exports.Perm I.exports ∧
          (readModule bytes).interface.Ordered ∧ (readModule bytes).interface.Kinded := by
  refine ⟨status_ok_iff_module, fun I hI => ?_⟩
  have hkind := readModule_kinded bytes
  rw [readModule_eq_sorted hI] at hkind ⊢
  exact ⟨rfl, I.sorted_imports_perm, I.sorted_exports_perm, I.ordered_sorted, hkind⟩

/-- Two import sections, the first with a padded count and a table in it, and an export that stands
in the file twice. -/
def paddedModule : List UInt8 :=
  [0x00, 0x61, 0x73, 0x6d, 0x01, 0x00, 0x00, 0x00, 0x02, 0x09, 0x81, 0x00, 0x01, 0x62, 0x00, 0x01,
    0x70, 0x00, 0x01, 0x07, 0x85, 0x00, 0x01, 0x01, 0x6d, 0x02, 0x00, 0x02, 0x06, 0x01, 0x01, 0x61,
    0x00, 0x00, 0x00, 0x07, 0x05, 0x01, 0x01, 0x6d, 0x02, 0x00]

theorem paddedModule_accepted :
    ∃ I, Grammar.Module I paddedModule ∧
      (readModule paddedModule).interface.imports = [⟨"a", "", "func"⟩, ⟨"b", "", "table"⟩] ∧
      (readModule paddedModule).interface.exports = [⟨"m", "memory"⟩, ⟨"m", "memory"⟩] ∧
      (readModule paddedModule).interface.imports.Perm I.imports ∧
      (readModule paddedModule).interface.exports.Perm I.exports := by
  have h : readModule paddedModule =
      ⟨⟨[⟨"a", "", "func"⟩, ⟨"b", "", "table"⟩], [⟨"m", "memory"⟩, ⟨"m", "memory"⟩]⟩, .ok⟩ := by
    cbv
  obtain ⟨I, hI⟩ := (readModule_accepts paddedModule).1.1 (by rw [h]; rfl)
  have hsame := (readModule_accepts paddedModule).2 I hI
  exact ⟨I, hI, by rw [h], by rw [h], hsame.2.1, hsame.2.2.1⟩

end HostAbi

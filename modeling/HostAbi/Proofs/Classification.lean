import HostAbi.Proofs.Startable
import HostAbi.Proofs.WellFormed

/-!
# Which finding an import is

Each import has one linkage, and every time it is listed it goes into the class of that linkage: it
does not link, or it links to a function that fails, or to one that works. The findings name the
first two classes as they stand in the list, so what they leave out is the third, and a sorted list
gives sorted findings (`findings_classify`).
-/

namespace HostAbi

namespace Import

instance (i : Import) : Decidable i.Linkable := inferInstanceAs (Decidable (_ ∧ (_ ∧ (_ ∨ _) ∨ _)))

instance (i : Import) : Decidable i.Provided := inferInstanceAs (Decidable (_ ∧ (_ ∨ _)))

instance (i : Import) : Decidable i.Stubbed := inferInstanceAs (Decidable (_ ∧ _ ∧ _))

end Import

namespace Interface

variable (I : Interface)

theorem findings_unsupported : I.findings.unsupported = I.imports.filter (¬·.Linkable) := by
  simp only [findings, Import.linkage_eq_unlinked]

theorem findings_stubbed : I.findings.stubbed = I.imports.filter (·.Stubbed) := by
  simp only [findings, Import.linkage_eq_stubbed]

/-- The imports of one linkage, in the order of the list. -/
def withLinkage (l : Linkage) : List Import := I.imports.filter (·.linkage = l)

theorem withLinkage_provided : I.withLinkage .provided = I.imports.filter (·.Provided) := by
  simp only [withLinkage, Import.linkage_eq_provided]

theorem mem_withLinkage {l : Linkage} {i : Import} :
    i ∈ I.withLinkage l ↔ i ∈ I.imports ∧ i.linkage = l := by
  simp [withLinkage]

/-- An import is counted in the class of its linkage, as often as it is listed, and in no other. -/
theorem count_withLinkage (l : Linkage) (i : Import) :
    (I.withLinkage l).count i = if i.linkage = l then I.imports.count i else 0 := by
  unfold withLinkage
  split
  · rename_i h
    exact List.count_filter (by simpa using h)
  · rename_i h
    exact List.count_eq_zero.2 fun hmem => h (I.mem_withLinkage.1 hmem).2

theorem count_imports (i : Import) : I.imports.count i = (I.withLinkage .unlinked).count i +
    (I.withLinkage .stubbed).count i + (I.withLinkage .provided).count i := by
  simp only [count_withLinkage]
  cases i.linkage <;> simp

/-- No import is in two classes. -/
theorem linkage_ne_of_mem {l l' : Linkage} {i : Import} (hne : l ≠ l')
    (h : i ∈ I.withLinkage l) : i.linkage ≠ l' := by
  rw [(I.mem_withLinkage.1 h).2]
  exact hne

/-- What is in neither list of findings works. -/
theorem filter_not_mem_findings :
    I.imports.filter (fun i => i ∉ I.findings.unsupported ∧ i ∉ I.findings.stubbed) =
      I.imports.filter (·.Provided) := by
  refine List.filter_congr fun i hi => ?_
  have hunsupported : i ∈ I.findings.unsupported ↔ i.linkage = .unlinked :=
    I.mem_withLinkage.trans (and_iff_right hi)
  have hstubbed : i ∈ I.findings.stubbed ↔ i.linkage = .stubbed :=
    I.mem_withLinkage.trans (and_iff_right hi)
  simp only [hunsupported, hstubbed, ← Import.linkage_eq_provided, decide_eq_decide]
  cases i.linkage <;> simp

theorem exists_export_iff (name kind : String) :
    (∃ e ∈ I.exports, e.name = name ∧ e.kind = kind) ↔ ⟨name, kind⟩ ∈ I.exports := by
  constructor
  · rintro ⟨⟨name, kind⟩, h, rfl, rfl⟩
    exact h
  · intro h
    exact ⟨_, h, rfl, rfl⟩

theorem findings_missing : I.findings.missing =
    (if ∃ e ∈ I.exports, e.name = "memory" ∧ e.kind = "memory" then [] else ["memory"]) ++
      if ∃ e ∈ I.exports, e.name = "_initialize" ∧ e.kind = "func" then []
      else ["_initialize"] := by
  simp only [exists_export_iff]
  by_cases hmemory : ⟨"memory", "memory"⟩ ∈ I.exports <;>
    by_cases hinitialize : ⟨"_initialize", "func"⟩ ∈ I.exports <;>
    simp [findings, requiredExports, hmemory, hinitialize]

end Interface

/-- The findings on any interface put each import, every time that it is listed, into one of three
classes, of which they name two, in the order of the list. A required export is missing exactly if
no export has both its name and its kind. -/
theorem findings_classify (I : Interface) :
    I.findings.unsupported = I.imports.filter (¬·.Linkable) ∧
    I.findings.stubbed = I.imports.filter (·.Stubbed) ∧
    I.imports.filter (fun i => i ∉ I.findings.unsupported ∧ i ∉ I.findings.stubbed) =
      I.imports.filter (·.Provided) ∧
    (∀ i, I.imports.count i = I.findings.unsupported.count i + I.findings.stubbed.count i +
      (I.imports.filter (·.Provided)).count i) ∧
    (∀ i, (i ∈ I.findings.unsupported → i ∉ I.findings.stubbed ∧ ¬i.Provided) ∧
      (i ∈ I.findings.stubbed → ¬i.Provided)) ∧
    (I.imports.Pairwise (·.key ≤ ·.key) →
      I.findings.unsupported.Pairwise (·.key ≤ ·.key) ∧
        I.findings.stubbed.Pairwise (·.key ≤ ·.key)) ∧
    (∀ bytes, I = (readModule bytes).interface → I.imports.Pairwise (·.key ≤ ·.key)) ∧
    I.findings.missing =
      (if ∃ e ∈ I.exports, e.name = "memory" ∧ e.kind = "memory" then [] else ["memory"]) ++
        if ∃ e ∈ I.exports, e.name = "_initialize" ∧ e.kind = "func" then []
        else ["_initialize"] := by
  refine ⟨I.findings_unsupported, I.findings_stubbed, I.filter_not_mem_findings, fun i => ?_,
    fun i => ⟨fun h => ?_, fun h => ?_⟩, fun h => ⟨h.filter _, h.filter _⟩, ?_,
    I.findings_missing⟩
  · rw [← I.withLinkage_provided]
    exact I.count_imports i
  · rw [← Import.linkage_eq_provided]
    exact ⟨fun h' => I.linkage_ne_of_mem (by decide) h (I.mem_withLinkage.1 h').2,
      I.linkage_ne_of_mem (by decide) h⟩
  · rw [← Import.linkage_eq_provided]
    exact I.linkage_ne_of_mem (by decide) h
  · rintro bytes rfl
    exact (readModule_ordered bytes).1

/-- Imports in no order, one of them twice and one that is not a function, beside exports of the
right names of which one is of another kind. -/
example : (Interface.mk
    [⟨"wasi_snapshot_preview1", "fd_write", "func"⟩, ⟨"env", "getpid", "memory"⟩,
      ⟨"env", "getpid", "func"⟩, ⟨"wasi_snapshot_preview1", "fd_write", "func"⟩]
    [⟨"memory", "func"⟩, ⟨"_initialize", "func"⟩]).findings =
      { unsupported := [⟨"env", "getpid", "memory"⟩]
        stubbed := [⟨"wasi_snapshot_preview1", "fd_write", "func"⟩,
          ⟨"wasi_snapshot_preview1", "fd_write", "func"⟩]
        missing := ["memory"] } := by
  decide +kernel

end HostAbi

import HostAbi.Proofs.Kept
import HostAbi.Proofs.Window
import HostAbi.Report.Audit

/-!
# What every reading is like

Whatever the bytes, reading them comes to one of three statuses, has a warning exactly if that is
not the good one, and lists entries in order and of kinds that the format has. The warning about a
fault ends in its offset, in lower-case hexadecimal, and that lies in the file
(`readModule_wellFormed`).
-/

namespace HostAbi

namespace Hex

/-- The digits of offsets in messages. -/
def digits : List Char := "0123456789abcdef".toList

/-- Whether characters are digits of a number, the highest first. -/
inductive Spells : List Char → Nat → Prop where
  | single {d : Nat} (hd : d < digits.length) : Spells [digits[d]] d
  | more {cs : List Char} {n d : Nat} (hd : d < digits.length) : Spells cs n →
      Spells (cs ++ [digits[d]]) (0x10 * n + d)

theorem digitChar_eq_getElem : ∀ d : Fin digits.length, Nat.digitChar d = digits[d] := by decide

theorem spells_toDigits (n : Nat) : Spells (Nat.toDigits 0x10 n) n := by
  induction n using Nat.strongRecOn with
  | _ n ih =>
    have hlast : n % 0x10 < digits.length := Nat.mod_lt n (by decide)
    by_cases hn : n < 0x10
    · rw [Nat.toDigits_of_lt_base hn, digitChar_eq_getElem ⟨n, hn⟩]
      exact .single hn
    · have hmore := Spells.more hlast (ih (n / 0x10) (by omega))
      rw [Nat.div_add_mod] at hmore
      rw [Nat.toDigits_of_base_le (by decide) (Nat.le_of_not_lt hn),
        digitChar_eq_getElem ⟨_, hlast⟩]
      exact hmore

end Hex

/-- Whether a reading is one that a file of some length can have. -/
structure ModuleReading.WellFormed (length : Nat) (r : ModuleReading) : Prop where
  status : r.verdict.analysis.status ∈ ["ok", "parse_error", "unsupported"]
  warnings_of_ok : r.verdict.analysis.status = "ok" → r.verdict.analysis.warnings = []
  warnings_of_ne_ok : r.verdict.analysis.status ≠ "ok" → r.verdict.analysis.warnings.length = 1
  empty_of_unsupported : r.verdict.analysis.status = "unsupported" →
    r.interface.imports = [] ∧ r.interface.exports = []
  offset_of_parse_error : r.verdict.analysis.status = "parse_error" → ∃ f cs,
    r.verdict = .faulty f ∧
      r.verdict.analysis.warnings =
        [f.cause.message ++ " (at offset 0x" ++ String.ofList cs ++ ")"] ∧
      Hex.Spells cs f.offset ∧ f.offset ≤ length
  ordered : r.interface.Ordered
  import_kinds : ∀ i ∈ r.interface.imports, i.kind ∈ ["func", "table", "memory", "global", "tag"]
  export_kinds : ∀ e ∈ r.interface.exports, e.kind ∈ ["func", "table", "memory", "global", "tag"]

theorem ExternalKind.name_mem (k : ExternalKind) :
    k.name ∈ ["func", "table", "memory", "global", "tag"] := by
  cases k <;> decide

theorem readModule_ordered (bytes : List UInt8) : (readModule bytes).interface.Ordered := by
  unfold readModule
  split
  · exact ⟨.nil, .nil⟩
  · exact ⟨.nil, .nil⟩
  · exact Interface.ordered_sorted _

namespace Verdict

variable {v : Verdict}

theorem status_eq_parseError : v.analysis.status = "parse_error" ↔ ∃ f, v = .faulty f := by
  cases v <;> simp [analysis, Analysis.ok, Analysis.parseError, Analysis.unsupported]

theorem status_mem : v.analysis.status ∈ ["ok", "parse_error", "unsupported"] := by
  cases v <;> simp [analysis, Analysis.ok, Analysis.parseError, Analysis.unsupported]

theorem warnings_of_status_ok (h : v.analysis.status = "ok") : v.analysis.warnings = [] := by
  rw [status_eq_ok.1 h]
  rfl

theorem length_warnings_of_ne_ok (h : v.analysis.status ≠ "ok") :
    v.analysis.warnings.length = 1 := by
  cases v with
  | ok => exact absurd rfl h
  | faulty f => rfl
  | component => rfl

end Verdict

/-- Reading never fails to say what came of it: of the three statuses one has no warning and the
others have one, a component lists nothing, a fault is put in the file, and what is listed is in
order and of known kinds. -/
theorem readModule_wellFormed (bytes : List UInt8) :
    (readModule bytes).WellFormed bytes.length where
  status := Verdict.status_mem
  warnings_of_ok := Verdict.warnings_of_status_ok
  warnings_of_ne_ok := Verdict.length_warnings_of_ne_ok
  empty_of_unsupported h := by
    obtain ⟨c, hc⟩ := header_of_component (Verdict.status_eq_unsupported.1 h)
    rw [readModule_of_component hc]
    exact ⟨rfl, rfl⟩
  offset_of_parse_error h := by
    obtain ⟨f, hf⟩ := Verdict.status_eq_parseError.1 h
    have hplace := (readModule_fault_in hf).1
    refine ⟨f, Nat.toDigits 0x10 f.offset, hf, ?_, Hex.spells_toDigits f.offset, hplace.2⟩
    rw [hf]
    rfl
  ordered := readModule_ordered bytes
  import_kinds i hi := by
    obtain ⟨k, hk⟩ := (readModule_kinded bytes).1 i hi
    rw [hk]
    exact k.name_mem
  export_kinds e he := by
    obtain ⟨k, hk⟩ := (readModule_kinded bytes).2 e he
    rw [hk]
    exact k.name_mem

end HostAbi

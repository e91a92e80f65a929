import HostAbi.Proofs.Lookup
import Mathlib

/-!
# Halving

A look-up compares a name with the one in the middle and goes on in half of the places, so it is
through once there is nothing left to halve, whatever the list holds (`listedWithin_eq`). On a list
that ascends it finds what is there. The lists of the host do ascend, so what becomes of a function
is a matter of the list that it stands in (`lookup_eq_membership`).
-/

namespace HostAbi

/-- What a look-up between two places finds, if it is through after so many comparisons. -/
def listedWithin (names : Array String) (s : String) :
    (comparisons : Nat) → (lo hi : Nat) → Option Bool
  | 0, lo, hi => if lo < hi then none else some false
  | comparisons + 1, lo, hi =>
    if lo < hi then
      let mid := (lo + hi) / 2
      match names[mid]? with
      | none => some false
      | some name =>
        if Utf8.encode s < Utf8.encode name then listedWithin names s comparisons lo mid
        else if Utf8.encode name < Utf8.encode s then listedWithin names s comparisons (mid + 1) hi
        else some true
    else some false

/-- Each comparison leaves at most half of the places. -/
theorem listedWithin_eq (names : Array String) (s : String) : ∀ {comparisons lo hi : Nat},
    hi - lo < 2 ^ comparisons →
      listedWithin names s comparisons lo hi = some (listedBetween names s lo hi)
  | 0, lo, hi, h => by
    have hnone : ¬lo < hi := by omega
    rw [listedWithin, if_neg hnone, listedBetween.eq_def, if_neg hnone]
  | comparisons + 1, lo, hi, h => by
    have hpow : 2 ^ (comparisons + 1) = 2 * 2 ^ comparisons := Nat.pow_succ'
    have hbelow : listedWithin names s comparisons lo ((lo + hi) / 2) = _ :=
      listedWithin_eq names s (by omega)
    have habove : listedWithin names s comparisons ((lo + hi) / 2 + 1) hi = _ :=
      listedWithin_eq names s (by omega)
    rw [listedWithin, listedBetween.eq_def]
    by_cases hlt : lo < hi
    · simp only [if_pos hlt, hbelow, habove]
      rcases names[(lo + hi) / 2]? with _ | name
      · rfl
      · simp only [apply_ite some]
    · rw [if_neg hlt, if_neg hlt]

theorem listedWithin_log2 (names : Array String) (s : String) :
    listedWithin names s (names.size.log2 + 1) 0 names.size = some (listed names s) :=
  listedWithin_eq names s Nat.lt_log2_self

/-- A look-up ends on every list, with one comparison more at most than its length can be halved,
and on an ascending list it finds exactly the names that are there. The lists of the host ascend,
and no function stands in both of the WASI module, so the lists alone say what becomes of one. -/
theorem lookup_eq_membership :
    (∀ (names : Array String) (s : String),
      listedWithin names s (names.size.log2 + 1) 0 names.size = some (listed names s) ∧
      (Ascending names → (listed names s = true ↔ s ∈ names))) ∧
    (Ascending Host.implemented ∧ Ascending Host.stubbed ∧ Ascending Host.identity) ∧
    (∀ name ∈ Host.implemented, name ∉ Host.stubbed) ∧
    ∀ fromModule name : String,
      (Host.linkage fromModule name = .provided ↔
        fromModule = "wasi_snapshot_preview1" ∧ name ∈ Host.implemented ∨
          fromModule = "env" ∧ name ∈ Host.identity) ∧
      (Host.linkage fromModule name = .stubbed ↔
        fromModule = "wasi_snapshot_preview1" ∧ name ∈ Host.stubbed) ∧
      (Host.linkage fromModule name = .unlinked ↔
        ¬(fromModule = "wasi_snapshot_preview1" ∧ (name ∈ Host.implemented ∨ name ∈ Host.stubbed) ∨
          fromModule = "env" ∧ name ∈ Host.identity)) :=
  ⟨fun names s => ⟨listedWithin_log2 names s, fun hn => listed_iff_mem hn s⟩,
    ⟨Host.ascending_implemented, Host.ascending_stubbed, Host.ascending_identity⟩,
    Host.disjoint_implemented_stubbed,
    fun _ _ => ⟨Host.linkage_eq_provided, Host.linkage_eq_stubbed, Host.linkage_eq_unlinked⟩⟩

/-- Names that share their beginnings. Capitals come before a low line, and that before the small
letters, and a letter outside of ASCII behind all of them. -/
def sharedBeginnings : Array String := #["fd", "fdA", "fd_", "fd_a", "fd_é", "fda", "fdé"]

theorem sharedBeginnings_lookup : Ascending sharedBeginnings ∧
    listed sharedBeginnings "fd_é" = true ∧ listed sharedBeginnings "fd_e" = false ∧
    Host.linkage "wasi_snapshot_preview1" "fd_read" = .provided ∧
    Host.linkage "wasi_snapshot_preview1" "fd_readdir" = .stubbed ∧
    Host.linkage "env" "fd_read" = .unlinked := by
  have hascending : Ascending sharedBeginnings := by decide +kernel
  obtain ⟨hlisted, -, -, hlinkage⟩ := lookup_eq_membership
  have hfound := (hlisted sharedBeginnings "fd_é").2 hascending
  have hmissing := (hlisted sharedBeginnings "fd_e").2 hascending
  refine ⟨hascending, hfound.2 (by decide +kernel), ?_, ?_, ?_, ?_⟩
  · exact Bool.eq_false_iff.2 fun h => absurd (hmissing.1 h) (by decide +kernel)
  · exact (hlinkage _ _).1.2 (by decide +kernel)
  · exact (hlinkage _ _).2.1.2 (by decide +kernel)
  · exact (hlinkage _ _).2.2.2 (by decide +kernel)

end HostAbi

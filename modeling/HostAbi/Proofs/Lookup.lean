import HostAbi.Host.Linkage
import Mathlib.Tactic.SplitIfs

/-!
# Looking names up

Halving finds exactly the names of a list that strictly ascends by UTF-8 bytes (`listed_iff_mem`):
what has been cut off is all before the name or all behind it. The lists of the host do ascend, so
a function links exactly if it stands in one of them (`linkage_eq_unlinked`).
-/

namespace HostAbi

/-- Whether each name comes before all later ones by its UTF-8 bytes. -/
def Ascending (names : Array String) : Prop :=
  names.toList.Pairwise (Utf8.encode · < Utf8.encode ·)

instance (names : Array String) : Decidable (Ascending names) :=
  inferInstanceAs (Decidable (List.Pairwise _ _))

variable {names : Array String}

theorem Ascending.encode_lt (hn : Ascending names) {i j : Nat} {a b : String} (hij : i < j)
    (ha : names[i]? = some a) (hb : names[j]? = some b) : Utf8.encode a < Utf8.encode b := by
  obtain ⟨hi, rfl⟩ := Array.getElem?_eq_some_iff.1 ha
  obtain ⟨hj, rfl⟩ := Array.getElem?_eq_some_iff.1 hb
  have := List.pairwise_iff_getElem.1 hn i j (by simpa using hi) (by simpa using hj) hij
  rwa [Array.getElem_toList, Array.getElem_toList] at this

/-- Of two names in a list, the one with lesser bytes stands first. -/
theorem Ascending.index_lt (hn : Ascending names) {i j : Nat} {a b : String}
    (ha : names[i]? = some a) (hb : names[j]? = some b) (hlt : Utf8.encode a < Utf8.encode b) :
    i < j := by
  refine Nat.lt_of_not_le fun hji => ?_
  rcases Nat.lt_or_eq_of_le hji with h | rfl
  · exact List.lt_irrefl _ (List.lt_trans hlt (hn.encode_lt h hb ha))
  · rw [ha, Option.some.injEq] at hb
    subst hb
    exact List.lt_irrefl _ hlt

theorem listedBetween_iff (hn : Ascending names) (s : String) (lo hi : Nat)
    (hhi : hi ≤ names.size) :
    listedBetween names s lo hi = true ↔ ∃ i, lo ≤ i ∧ i < hi ∧ names[i]? = some s := by
  fun_induction listedBetween names s lo hi with
  | case1 lo hi hlt mid hmid =>
    have : mid < names.size := by omega
    simp [this] at hmid
  | case2 lo hi hlt mid name hmid hbefore ih =>
    rw [ih (by omega)]
    constructor
    · intro hfound
      obtain ⟨i, h, h', hi⟩ := hfound
      exact ⟨i, h, by omega, hi⟩
    · intro hfound
      obtain ⟨i, h, h', hi⟩ := hfound
      exact ⟨i, h, hn.index_lt hi hmid hbefore, hi⟩
  | case3 lo hi hlt mid name hmid _ hbehind ih =>
    rw [ih hhi]
    constructor
    · intro hfound
      obtain ⟨i, h, h', hi⟩ := hfound
      exact ⟨i, by omega, h', hi⟩
    · intro hfound
      obtain ⟨i, h, h', hi⟩ := hfound
      exact ⟨i, hn.index_lt hmid hi hbehind, h', hi⟩
  | case4 lo hi hlt mid name hmid hle hge =>
    have : s = name :=
      Utf8.encode_injective (List.le_antisymm (List.not_lt.1 hge) (List.not_lt.1 hle))
    exact iff_of_true rfl ⟨mid, by omega, by omega, this ▸ hmid⟩
  | case5 lo hi hlt =>
    refine iff_of_false (by simp) ?_
    intro hfound
    obtain ⟨i, h, h', -⟩ := hfound
    omega

theorem listed_iff_mem (hn : Ascending names) (s : String) :
    listed names s = true ↔ s ∈ names := by
  unfold listed
  rw [listedBetween_iff hn s 0 names.size (Nat.le_refl _), Array.mem_iff_getElem?]
  refine exists_congr fun i => ⟨fun h => h.2.2, fun h => ⟨Nat.zero_le i, ?_, h⟩⟩
  exact (Array.getElem?_eq_some_iff.1 h).1

namespace Host

theorem ascending_implemented : Ascending implemented := by decide +kernel

theorem ascending_stubbed : Ascending stubbed := by decide +kernel

theorem ascending_identity : Ascending identity := by decide +kernel

example : implemented.size = 14 ∧ stubbed.size = 31 ∧ identity.size = 5 := by decide

theorem disjoint_implemented_stubbed : ∀ name ∈ implemented, name ∉ stubbed := by decide +kernel

theorem envModule_ne_wasiModule : envModule ≠ wasiModule := by decide

/-- What becomes of a function, told by the lists and not by looking it up. -/
theorem linkage_eq_ite (fromModule name : String) : linkage fromModule name =
    if fromModule = wasiModule ∧ name ∈ implemented then .provided
    else if fromModule = wasiModule ∧ name ∈ stubbed then .stubbed
    else if fromModule = envModule ∧ name ∈ identity then .provided
    else .unlinked := by
  have himp := listed_iff_mem ascending_implemented name
  have hstub := listed_iff_mem ascending_stubbed name
  have hid := listed_iff_mem ascending_identity name
  have hne := envModule_ne_wasiModule
  unfold linkage
  by_cases hw : fromModule = wasiModule
  · simp [hw, himp, hstub, hne.symm]
  · by_cases he : fromModule = envModule <;> simp [hw, he, hid, hne]

variable {fromModule name : String}

/-- A function does not link exactly if it stands in no list of its module. -/
theorem linkage_eq_unlinked :
    linkage fromModule name = .unlinked ↔
      ¬ (fromModule = wasiModule ∧ (name ∈ implemented ∨ name ∈ stubbed)
        ∨ fromModule = envModule ∧ name ∈ identity) := by
  rw [linkage_eq_ite]
  split_ifs with himp hstub hid
  · exact iff_of_false nofun fun h => h (.inl ⟨himp.1, .inl himp.2⟩)
  · exact iff_of_false nofun fun h => h (.inl ⟨hstub.1, .inr hstub.2⟩)
  · exact iff_of_false nofun fun h => h (.inr hid)
  · refine iff_of_true rfl fun h => ?_
    rcases h with ⟨hw, h | h⟩ | h
    · exact himp ⟨hw, h⟩
    · exact hstub ⟨hw, h⟩
    · exact hid h

/-- A function works exactly if it stands in the list of those of its module that do. -/
theorem linkage_eq_provided :
    linkage fromModule name = .provided ↔
      fromModule = wasiModule ∧ name ∈ implemented ∨ fromModule = envModule ∧ name ∈ identity := by
  rw [linkage_eq_ite]
  split_ifs with himp hstub hid
  · exact iff_of_true rfl (.inl himp)
  · refine iff_of_false nofun fun h => ?_
    rcases h with h | h
    · exact himp h
    · exact envModule_ne_wasiModule (h.1.symm.trans hstub.1)
  · exact iff_of_true rfl (.inr hid)
  · exact iff_of_false nofun fun h => h.elim himp hid

/-- A function links and fails exactly if it stands in the list of those. No function stands in
that list and in the list of those that work. -/
theorem linkage_eq_stubbed :
    linkage fromModule name = .stubbed ↔ fromModule = wasiModule ∧ name ∈ stubbed := by
  rw [linkage_eq_ite]
  split_ifs with himp hstub hid
  · exact iff_of_false nofun fun h => disjoint_implemented_stubbed name himp.2 h.2
  · exact iff_of_true rfl hstub
  · exact iff_of_false nofun hstub
  · exact iff_of_false nofun hstub

end Host

end HostAbi

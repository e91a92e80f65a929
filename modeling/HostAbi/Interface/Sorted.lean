import HostAbi.Interface.Basic

/-!
# Sorted interfaces

Entries that are ordered alike are the same entry, so a sorted interface depends on which entries
there are and not on where they stood (`Interface.sorted_congr`).
-/

namespace HostAbi

theorem Import.key_injective {a b : Import} (h : a.key = b.key) : a = b := by
  cases a
  cases b
  simp only [key, List.cons.injEq, and_true] at h
  rw [Utf8.encode_injective h.1, Utf8.encode_injective h.2.1, Utf8.encode_injective h.2.2]

theorem Export.key_injective {a b : Export} (h : a.key = b.key) : a = b := by
  cases a
  cases b
  simp only [key, List.cons.injEq, and_true] at h
  rw [Utf8.encode_injective h.1, Utf8.encode_injective h.2]

/-- Keys come in order once a list has been sorted by them. -/
theorem pairwise_mergeSort_key {α : Type} (key : α → List (List UInt8)) (as : List α) :
    (as.mergeSort (key · ≤ key ·)).Pairwise (key · ≤ key ·) := by
  refine (List.pairwise_mergeSort ?_ ?_ as).imp fun h => of_decide_eq_true h
  · intro a b c hab hbc
    exact decide_eq_true (List.le_trans (of_decide_eq_true hab) (of_decide_eq_true hbc))
  · intro a b
    simpa using List.le_total (key a) (key b)

/-- Sorting by keys that tell all elements apart forgets the order there was. -/
theorem mergeSort_congr_of_key {α : Type} {key : α → List (List UInt8)}
    (hk : ∀ a b, key a = key b → a = b) {as bs : List α} (h : as.Perm bs) :
    as.mergeSort (key · ≤ key ·) = bs.mergeSort (key · ≤ key ·) :=
  List.Perm.eq_of_pairwise (fun a b _ _ h h' => hk a b (List.le_antisymm h h'))
    (pairwise_mergeSort_key key as) (pairwise_mergeSort_key key bs)
    ((List.mergeSort_perm as _).trans (h.trans (List.mergeSort_perm bs _).symm))

namespace Interface

theorem sorted_congr {I J : Interface} (himp : I.imports.Perm J.imports)
    (hexp : I.exports.Perm J.exports) : I.sorted = J.sorted := by
  simp only [sorted, mk.injEq]
  exact ⟨mergeSort_congr_of_key (fun _ _ => Import.key_injective) himp,
    mergeSort_congr_of_key (fun _ _ => Export.key_injective) hexp⟩

theorem sorted_imports_perm (I : Interface) : I.sorted.imports.Perm I.imports :=
  List.mergeSort_perm _ _

theorem sorted_exports_perm (I : Interface) : I.sorted.exports.Perm I.exports :=
  List.mergeSort_perm _ _

/-- Whether imports and exports come in the order of their keys. -/
def Ordered (I : Interface) : Prop :=
  I.imports.Pairwise (·.key ≤ ·.key) ∧ I.exports.Pairwise (·.key ≤ ·.key)

theorem ordered_sorted (I : Interface) : I.sorted.Ordered :=
  ⟨pairwise_mergeSort_key _ _, pairwise_mergeSort_key _ _⟩

/-- An interface with its entries in the opposite order. -/
def reverse (I : Interface) : Interface := ⟨I.imports.reverse, I.exports.reverse⟩

theorem sorted_reverse (I : Interface) : I.reverse.sorted = I.sorted :=
  sorted_congr (List.reverse_perm _) (List.reverse_perm _)

theorem append_assoc (I J K : Interface) : I ++ J ++ K = I ++ (J ++ K) := by
  show Interface.mk _ _ = Interface.mk _ _
  simp only [mk.injEq]
  exact ⟨List.append_assoc _ _ _, List.append_assoc _ _ _⟩

theorem reverse_append (I J : Interface) : (I ++ J).reverse = J.reverse ++ I.reverse := by
  show Interface.mk _ _ = Interface.mk _ _
  simp only [mk.injEq]
  exact ⟨List.reverse_append, List.reverse_append⟩

theorem append_empty (I : Interface) : I ++ {} = I := by
  show Interface.mk _ _ = _
  simp only [List.append_nil]

end Interface

end HostAbi

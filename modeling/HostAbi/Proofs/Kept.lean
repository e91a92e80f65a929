import HostAbi.Binary.Reads.Module

/-!
# The entries that are kept

Every entry that is kept of a file was read to its end, also if a fault comes after it. So what
holds of all entries that can be read holds of all that are kept (`readModule_forall`). In
particular their kinds are those that the format has (`readModule_kinded`).
-/

namespace HostAbi

namespace Reader

variable {α : Type} {entry : Reader α} {p : α → Prop}

theorem entries_forall (he : ∀ c a c', entry c = .ok (a, c') → p a) :
    ∀ (n : Nat) (found : List α) (c : Cursor), (∀ a ∈ found, p a) →
      ∀ a ∈ (entries entry n found c).1, p a
  | 0, _, _, h => h
  | n + 1, found, c, h => by
    rcases hc : entry c with f | ⟨a, c'⟩
    · simpa only [entries, hc] using h
    · simp only [entries, hc]
      refine entries_forall he n _ c' fun b hb => ?_
      rcases List.mem_cons.1 hb with rfl | hb
      · exact he _ _ _ hc
      · exact h b hb

theorem listing_forall (he : ∀ c a c', entry c = .ok (a, c') → p a) (body : Cursor) :
    ∀ a ∈ (listing entry body).1, p a := by
  unfold listing
  rcases u32 body with f | ⟨n, c⟩
  · simp
  · have h := entries_forall he n [] c (fun _ h => absurd h List.not_mem_nil)
    rcases hc : entries entry n [] c with ⟨found, f | c'⟩ <;> rw [hc] at h <;>
      simpa only [hc] using h

end Reader

namespace Interface

/-- Whether all imports have one property and all exports another. -/
def Forall (p : Import → Prop) (q : Export → Prop) (I : Interface) : Prop :=
  (∀ i ∈ I.imports, p i) ∧ ∀ e ∈ I.exports, q e

variable {p : Import → Prop} {q : Export → Prop}

theorem forall_empty : Forall p q {} := ⟨by simp, by simp⟩

theorem Forall.append {I J : Interface} (hI : I.Forall p q) (hJ : J.Forall p q) :
    (I ++ J).Forall p q := by
  refine ⟨fun i hi => ?_, fun e he => ?_⟩
  · rcases List.mem_append.1 hi with hi | hi
    · exact hI.1 i hi
    · exact hJ.1 i hi
  · rcases List.mem_append.1 he with he | he
    · exact hI.2 e he
    · exact hJ.2 e he

theorem Forall.sorted {I : Interface} (h : I.Forall p q) : I.sorted.Forall p q :=
  ⟨fun i hi => h.1 i (I.sorted_imports_perm.mem_iff.1 hi),
    fun e he => h.2 e (I.sorted_exports_perm.mem_iff.1 he)⟩

end Interface

section Forall

variable {p : Import → Prop} {q : Export → Prop}
  (hp : ∀ c i c', Reader.importEntry c = .ok (i, c') → p i)
  (hq : ∀ c e c', Reader.exportEntry c = .ok (e, c') → q e)

include hp hq

theorem readBody_forall (body : Cursor) : ∀ kind : SectionKind, (kind.readBody body).1.Forall p q
  | .custom | .counted | .lone _ | .code | .skipped => Interface.forall_empty
  | .imports => ⟨Reader.listing_forall hp body, by simp [SectionKind.readBody]⟩
  | .exports => ⟨by simp [SectionKind.readBody], Reader.listing_forall hq body⟩

theorem readSection_forall (c : Cursor) : (readSection c).1.Forall p q := by
  unfold readSection
  split
  · exact Interface.forall_empty
  · rename_i id length c' _
    unfold SectionKind.read
    split
    · exact Interface.forall_empty
    · split
      · exact Interface.forall_empty
      · rename_i body _ _
        have h := readBody_forall hp hq ⟨body, c'.pos⟩ (.ofId id)
        split <;> rename_i hb <;> rw [hb] at h <;> exact h

theorem readSections_forall (c : Cursor) (found : Interface) (h : found.Forall p q) :
    (readSections c found).1.Forall p q := by
  fun_induction readSections c found with
  | case1 => exact h
  | case2 c found _ more f hc =>
    have := readSection_forall hp hq c
    rw [hc] at this
    exact this.append h
  | case3 c found _ more c' hc _ ih =>
    have := readSection_forall hp hq c
    rw [hc] at this
    exact ih (this.append h)

/-- What holds of all entries that can be read holds of all that are kept. -/
theorem readModule_forall (bytes : List UInt8) : (readModule bytes).interface.Forall p q := by
  unfold readModule
  split
  · exact Interface.forall_empty
  · exact Interface.forall_empty
  · exact (readSections_forall hp hq _ {} Interface.forall_empty).sorted

end Forall

/-- Whether all entries are of kinds that the format has. -/
def Interface.Kinded : Interface → Prop :=
  Interface.Forall (∃ k : ExternalKind, ·.kind = k.name) (∃ k : ExternalKind, ·.kind = k.name)

theorem readModule_kinded (bytes : List UInt8) : (readModule bytes).interface.Kinded := by
  refine readModule_forall (fun _ _ _ h => ?_) (fun _ _ _ h => ?_) bytes
  · obtain ⟨_, h, -⟩ := (Reader.reads_importEntry _ _ _).1 h
    cases h with
    | @mk _ _ kind => exact ⟨kind, rfl⟩
  · obtain ⟨_, h, -⟩ := (Reader.reads_exportEntry _ _ _).1 h
    cases h with
    | @mk _ kind => exact ⟨kind, rfl⟩

end HostAbi

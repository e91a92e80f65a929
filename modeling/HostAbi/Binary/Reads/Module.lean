import HostAbi.Binary.Reads.Section

/-!
# The forms of module files

A file is fine exactly if it is the file of a core module, and its interface then is what that
module declares, sorted (`readModule_eq_ok`).
-/

namespace HostAbi

namespace Reader

theorem littleEndian_lt {a b c d : UInt8} :
    littleEndian [a, b, c, d] < 0x10000 ↔ c = 0 ∧ d = 0 := by
  have ha := a.toNat_lt
  have hb := b.toNat_lt
  simp only [littleEndian, List.foldr, ← UInt8.toNat_inj, UInt8.toNat_zero]
  omega

/-- A header that is read without a fault, and names a core module, is a header of one. -/
theorem header_eq_coreModule {c c' : Cursor} : header c = .ok (.coreModule, c') ↔
    ∃ bs, Grammar.Header bs ∧ c.rest = bs ++ c'.rest ∧ c'.pos = c.pos + bs.length := by
  have := Reads.position fun start => (reads_take 4).bind fun found =>
    .ite (found ≠ magic) (reads_fail (.badMagic found) start : Reads (_ : Reader Layer) _)
      (.position fun start => (reads_take 4).bind fun bs => .ite (littleEndian bs < 0x10000)
        (reads_pure Layer.coreModule) (.ite (littleEndian bs < 0x20000)
          (reads_pure Layer.component) (reads_fail (.unknownVersion (littleEndian bs)) start)))
  refine (this c .coreModule c').trans (exists_congr fun bs => and_congr_left' ⟨?_, ?_⟩)
  · rintro ⟨found, _, _, ⟨rfl, -⟩, h, rfl⟩
    split at h
    · exact h.elim
    · rename_i hm
      obtain rfl := Decidable.not_not.1 hm
      obtain ⟨_, bs, _, ⟨rfl, h₄⟩, h, rfl⟩ := h
      split at h
      · rename_i hv
        obtain ⟨-, rfl⟩ := h
        match bs, h₄ with
        | [a, b, _, _], _ =>
          obtain ⟨rfl, rfl⟩ := littleEndian_lt.1 hv
          exact .mk a b
      · split at h
        · simp at h
        · exact h.elim
  · rintro ⟨low, high⟩
    refine ⟨magic, magic, _, ⟨rfl, rfl⟩, ?_, rfl⟩
    rw [if_neg (by simp)]
    refine ⟨_, [low, high, 0, 0], [], ⟨rfl, rfl⟩, ?_, rfl⟩
    rw [if_pos (littleEndian_lt.2 ⟨rfl, rfl⟩)]
    exact ⟨rfl, rfl⟩

end Reader

theorem Grammar.Section.ne_nil {I : Interface} {bs : List UInt8} (h : Grammar.Section I bs) :
    bs ≠ [] := by
  cases h
  simp

theorem readSections_eq_none {found found' : Interface} {c : Cursor} :
    readSections c found = (found', none) ↔
      ∃ parts, Grammar.Sequence Grammar.Section parts c.rest ∧
        found' = (Interface.join parts).reverse ++ found := by
  fun_induction readSections c found with
  | case1 c found h =>
    simp only [List.isEmpty_iff] at h
    simp only [h, Prod.mk.injEq, and_true]
    constructor
    · rintro rfl
      exact ⟨[], .nil, rfl⟩
    · rintro ⟨parts, hs, rfl⟩
      generalize e : ([] : List UInt8) = bs at hs
      cases hs with
      | nil => rfl
      | cons h => exact absurd (List.append_eq_nil_iff.1 e.symm).1 h.ne_nil
  | case2 c found h more f hc =>
    refine iff_of_false (by simp) ?_
    rintro ⟨parts, hs, -⟩
    generalize e : c.rest = bs at hs
    cases hs with
    | nil => simp [e] at h
    | @cons I parts bs bs' hI hs =>
      have : readSection c = (I.reverse, .ok ⟨bs', c.pos + bs.length⟩) :=
        readSection_eq_ok.2 ⟨I, bs, rfl, hI, e, rfl⟩
      rw [hc] at this
      cases this
  | case3 c found h more c' hc _ ih =>
    obtain ⟨I, bs, rfl, hI, e, p⟩ := readSection_eq_ok.1 hc
    rw [ih]
    constructor
    · rintro ⟨parts, hs, rfl⟩
      refine ⟨I :: parts, e ▸ .cons hI hs, ?_⟩
      show _ = (I ++ Interface.join parts).reverse ++ found
      rw [Interface.reverse_append, Interface.append_assoc]
    · rintro ⟨parts, hs, rfl⟩
      generalize e' : c.rest = bs at hs
      cases hs with
      | nil => simp [e'] at h
      | @cons I' parts bs₁ bs' hI' hs =>
        have : readSection c = (I'.reverse, .ok ⟨bs', c.pos + bs₁.length⟩) :=
          readSection_eq_ok.2 ⟨I', bs₁, rfl, hI', e', rfl⟩
        rw [hc] at this
        simp only [Prod.mk.injEq, Except.ok.injEq] at this
        obtain ⟨hI, rfl⟩ := this
        refine ⟨parts, hs, ?_⟩
        show (I' ++ Interface.join parts).reverse ++ found = _
        rw [Interface.reverse_append, Interface.append_assoc, hI]

/-- A file is fine exactly if it is the file of a core module. -/
theorem readModule_eq_ok {bytes : List UInt8} {J : Interface} :
    readModule bytes = ⟨J, .ok⟩ ↔ ∃ I, Grammar.Module I bytes ∧ J = I.sorted := by
  unfold readModule
  constructor
  · intro h
    split at h
    · simp at h
    · simp at h
    · rename_i c hc
      obtain ⟨header, hh, e, -⟩ := Reader.header_eq_coreModule.1 hc
      rcases hs : readSections c {} with ⟨found, _ | f⟩ <;> simp only [hs] at h
      · obtain ⟨parts, hp, rfl⟩ := readSections_eq_none.1 hs
        obtain ⟨rfl, -⟩ := ModuleReading.mk.inj h
        dsimp only at e
        exact ⟨.join parts, e ▸ .mk hh hp, by
          rw [Interface.append_empty, Interface.sorted_reverse]⟩
      · simp at h
  · rintro ⟨_, @⟨header, bs, parts, hh, hp⟩, rfl⟩
    have hc : Reader.header ⟨header ++ bs, 0⟩ = .ok (.coreModule, ⟨bs, 0 + header.length⟩) :=
      Reader.header_eq_coreModule.2 ⟨header, hh, rfl, rfl⟩
    have hs : readSections ⟨bs, 0 + header.length⟩ {} = (_, none) :=
      readSections_eq_none.2 ⟨parts, hp, rfl⟩
    simp only [hc, hs, Interface.append_empty, Interface.sorted_reverse, Option.elim_none]

end HostAbi

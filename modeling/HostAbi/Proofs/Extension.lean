import HostAbi.Binary.Reads.Module
import HostAbi.Proofs.Settled
import HostAbi.Report.Audit
import Mathlib.Data.List.Perm.Subperm

/-!
# Files with more bytes at the end

A section that is read without a fault is read alike in a longer file, and so is one with a fault
other than an early end. If a section ends too early then nothing was found in it, or its body was
there. So a longer file has the entries of the shorter one and maybe more, and the same faults but
for an early end (`readModule_append`).
-/

namespace HostAbi

namespace SectionKind

theorem read_extend_ok {kind : SectionKind} {length : Nat} {c c' : Cursor} {found : Interface}
    (more : List UInt8) (h : kind.read length c = (found, .ok c')) :
    kind.read length (c.extend more) = (found, .ok (c'.extend more)) := by
  obtain ⟨I, body, hI, hbody, hlen, hrest, hpos⟩ := read_eq_ok.1 h
  exact read_eq_ok.2 ⟨I, body, hI, hbody, hlen, by simp [Cursor.extend, hrest], hpos⟩

/-- A body that is there is the same in a longer file, so only faults of the file itself matter. -/
theorem read_extend_error {kind : SectionKind} {length : Nat} {c : Cursor} {found : Interface}
    {f : Fault} (more : List UInt8) (h : kind.read length c = (found, .error f)) :
    kind.read length (c.extend more) = (found, .error f) ∨
      f.cause = .unexpectedEnd ∧ found = {} := by
  by_cases hk : kind = .code
  · subst hk
    have ⟨hc, hfound⟩ := read_code_eq_error.1 h
    by_cases hend : f.cause = .unexpectedEnd
    · exact .inr ⟨hend, hfound⟩
    · have hext := (Reader.settles_code length).fault more hc hend
      exact .inl (read_code_eq_error.2 ⟨hext, hfound⟩)
  · rcases (read_eq_error hk).1 h with ⟨hc, hfound⟩ | ⟨body, c', hc, hb⟩
    · exact .inr ⟨by rw [(Reader.take_eq_error.1 hc).2], hfound⟩
    · have hext := (Reader.settles_take length).ok more hc
      exact .inl ((read_eq_error hk).2 (.inr ⟨body, _, hext, hb⟩))

end SectionKind

theorem readSection_extend_ok {c c' : Cursor} {found : Interface} (more : List UInt8)
    (h : readSection c = (found, .ok c')) :
    readSection (c.extend more) = (found, .ok (c'.extend more)) := by
  rcases hc : Reader.sectionHead c with f | ⟨⟨id, length⟩, c₁⟩
  · rw [readSection_of_fault hc] at h
    cases h
  · rw [readSection_of_head hc] at h
    rw [readSection_of_head (Reader.settles_sectionHead.ok more hc)]
    exact SectionKind.read_extend_ok more h

theorem readSection_extend_error {c : Cursor} {found : Interface} {f : Fault} (more : List UInt8)
    (h : readSection c = (found, .error f)) :
    readSection (c.extend more) = (found, .error f) ∨
      f.cause = .unexpectedEnd ∧ found = {} := by
  rcases hc : Reader.sectionHead c with f' | ⟨⟨id, length⟩, c₁⟩
  · rw [readSection_of_fault hc] at h
    cases h
    by_cases hf : f.cause = .unexpectedEnd
    · exact .inr ⟨hf, rfl⟩
    · exact .inl (readSection_of_fault (Reader.settles_sectionHead.fault more hc hf))
  · rw [readSection_of_head hc] at h
    rw [readSection_of_head (Reader.settles_sectionHead.ok more hc)]
    exact SectionKind.read_extend_error more h

theorem readSections_of_ok {c c' : Cursor} {found new : Interface} (hc : c.rest.isEmpty = false)
    (h : readSection c = (new, .ok c')) :
    readSections c found = readSections c' (new ++ found) := by
  rw [readSections.eq_def]
  simp only [hc, Bool.false_eq_true, if_false]
  split <;> rename_i h' <;> rw [h] at h' <;> cases h'
  rfl

theorem readSections_of_error {c : Cursor} {found new : Interface} {f : Fault}
    (hc : c.rest.isEmpty = false) (h : readSection c = (new, .error f)) :
    readSections c found = (new ++ found, some f) := by
  rw [readSections.eq_def]
  simp only [hc, Bool.false_eq_true, if_false]
  split <;> rename_i h' <;> rw [h] at h' <;> cases h'
  rfl

/-- What was found before stays behind what is found later, and is of no matter for it. -/
theorem readSections_append_found (c : Cursor) (I J : Interface) :
    readSections c (I ++ J) = ((readSections c I).1 ++ J, (readSections c I).2) := by
  fun_induction readSections c I with
  | case1 c I h => rw [readSections.eq_def, if_pos h]
  | case2 c I hrest new f h =>
    rw [readSections_of_error (Bool.eq_false_iff.2 hrest) h, Interface.append_assoc]
  | case3 c I hrest new c' h _ ih =>
    rw [readSections_of_ok (Bool.eq_false_iff.2 hrest) h, ← Interface.append_assoc, ih]

theorem readSections_eq_append (c : Cursor) (found : Interface) :
    readSections c found = ((readSections c {}).1 ++ found, (readSections c {}).2) :=
  readSections_append_found c {} found

/-- Nothing that was found before gets lost. -/
theorem readSections_suffix (c : Cursor) (found : Interface) :
    ∃ I : Interface, (readSections c found).1 = I ++ found :=
  ⟨(readSections c {}).1, by rw [readSections_eq_append]⟩

theorem isEmpty_extend {c : Cursor} (more : List UInt8) (h : ¬c.rest.isEmpty = true) :
    (c.extend more).rest.isEmpty = false := by
  rcases c with ⟨_ | ⟨b, rest⟩, pos⟩
  · exact absurd rfl h
  · rfl

theorem readSections_extend (more : List UInt8) (c : Cursor) (found : Interface) :
    (∃ I : Interface, (readSections (c.extend more) found).1 = I ++ (readSections c found).1) ∧
      ∀ f, (readSections c found).2 = some f → f.cause ≠ .unexpectedEnd →
        readSections (c.extend more) found = readSections c found := by
  fun_induction readSections c found with
  | case1 c found _ => exact ⟨readSections_suffix _ _, fun f hf => by simp at hf⟩
  | case2 c found hrest new f hc =>
    have hrest := isEmpty_extend more hrest
    rcases readSection_extend_error more hc with h | ⟨hend, rfl⟩
    · rw [readSections_of_error hrest h]
      exact ⟨⟨{}, rfl⟩, fun _ _ _ => rfl⟩
    · refine ⟨readSections_suffix _ _, fun f' hf' hne => ?_⟩
      rw [← Option.some.inj hf'] at hne
      exact absurd hend hne
  | case3 c found hrest new c' hc _ ih =>
    rw [readSections_of_ok (isEmpty_extend more hrest) (readSection_extend_ok more hc)]
    exact ih

namespace Interface

/-- Whether each entry stands in another interface at least as often. -/
def Within (I J : Interface) : Prop :=
  I.imports.Subperm J.imports ∧ I.exports.Subperm J.exports

theorem within_empty (J : Interface) : Within {} J := ⟨List.nil_subperm, List.nil_subperm⟩

theorem subperm_mergeSort_append {α : Type} (le : α → α → Bool) (l r : List α) :
    (r.mergeSort le).Subperm ((l ++ r).mergeSort le) := by
  have hshort : (r.mergeSort le).Subperm r := (List.mergeSort_perm r le).subperm
  have hpart : r.Subperm (l ++ r) := (List.sublist_append_right l r).subperm
  have hlong : (l ++ r).Subperm ((l ++ r).mergeSort le) :=
    (List.mergeSort_perm (l ++ r) le).symm.subperm
  exact (hshort.trans hpart).trans hlong

theorem within_sorted_append (I J : Interface) : J.sorted.Within (I ++ J).sorted :=
  ⟨subperm_mergeSort_append _ I.imports J.imports, subperm_mergeSort_append _ I.exports J.exports⟩

end Interface

section Module

variable (p e : List UInt8)

theorem readModule_within :
    (readModule p).interface.Within (readModule (p ++ e)).interface := by
  rcases hc : Reader.header ⟨p, 0⟩ with f | ⟨_ | _, c⟩
  · rw [readModule_of_error hc]
    exact Interface.within_empty _
  · have hext : Reader.header ⟨p ++ e, 0⟩ = _ := Reader.settles_header.ok e hc
    obtain ⟨I, hI⟩ := (readSections_extend e c {}).1
    rw [readModule_of_coreModule hc, readModule_of_coreModule hext, hI]
    exact Interface.within_sorted_append I _
  · rw [readModule_of_component hc]
    exact Interface.within_empty _

variable {p}

theorem readModule_append_of_component (h : (readModule p).verdict = .component) :
    readModule (p ++ e) = readModule p := by
  obtain ⟨c, hc⟩ := header_of_component h
  have hext : Reader.header ⟨p ++ e, 0⟩ = _ := Reader.settles_header.ok e hc
  rw [readModule_of_component hc, readModule_of_component hext]

theorem readModule_append_of_faulty {f : Fault} (h : (readModule p).verdict = .faulty f)
    (hf : f.cause ≠ .unexpectedEnd) : readModule (p ++ e) = readModule p := by
  rcases header_of_faulty h with hc | ⟨c, hc, hfault⟩
  · have hext : Reader.header ⟨p ++ e, 0⟩ = .error f := Reader.settles_header.fault e hc hf
    rw [readModule_of_error hc, readModule_of_error hext]
  · have hext : Reader.header ⟨p ++ e, 0⟩ = _ := Reader.settles_header.ok e hc
    have hsame := (readSections_extend e c {}).2 f hfault hf
    rw [readModule_of_coreModule hc, readModule_of_coreModule hext, hsame]

end Module

/-- A longer file has the entries of the shorter one. It is read like the shorter one if that is a
component or has a fault other than an early end, and so a file whose longer one is fine is fine
itself or ends too early. -/
theorem readModule_append (p e : List UInt8) :
    ((readModule p).interface.imports.Subperm (readModule (p ++ e)).interface.imports ∧
        (readModule p).interface.exports.Subperm (readModule (p ++ e)).interface.exports) ∧
      ((readModule p).verdict.analysis.status = "unsupported" →
        readModule (p ++ e) = readModule p) ∧
      (∀ f, (readModule p).verdict = .faulty f → f.cause.message ≠ "unexpected end-of-file" →
        readModule (p ++ e) = readModule p) ∧
      ((readModule (p ++ e)).verdict.analysis.status = "ok" →
        (readModule p).verdict.analysis.status = "ok" ∨ ∃ f, (readModule p).verdict = .faulty f ∧
          f.cause.message = "unexpected end-of-file") := by
  have hfaulty : ∀ f, (readModule p).verdict = .faulty f →
      f.cause.message ≠ "unexpected end-of-file" → readModule (p ++ e) = readModule p :=
    fun f hf hne => readModule_append_of_faulty e hf fun hend => hne (by rw [hend]; rfl)
  refine ⟨readModule_within p e, fun h => ?_, hfaulty, fun h => ?_⟩
  · exact readModule_append_of_component e (Verdict.status_eq_unsupported.1 h)
  · rcases hv : (readModule p).verdict with _ | f | _
    · exact .inl rfl
    · by_cases hend : f.cause.message = "unexpected end-of-file"
      · exact .inr ⟨f, rfl, hend⟩
      · rw [hfaulty f hv hend, hv] at h
        cases Verdict.status_eq_ok.1 h
    · rw [readModule_append_of_component e hv, hv] at h
      cases Verdict.status_eq_ok.1 h

/-- A module with an import, and then a byte that starts no section. -/
def brokenModule : List UInt8 :=
  [0x00, 0x61, 0x73, 0x6d, 0x01, 0x00, 0x00, 0x00, 0x02, 0x07, 0x01, 0x01, 0x61, 0x01, 0x62, 0x00,
    0x00, 0x80]

theorem brokenModule_append :
    (readModule brokenModule).verdict = .faulty ⟨.malformedSectionId, 17⟩ ∧
      (readModule brokenModule).interface.imports = [⟨"a", "b", "func"⟩] ∧
      readModule (brokenModule ++ [0x00]) = readModule brokenModule := by
  have h : readModule brokenModule =
      ⟨⟨[⟨"a", "b", "func"⟩], []⟩, .faulty ⟨.malformedSectionId, 17⟩⟩ := by
    decide +kernel
  have hv : (readModule brokenModule).verdict = .faulty ⟨.malformedSectionId, 17⟩ := by rw [h]
  exact ⟨hv, by rw [h], (readModule_append brokenModule [0x00]).2.2.1 _ hv (by decide)⟩

end HostAbi

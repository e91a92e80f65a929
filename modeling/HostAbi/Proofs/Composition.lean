import HostAbi.Proofs.Extension
import HostAbi.Proofs.Moved

/-!
# Sections behind other sections

Nothing is carried from a section to the next but what was found. So sections are read alike behind
any others that are fine: they add the same entries, and a fault in them stands at the same distance
from their first byte (`readModule_append_sections`).
-/

namespace HostAbi

namespace Reader

variable {α β : Type} {k : Nat}

/-- Whether something that keeps what it finds before a fault does the same `k` places later in the
file. -/
structure Carries (k : Nat) (s : Cursor → β × Except Fault Cursor) : Prop where
  ok : ∀ {c c' b}, 0 < c.pos → s c = (b, .ok c') →
    0 < c'.pos ∧ s (c.later k) = (b, .ok (c'.later k))
  fault : ∀ {c f b}, 0 < c.pos → s c = (b, .error f) → s (c.later k) = (b, .error (f.later k))

theorem Moves.fault? {r r' : Reader α} (hr : Moves k r r') {c : Cursor} (hc : 0 < c.pos) :
    Reader.fault? r' (c.later k) = (Reader.fault? r c).map (·.later k) := by
  unfold Reader.fault?
  rcases h : r c with f | ⟨a, c'⟩
  · rw [hr.fault hc h]
    rfl
  · rw [(hr.ok hc h).2]
    rfl

theorem entries_cons {entry : Reader α} {n : Nat} {found : List α} {c c' : Cursor} {a : α}
    (h : entry c = .ok (a, c')) :
    entries entry (n + 1) found c = entries entry n (a :: found) c' := by
  simp only [entries, h]

theorem carries_entries {entry : Reader α} (he : Moves k entry entry) :
    ∀ (n : Nat) (found : List α), Carries k (entries entry n found)
  | 0, found =>
    { ok := fun hc h => by
        cases h
        exact ⟨hc, rfl⟩
      fault := fun _ h => by cases h }
  | n + 1, found =>
    { ok := fun {c _ _} hc h => by
        rcases ha : entry c with f | ⟨a, c₁⟩
        · simp [entries, ha] at h
        · obtain ⟨hc₁, ha'⟩ := he.ok hc ha
          rw [entries_cons ha] at h
          rw [entries_cons ha']
          exact (carries_entries he n _).ok hc₁ h
      fault := fun {c _ _} hc h => by
        rcases ha : entry c with f | ⟨a, c₁⟩
        · simp only [entries, ha] at h
          cases h
          simp only [entries, he.fault hc ha]
        · obtain ⟨hc₁, ha'⟩ := he.ok hc ha
          rw [entries_cons ha] at h
          rw [entries_cons ha']
          exact (carries_entries he n _).fault hc₁ h }

theorem listing_later {entry : Reader α} (he : Moves k entry entry) {body : Cursor}
    (hb : 0 < body.pos) : listing entry (body.later k) =
      ((listing entry body).1, (listing entry body).2.map (·.later k)) := by
  unfold listing
  rcases hn : u32 body with f | ⟨n, c⟩
  · rw [moves_u32.fault hb hn]
    rfl
  · obtain ⟨hc, hn'⟩ := moves_u32.ok (k := k) hb hn
    rw [hn']
    rcases hl : entries entry n [] c with ⟨found, f | c'⟩
    · simp only [(carries_entries he n []).fault hc hl, hl, Option.map_some]
    · obtain ⟨hc', hl'⟩ := (carries_entries he n []).ok hc hl
      simp only [hl, hl', (moves_finish _).fault? hc']

end Reader

open Reader

variable {k : Nat}

namespace SectionKind

theorem readBody_later (body : Cursor) (hb : 0 < body.pos) : ∀ kind : SectionKind,
    kind.readBody (body.later k) =
      ((kind.readBody body).1, (kind.readBody body).2.map (·.later k))
  | .custom => by simp only [readBody, moves_name.fault? hb]
  | .counted => by simp only [readBody, moves_u32.fault? hb]
  | .lone leftover => by simp only [readBody, (moves_loneNumber leftover).fault? hb]
  | .code | .skipped => rfl
  | .imports => by simp only [readBody, listing_later moves_importEntry hb]
  | .exports => by simp only [readBody, listing_later moves_exportEntry hb]

theorem read_code (length : Nat) (c : Cursor) :
    SectionKind.code.read length c = ({}, (Reader.code length c).map (·.2)) := rfl

theorem carries_read_code (length : Nat) : Carries k (SectionKind.code.read length) where
  ok {c _ _} hc h := by
    rw [read_code] at h ⊢
    rcases hr : Reader.code length c with f | ⟨u, c₁⟩ <;> rw [hr] at h <;> cases h
    obtain ⟨hc₁, hr'⟩ := (moves_code length).ok (k := k) hc hr
    exact ⟨hc₁, by rw [hr']; rfl⟩
  fault {c _ _} hc h := by
    obtain ⟨hr, hfound⟩ := read_code_eq_error.1 h
    exact read_code_eq_error.2 ⟨(moves_code length).fault hc hr, hfound⟩

/-- The body is taken from the file, and read at the place where it stands there. -/
theorem carries_read_body {kind : SectionKind} (hk : kind ≠ .code) (length : Nat) :
    Carries k (kind.read length) where
  ok {c c' _} hc h := by
    obtain ⟨body, ht, hb⟩ := (read_body_eq_ok hk).1 h
    obtain ⟨hc', ht'⟩ := (moves_take length).ok (k := k) hc ht
    have hb' := readBody_later (k := k) ⟨body, c.pos⟩ hc kind
    rw [hb] at hb'
    exact ⟨hc', (read_body_eq_ok hk).2 ⟨body, ht', hb'⟩⟩
  fault {c _ _} hc h := by
    rcases (read_eq_error hk).1 h with ⟨ht, hfound⟩ | ⟨body, c', ht, hb⟩
    · exact (read_eq_error hk).2 (.inl ⟨(moves_take length).fault hc ht, hfound⟩)
    · obtain ⟨_, ht'⟩ := (moves_take length).ok (k := k) hc ht
      have hb' := readBody_later (k := k) ⟨body, c.pos⟩ hc kind
      rw [hb] at hb'
      exact (read_eq_error hk).2 (.inr ⟨body, _, ht', hb'⟩)

theorem carries_read (length : Nat) (kind : SectionKind) : Carries k (kind.read length) := by
  by_cases hk : kind = .code
  · rw [hk]
    exact carries_read_code length
  · exact carries_read_body hk length

end SectionKind

theorem carries_readSection : Carries k readSection where
  ok {c _ _} hc h := by
    rcases hs : sectionHead c with f | ⟨⟨id, length⟩, c₁⟩
    · rw [readSection_of_fault hs] at h
      cases h
    · obtain ⟨hc₁, hs'⟩ := moves_sectionHead.ok (k := k) hc hs
      rw [readSection_of_head hs] at h
      rw [readSection_of_head hs']
      exact (SectionKind.carries_read length _).ok hc₁ h
  fault {c _ _} hc h := by
    rcases hs : sectionHead c with f | ⟨⟨id, length⟩, c₁⟩
    · rw [readSection_of_fault hs] at h
      cases h
      exact readSection_of_fault (moves_sectionHead.fault hc hs)
    · obtain ⟨hc₁, hs'⟩ := moves_sectionHead.ok (k := k) hc hs
      rw [readSection_of_head hs] at h
      rw [readSection_of_head hs']
      exact (SectionKind.carries_read length _).fault hc₁ h

/-- The same sections later in the file. -/
theorem readSections_later (c : Cursor) (found : Interface) (hc : 0 < c.pos) :
    readSections (c.later k) found =
      ((readSections c found).1, (readSections c found).2.map (·.later k)) := by
  fun_induction readSections c found with
  | case1 c found h =>
    rw [readSections.eq_def, if_pos (show (c.later k).rest.isEmpty = true from h)]
    rfl
  | case2 c found hrest new f h =>
    have hrest : (c.later k).rest.isEmpty = false := Bool.eq_false_iff.2 hrest
    rw [readSections_of_error hrest (carries_readSection.fault hc h)]
    rfl
  | case3 c found hrest new c' h _ ih =>
    have hrest : (c.later k).rest.isEmpty = false := Bool.eq_false_iff.2 hrest
    obtain ⟨hc', h'⟩ := carries_readSection.ok (k := k) hc h
    rw [readSections_of_ok hrest h', ih hc']

/-- Sections behind sections that are fine are read from where those end. -/
theorem readSections_extend_of_ok (more : List UInt8) {c : Cursor} {found found' : Interface}
    (h : readSections c found = (found', none)) :
    readSections (c.extend more) found = readSections ⟨more, c.pos + c.rest.length⟩ found' := by
  fun_induction readSections c found with
  | case1 c found hrest =>
    obtain rfl : found = found' := (Prod.mk.inj h).1
    simp [Cursor.extend, List.isEmpty_iff.1 hrest]
  | case2 => cases h
  | case3 c found hrest new c' hc _ ih =>
    obtain ⟨_, bs, -, -, hbytes, hpos⟩ := readSection_eq_ok.1 hc
    have hend : c'.pos + c'.rest.length = c.pos + c.rest.length := by
      rw [hbytes, hpos, List.length_append]
      omega
    rw [readSections_of_ok (isEmpty_extend more hrest) (readSection_extend_ok more hc), ih h, hend]

section Module

variable {h a : List UInt8}

theorem length_header (hh : Grammar.Header h) : h.length = 8 := by
  cases hh
  rfl

theorem readModule_of_header (hh : Grammar.Header h) (bs : List UInt8) : readModule (h ++ bs) =
    ⟨(readSections ⟨bs, 8⟩ {}).1.sorted, (readSections ⟨bs, 8⟩ {}).2.elim .ok .faulty⟩ :=
  readModule_of_coreModule
    (Reader.header_eq_coreModule.2 ⟨h, hh, rfl, by simp [length_header hh]⟩)

theorem sections_of_status_ok (hh : Grammar.Header h)
    (ha : (readModule (h ++ a)).verdict.analysis.status = "ok") :
    (readSections ⟨a, 8⟩ {}).2 = none := by
  have hv := Verdict.status_eq_ok.1 ha
  rw [readModule_of_header hh] at hv
  rcases hs : (readSections ⟨a, 8⟩ {}).2 with _ | f
  · rfl
  · rw [hs] at hv
    cases hv

/-- Sections behind others are read where those end, which is as many places later as those have
bytes. -/
theorem readModule_append_eq (hh : Grammar.Header h)
    (ha : (readModule (h ++ a)).verdict.analysis.status = "ok") (b : List UInt8) :
    readModule (h ++ a ++ b) =
      ⟨((readSections ⟨b, 8⟩ {}).1 ++ (readSections ⟨a, 8⟩ {}).1).sorted,
        ((readSections ⟨b, 8⟩ {}).2.map (·.later a.length)).elim .ok .faulty⟩ := by
  have hfirst : readSections ⟨a, 8⟩ {} = ((readSections ⟨a, 8⟩ {}).1, none) := by
    rw [← sections_of_status_ok hh ha]
  have hboth : readSections ⟨a ++ b, 8⟩ {} =
      readSections ⟨b, 8 + a.length⟩ (readSections ⟨a, 8⟩ {}).1 :=
    readSections_extend_of_ok b hfirst
  have hsecond : readSections ⟨b, 8 + a.length⟩ {} = _ :=
    readSections_later (k := a.length) ⟨b, 8⟩ {} (Nat.succ_pos 7)
  rw [List.append_assoc, readModule_of_header hh, hboth, readSections_eq_append, hsecond]

end Module

/-- The faults that a file was found to have. -/
def Verdict.faults : Verdict → List Fault
  | .faulty f => [f]
  | .ok | .component => []

theorem perm_swap_append {α : Type} {l l' s s' both : List α} (hboth : both.Perm (l ++ l'))
    (hs : s.Perm l) (hs' : s'.Perm l') : both.Perm (s' ++ s) :=
  (hboth.trans List.perm_append_comm).trans (hs'.symm.append hs.symm)

theorem Interface.sorted_append_perm (I J : Interface) :
    (I ++ J).sorted.imports.Perm (J.sorted.imports ++ I.sorted.imports) ∧
      (I ++ J).sorted.exports.Perm (J.sorted.exports ++ I.sorted.exports) :=
  ⟨perm_swap_append (I ++ J).sorted_imports_perm I.sorted_imports_perm J.sorted_imports_perm,
    perm_swap_append (I ++ J).sorted_exports_perm I.sorted_exports_perm J.sorted_exports_perm⟩

/-- Sections behind others that are fine have the same status as on their own. The entries are
those of both, and a warning is the same but for its offset, which is larger by the length of the
others. -/
theorem readModule_append_sections {h a : List UInt8} (hh : Grammar.Header h)
    (ha : (readModule (h ++ a)).verdict.analysis.status = "ok") (b : List UInt8) :
    (readModule (h ++ a ++ b)).verdict.analysis.status =
        (readModule (h ++ b)).verdict.analysis.status ∧
      (readModule (h ++ a ++ b)).interface.imports.Perm
        ((readModule (h ++ a)).interface.imports ++ (readModule (h ++ b)).interface.imports) ∧
      (readModule (h ++ a ++ b)).interface.exports.Perm
        ((readModule (h ++ a)).interface.exports ++ (readModule (h ++ b)).interface.exports) ∧
      (readModule (h ++ a ++ b)).interface.Ordered ∧
      (readModule (h ++ b)).verdict.analysis.warnings =
        (readModule (h ++ b)).verdict.faults.map (·.message) ∧
      (readModule (h ++ a ++ b)).verdict.analysis.warnings =
        (readModule (h ++ b)).verdict.faults.map fun f =>
          (Fault.mk f.cause (f.offset + a.length)).message := by
  rw [readModule_append_eq hh ha, readModule_of_header hh a, readModule_of_header hh b]
  have hentries :=
    Interface.sorted_append_perm (readSections ⟨b, 8⟩ {}).1 (readSections ⟨a, 8⟩ {}).1
  refine ⟨?_, hentries.1, hentries.2, Interface.ordered_sorted _, ?_, ?_⟩ <;>
    rcases (readSections ⟨b, 8⟩ {}).2 with _ | f <;> rfl

/-- The header of a core module of the first version. -/
def plainHeader : List UInt8 := [0x00, 0x61, 0x73, 0x6d, 0x01, 0x00, 0x00, 0x00]

/-- A section with an import. -/
def importSection : List UInt8 := [0x02, 0x07, 0x01, 0x01, 0x62, 0x01, 0x62, 0x00, 0x00]

/-- A section that says it has two imports and has one. -/
def shortSection : List UInt8 := [0x02, 0x07, 0x02, 0x01, 0x61, 0x01, 0x61, 0x00, 0x00]

theorem importSection_append_shortSection :
    Grammar.Header plainHeader ∧
      (readModule (plainHeader ++ importSection)).verdict.analysis.status = "ok" ∧
      (readModule (plainHeader ++ shortSection)).verdict = .faulty ⟨.unexpectedEnd, 17⟩ ∧
      (readModule (plainHeader ++ importSection ++ shortSection)).interface.imports.Perm
        [⟨"b", "b", "func"⟩, ⟨"a", "a", "func"⟩] ∧
      (readModule (plainHeader ++ importSection ++ shortSection)).verdict.analysis.warnings =
        ["unexpected end-of-file (at offset 0x1a)"] := by
  have hh : Grammar.Header plainHeader := .mk 1 0
  have ha : readModule (plainHeader ++ importSection) =
      ⟨⟨[⟨"b", "b", "func"⟩], []⟩, .ok⟩ := by decide +kernel
  have hb : readModule (plainHeader ++ shortSection) =
      ⟨⟨[⟨"a", "a", "func"⟩], []⟩, .faulty ⟨.unexpectedEnd, 17⟩⟩ := by decide +kernel
  have hok : (readModule (plainHeader ++ importSection)).verdict.analysis.status = "ok" := by
    rw [ha]
    rfl
  have h := readModule_append_sections hh hok shortSection
  rw [ha, hb] at h
  exact ⟨hh, hok, by rw [hb], h.2.1, h.2.2.2.2.2.trans (by decide +kernel)⟩

end HostAbi

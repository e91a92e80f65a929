import HostAbi.Proofs.Composition
import Mathlib

/-!
# Declared counts

An import or export section declares how many entries it has and then has some number of them. If
they are more than declared then the section ends too late, at the first that was not declared for.
If they are fewer then it ends too early, at the end of its body, and nothing behind it is read.
Either way the entries that were read are kept, together with those of the sections before
(`readModule_declared_count`).
-/

namespace HostAbi

/-- The sections that list entries. -/
inductive EntryList where
  | imports
  | exports
  deriving DecidableEq

namespace EntryList

/-- The id of a section that lists entries. -/
def id : EntryList → UInt8
  | .imports => 2
  | .exports => 7

/-- What a section lists. -/
def Entry : EntryList → Type
  | .imports => Import
  | .exports => Export

/-- The reader of an entry. -/
def reader : (k : EntryList) → Reader k.Entry
  | .imports => Reader.importEntry
  | .exports => Reader.exportEntry

/-- The forms of an entry. -/
def Form : (k : EntryList) → k.Entry → List UInt8 → Prop
  | .imports => Grammar.ImportEntry
  | .exports => Grammar.ExportEntry

/-- What entries add to an interface. -/
def interface : (k : EntryList) → List k.Entry → Interface
  | .imports, is => { imports := is }
  | .exports, es => { exports := es }

theorem reads_reader : ∀ k : EntryList, k.reader.Reads k.Form
  | .imports => Reader.reads_importEntry
  | .exports => Reader.reads_exportEntry

theorem reader_nil (pos : Nat) : ∀ k : EntryList,
    k.reader ⟨[], pos⟩ = .error ⟨.unexpectedEnd, pos⟩
  | .imports => rfl
  | .exports => rfl

theorem interface_reverse : ∀ (k : EntryList) (es : List k.Entry),
    k.interface es.reverse = (k.interface es).reverse
  | .imports, _ => rfl
  | .exports, _ => rfl

theorem ofId_ne_code : ∀ k : EntryList, SectionKind.ofId k.id ≠ .code
  | .imports | .exports => by decide

theorem readBody_eq (body : Cursor) : ∀ k : EntryList, (SectionKind.ofId k.id).readBody body =
    (k.interface (Reader.listing k.reader body).1, (Reader.listing k.reader body).2)
  | .imports => rfl
  | .exports => rfl

end EntryList

namespace Reader

variable {α : Type} {entry : Reader α} {G : α → List UInt8 → Prop} {as : List α}
  {bs : List UInt8}

/-! ## Entries -/

theorem entries_of_sequence (he : entry.Reads G) (has : Grammar.Sequence G as bs)
    (rest : List UInt8) (pos : Nat) : entries entry as.length [] ⟨bs ++ rest, pos⟩ =
      (as.reverse, .ok ⟨rest, pos + bs.length⟩) :=
  (entries_eq_ok he).2 ⟨as, bs, rfl, has, (List.append_nil _).symm, rfl, rfl⟩

/-- Where there are fewer entries than asked for, all of them are read before the end is met. -/
theorem entries_of_sequence_lt (he : entry.Reads G)
    (hend : ∀ pos, entry ⟨[], pos⟩ = .error ⟨.unexpectedEnd, pos⟩)
    (has : Grammar.Sequence G as bs) : ∀ {n : Nat} (found : List α) (pos : Nat), as.length < n →
      entries entry n found ⟨bs, pos⟩ =
        (as.reverse ++ found, .error ⟨.unexpectedEnd, pos + bs.length⟩) := by
  induction has with
  | nil =>
    intro n found pos hn
    obtain ⟨n, rfl⟩ := Nat.exists_eq_succ_of_ne_zero hn.ne'
    simp only [entries, hend]
    rfl
  | @cons a as bs bs' ha has ih =>
    intro n found pos hn
    obtain ⟨n, rfl⟩ := Nat.exists_eq_succ_of_ne_zero (Nat.ne_zero_of_lt hn)
    have hfirst : entry ⟨bs ++ bs', pos⟩ = .ok (a, ⟨bs', pos + bs.length⟩) :=
      (he _ _ _).2 ⟨bs, ha, rfl, rfl⟩
    rw [entries_cons hfirst, ih (a :: found) _ (Nat.lt_of_succ_lt_succ hn)]
    simp [Nat.add_assoc]

section Listing

variable {n pos : Nat} {count : List UInt8} {found : List α}

theorem u32_of_form (hcount : Grammar.U32 n count) :
    u32 ⟨count ++ bs, pos⟩ = .ok (n, ⟨bs, pos + count.length⟩) :=
  (reads_u32 _ _ _).2 ⟨count, hcount, rfl, rfl⟩

theorem listing_of_ok (hcount : Grammar.U32 n count) {c : Cursor}
    (h : entries entry n [] ⟨bs, pos + count.length⟩ = (found, .ok c)) :
    listing entry ⟨count ++ bs, pos⟩ = (found, (finish .sectionSizeMismatch).fault? c) := by
  simp only [listing, u32_of_form hcount, h]

theorem listing_of_error (hcount : Grammar.U32 n count) {f : Fault}
    (h : entries entry n [] ⟨bs, pos + count.length⟩ = (found, .error f)) :
    listing entry ⟨count ++ bs, pos⟩ = (found, some f) := by
  simp only [listing, u32_of_form hcount, h]

theorem finish_fault?_of_ne_nil {leftover : Cause} {rest : List UInt8} (h : rest ≠ []) :
    (finish leftover).fault? ⟨rest, pos⟩ = some ⟨leftover, pos⟩ := by
  obtain ⟨b, rest, rfl⟩ := List.exists_cons_of_ne_nil h
  rfl

/-- Bytes behind the entries that were declared are left over. -/
theorem listing_of_leftover (he : entry.Reads G) (has : Grammar.Sequence G as bs)
    (hcount : Grammar.U32 as.length count) {rest : List UInt8} (hrest : rest ≠ []) :
    listing entry ⟨count ++ (bs ++ rest), pos⟩ =
      (as.reverse, some ⟨.sectionSizeMismatch, pos + count.length + bs.length⟩) := by
  rw [listing_of_ok hcount (entries_of_sequence he has rest _), finish_fault?_of_ne_nil hrest]

/-- Entries that were declared and are not there are missed at the end of the body. -/
theorem listing_of_missing (he : entry.Reads G)
    (hend : ∀ pos, entry ⟨[], pos⟩ = .error ⟨.unexpectedEnd, pos⟩)
    (has : Grammar.Sequence G as bs) (hcount : Grammar.U32 n count) (hn : as.length < n) :
    listing entry ⟨count ++ bs, pos⟩ =
      (as.reverse, some ⟨.unexpectedEnd, pos + count.length + bs.length⟩) := by
  have hentries := entries_of_sequence_lt he hend has [] (pos + count.length) hn
  rw [List.append_nil] at hentries
  exact listing_of_error hcount hentries

end Listing

end Reader

/-! ## Sections -/

section Section

variable {k : EntryList} {length body : List UInt8} {pos : Nat} (rest : List UInt8)

/-- A section with a fault in its list of entries, wherever it stands. -/
theorem readSection_of_listing (hlength : Grammar.U32 body.length length) {f : Fault}
    {es : List k.Entry}
    (h : Reader.listing k.reader ⟨body, pos + (length.length + 1)⟩ = (es, some f)) :
    readSection ⟨k.id :: length ++ body ++ rest, pos⟩ = (k.interface es, .error f) := by
  have hid : k.id < 0x80 := by cases k <;> decide
  have hhead : Reader.sectionHead ⟨k.id :: length ++ body ++ rest, pos⟩ =
      .ok ((k.id, body.length), ⟨body ++ rest, pos + (length.length + 1)⟩) :=
    (Reader.reads_sectionHead _ _ _).2 ⟨k.id :: length, ⟨hid, length, hlength, rfl⟩, by simp, rfl⟩
  have htake : Reader.take body.length ⟨body ++ rest, pos + (length.length + 1)⟩ =
      .ok (body, ⟨rest, pos + (length.length + 1) + body.length⟩) :=
    Reader.take_eq_ok.2 ⟨rfl, rfl, rfl⟩
  rw [readSection_of_head hhead]
  refine (SectionKind.read_eq_error k.ofId_ne_code).2 (.inr ⟨body, _, htake, ?_⟩)
  rw [k.readBody_eq, h]

/-- Sections that are fine add what they declare, and reading goes on behind them. -/
theorem readSections_of_sequence {parts : List Interface} {before : List UInt8}
    (hbefore : Grammar.Sequence Grammar.Section parts before) (bs : List UInt8) (pos : Nat) :
    readSections ⟨before ++ bs, pos⟩ {} =
      readSections ⟨bs, pos + before.length⟩ (Interface.join parts).reverse := by
  have hfirst : readSections ⟨before, pos⟩ {} = ((Interface.join parts).reverse, none) :=
    readSections_eq_none.2 ⟨parts, hbefore, (Interface.append_empty _).symm⟩
  exact readSections_extend_of_ok bs hfirst

/-- Sections that are fine, and then one with a fault in its list of entries. -/
theorem readModule_of_listing {header before : List UInt8} {parts : List Interface}
    (hheader : Grammar.Header header) (hbefore : Grammar.Sequence Grammar.Section parts before)
    (hlength : Grammar.U32 body.length length) {f : Fault} {es : List k.Entry}
    (h : Reader.listing k.reader ⟨body, header.length + before.length + (length.length + 1)⟩ =
      (es.reverse, some f)) :
    readModule (header ++ (before ++ (k.id :: length ++ body ++ rest))) =
      ⟨(.join parts ++ k.interface es).sorted, .faulty f⟩ := by
  have hsection := readSection_of_listing rest hlength h
  have hrest : (k.id :: length ++ body ++ rest).isEmpty = false := rfl
  rw [readModule_of_header hheader, readSections_of_sequence hbefore, ← length_header hheader,
    readSections_of_error hrest hsection, k.interface_reverse, ← Interface.reverse_append,
    Interface.sorted_reverse]
  rfl

end Section

/-- The same verdict, with a fault `k` places later in the file. -/
def Verdict.later : Verdict → Nat → Verdict
  | .faulty f, k => .faulty (f.later k)
  | .ok, _ => .ok
  | .component, _ => .component

theorem Verdict.elim_later (fault : Option Fault) (k : Nat) :
    (fault.map (·.later k)).elim Verdict.ok .faulty = (fault.elim Verdict.ok .faulty).later k := by
  cases fault <;> rfl

theorem Interface.sorted_append_sorted (I J : Interface) :
    (I ++ J.sorted).sorted = (J ++ I.reverse).sorted :=
  sorted_congr
    (List.perm_append_comm.trans (J.sorted_imports_perm.append (List.reverse_perm _).symm))
    (List.perm_append_comm.trans (J.sorted_exports_perm.append (List.reverse_perm _).symm))

/-- Behind sections that are fine everything is read as if they were not there, only later. -/
theorem readModule_of_sequence {header before : List UInt8} {parts : List Interface}
    (hheader : Grammar.Header header) (hbefore : Grammar.Sequence Grammar.Section parts before)
    (rest : List UInt8) : readModule (header ++ (before ++ rest)) =
      ⟨(.join parts ++ (readModule (header ++ rest)).interface).sorted,
        (readModule (header ++ rest)).verdict.later before.length⟩ := by
  have hlater : readSections ⟨rest, 8 + before.length⟩ {} = _ :=
    readSections_later (k := before.length) ⟨rest, 8⟩ {} (Nat.succ_pos 7)
  rw [readModule_of_header hheader, readModule_of_header hheader rest,
    readSections_of_sequence hbefore, readSections_eq_append, hlater, Verdict.elim_later,
    Interface.sorted_append_sorted]

namespace Grammar

variable {α : Type} {G : α → List UInt8 → Prop}

theorem Sequence.of_forms : ∀ {forms : List (α × List UInt8)}, (∀ p ∈ forms, G p.1 p.2) →
    Sequence G (forms.map (·.1)) (forms.flatMap (·.2))
  | [], _ => .nil
  | p :: _, h => .cons (h p List.mem_cons_self)
    (.of_forms fun q hq => h q (List.mem_cons_of_mem p hq))

theorem Sequence.concat {as : List α} {bs : List UInt8} (has : Sequence G as bs) {a : α}
    {bs' : List UInt8} (ha : G a bs') : Sequence G (as ++ [a]) (bs ++ bs') := by
  induction has with
  | nil => simpa using Sequence.cons ha .nil
  | cons hb _ ih =>
    rw [List.append_assoc]
    exact .cons hb ih

end Grammar

theorem Interface.join_concat (I : Interface) : ∀ parts : List Interface,
    join (parts ++ [I]) = join parts ++ I
  | [] => append_empty I
  | J :: parts => by
    show J ++ join (parts ++ [I]) = J ++ join parts ++ I
    rw [join_concat I parts, append_assoc]

namespace EntryList

theorem form_ne_nil {k : EntryList} {e : k.Entry} {bs : List UInt8} (h : k.Form e bs) :
    bs ≠ [] := by
  rintro rfl
  have hread := (k.reads_reader ⟨[], 0⟩ e ⟨[], 0⟩).2 ⟨[], h, rfl, rfl⟩
  rw [k.reader_nil] at hread
  cases hread

theorem section_of_listing {k : EntryList} {es : List k.Entry} {length body : List UInt8}
    (hlength : Grammar.U32 body.length length) (h : Grammar.Listing k.Form es body) :
    Grammar.Section (k.interface es) (k.id :: length ++ body) := by
  cases k with
  | imports => exact .mk (by decide) hlength (.imports h)
  | exports => exact .mk (by decide) hlength (.exports h)

end EntryList

/-- A module file with a section that lists entries, in any form, behind sections that are fine.
How many entries it declares has nothing to do with how many there are. -/
structure CountedFile (k : EntryList) where
  header : List UInt8
  before : List UInt8
  length : List UInt8
  count : List UInt8
  forms : List (k.Entry × List UInt8)
  rest : List UInt8
  parts : List Interface
  declared : Nat
  header_form : Grammar.Header header
  before_form : Grammar.Sequence Grammar.Section parts before
  length_form : Grammar.U32 (count ++ forms.flatMap (·.2)).length length
  count_form : Grammar.U32 declared count
  entry_form : ∀ p ∈ forms, k.Form p.1 p.2

namespace CountedFile

variable {k : EntryList} (F : CountedFile k)

/-- The body of the section: the declared count, and then the entries that there are. -/
def body : List UInt8 := F.count ++ F.forms.flatMap (·.2)

/-- All sections up to the one that lists the entries. -/
def sections : List UInt8 := F.before ++ (k.id :: F.length ++ F.body)

/-- The whole file. The length of the section is right, whatever the count is. -/
def bytes : List UInt8 := F.header ++ (F.sections ++ F.rest)

/-- Where in the file the entry stands that has `i` entries before it. -/
def offset (i : Nat) : Nat :=
  (F.header ++ F.before ++ k.id :: F.length ++ F.count).length +
    ((F.forms.take i).flatMap (·.2)).length

/-- What the sections before declare, and the first `i` entries. -/
def kept (i : Nat) : Interface := .join F.parts ++ k.interface ((F.forms.take i).map (·.1))

theorem sequence_take (i : Nat) : Grammar.Sequence k.Form ((F.forms.take i).map (·.1))
    ((F.forms.take i).flatMap (·.2)) :=
  .of_forms fun p hp => F.entry_form p (List.mem_of_mem_take hp)

theorem flatMap_forms (i : Nat) : F.forms.flatMap (·.2) =
    (F.forms.take i).flatMap (·.2) ++ (F.forms.drop i).flatMap (·.2) := by
  rw [← List.flatMap_append, List.take_append_drop]

/-- No entry is without bytes. -/
theorem flatMap_drop_ne_nil {i : Nat} (hi : i < F.forms.length) :
    (F.forms.drop i).flatMap (·.2) ≠ [] := by
  rw [List.drop_eq_getElem_cons hi, List.flatMap_cons]
  exact List.append_ne_nil_of_left_ne_nil
    (EntryList.form_ne_nil (F.entry_form _ (List.getElem_mem hi))) _

theorem length_map_take (i : Nat) : ((F.forms.take i).map (·.1)).length = min i F.forms.length := by
  rw [List.length_map, List.length_take]

/-- Behind the last entry is the end of the section. -/
theorem offset_length : F.offset F.forms.length = (F.header ++ F.sections).length := by
  rw [offset, List.take_length]
  simp only [sections, body, List.length_append, List.length_cons]
  omega

/-- A fault among the entries, behind the first `i` of them. -/
theorem readModule_bytes_of_listing {i : Nat} {cause : Cause}
    (h : ∀ pos, Reader.listing k.reader ⟨F.body, pos⟩ = (((F.forms.take i).map (·.1)).reverse,
      some ⟨cause, pos + F.count.length + ((F.forms.take i).flatMap (·.2)).length⟩)) :
    readModule F.bytes = ⟨(F.kept i).sorted, .faulty ⟨cause, F.offset i⟩⟩ := by
  have hbytes : F.bytes =
      F.header ++ (F.before ++ (k.id :: F.length ++ F.body ++ F.rest)) := by
    simp only [bytes, sections, List.append_assoc]
  have hoffset : F.offset i = F.header.length + F.before.length + (F.length.length + 1) +
      F.count.length + ((F.forms.take i).flatMap (·.2)).length := by
    simp only [offset, List.length_append, List.length_cons]
  rw [hbytes, hoffset]
  exact readModule_of_listing F.rest F.header_form F.before_form F.length_form (h _)

theorem readModule_of_declared_lt (h : F.declared < F.forms.length) : readModule F.bytes =
    ⟨(F.kept F.declared).sorted, .faulty ⟨.sectionSizeMismatch, F.offset F.declared⟩⟩ := by
  refine F.readModule_bytes_of_listing fun pos => ?_
  have hcount : Grammar.U32 ((F.forms.take F.declared).map (·.1)).length F.count := by
    rw [F.length_map_take, Nat.min_eq_left h.le]
    exact F.count_form
  rw [body, F.flatMap_forms F.declared]
  exact Reader.listing_of_leftover k.reads_reader (F.sequence_take F.declared) hcount
    (F.flatMap_drop_ne_nil h)

theorem readModule_of_lt_declared (h : F.forms.length < F.declared) :
    readModule F.bytes = ⟨(F.kept F.forms.length).sorted,
      .faulty ⟨.unexpectedEnd, (F.header ++ F.sections).length⟩⟩ := by
  rw [← F.offset_length]
  refine F.readModule_bytes_of_listing fun pos => ?_
  have hall := F.sequence_take F.forms.length
  rw [List.take_length] at hall ⊢
  exact Reader.listing_of_missing k.reads_reader (k.reader_nil ·) hall F.count_form
    (by rwa [List.length_map])

theorem readModule_of_declared_eq (h : F.declared = F.forms.length) : readModule F.bytes =
    ⟨(F.kept F.forms.length ++ (readModule (F.header ++ F.rest)).interface).sorted,
      (readModule (F.header ++ F.rest)).verdict.later F.sections.length⟩ := by
  have hall := F.sequence_take F.forms.length
  have hcount : Grammar.U32 (F.forms.map (·.1)).length F.count := by
    rw [List.length_map, ← h]
    exact F.count_form
  rw [List.take_length] at hall
  have hsection : Grammar.Section (k.interface (F.forms.map (·.1))) (k.id :: F.length ++ F.body) :=
    EntryList.section_of_listing F.length_form ⟨F.count, _, hcount, hall, rfl⟩
  rw [bytes, sections, readModule_of_sequence F.header_form (F.before_form.concat hsection), kept,
    List.take_length, Interface.join_concat]

end CountedFile

/-- With fewer entries declared than there are, those are read and the next one is where the
section should have ended. With more declared, all are read and the next one is missed where the
section ends, and the rest of the file is of no matter. With as many declared, the rest of the file
is read as it would be without the sections up to there. -/
theorem readModule_declared_count (k : EntryList) (F : CountedFile k) :
    (F.declared < F.forms.length →
      (readModule F.bytes).interface = (F.kept F.declared).sorted ∧
        (readModule F.bytes).verdict.analysis = .parseError
          ("section size mismatch: unexpected data at the end of the section" ++ " (at offset 0x" ++
            Hex.ofNat (F.offset F.declared) ++ ")")) ∧
      (F.forms.length < F.declared →
        (readModule F.bytes).interface = (F.kept F.forms.length).sorted ∧
          (readModule F.bytes).verdict.analysis = .parseError
            ("unexpected end-of-file" ++ " (at offset 0x" ++
              Hex.ofNat (F.header ++ F.sections).length ++ ")")) ∧
      (F.declared = F.forms.length →
        (readModule F.bytes).interface =
            (F.kept F.forms.length ++ (readModule (F.header ++ F.rest)).interface).sorted ∧
          (readModule F.bytes).verdict =
            (readModule (F.header ++ F.rest)).verdict.later F.sections.length) := by
  refine ⟨fun h => ?_, fun h => ?_, fun h => ?_⟩
  · rw [F.readModule_of_declared_lt h]
    exact ⟨rfl, rfl⟩
  · rw [F.readModule_of_lt_declared h]
    exact ⟨rfl, rfl⟩
  · rw [F.readModule_of_declared_eq h]
    exact ⟨rfl, rfl⟩

theorem EntryList.form_of_reader {k : EntryList} {e : k.Entry} {bs : List UInt8}
    (h : k.reader ⟨bs, 0⟩ = .ok (e, ⟨[], bs.length⟩)) : k.Form e bs := by
  obtain ⟨bs', hform, hbs, -⟩ := (k.reads_reader _ _ _).1 h
  rwa [show bs = bs' by simpa using hbs]

theorem Grammar.u32_ofNat {n : Nat} (hn : n < 0x80) : U32 n [UInt8.ofNat n] := by
  have hbyte : (UInt8.ofNat n).toNat = n := UInt8.toNat_ofNat_of_lt' (hn.trans (by decide))
  have hform : U32 (UInt8.ofNat n).toNat [UInt8.ofNat n] :=
    .short (by rw [UInt8.lt_iff_toNat_lt, hbyte]; exact hn)
  rwa [hbyte] at hform

/-- A file with a custom section, two imports of which some number is declared, and a byte that
starts no section. -/
def twoImports (declared : Nat) (h : declared < 0x80) : CountedFile .imports where
  header := plainHeader
  before := [0x00, 0x01, 0x00]
  length := [0x0d]
  count := [UInt8.ofNat declared]
  forms := [(⟨"a", "a", "func"⟩, [0x01, 0x61, 0x01, 0x61, 0x00, 0x00]),
    (⟨"b", "b", "func"⟩, [0x01, 0x62, 0x01, 0x62, 0x00, 0x00])]
  rest := [0x80]
  parts := [{}]
  declared := declared
  header_form := .mk 1 0
  before_form :=
    have hname : Grammar.Name "" [0x00] := ⟨[0x00], Grammar.u32_ofNat (by decide), by decide, rfl⟩
    have hsection : Grammar.Section {} (0x00 :: [0x01] ++ ([0x00] ++ [])) :=
      .mk (by decide) (Grammar.u32_ofNat (n := 1) (by decide)) (.custom hname)
    .cons hsection .nil
  length_form := Grammar.u32_ofNat (n := 13) (by decide)
  count_form := Grammar.u32_ofNat h
  entry_form := by
    simp only [List.forall_mem_cons]
    exact ⟨EntryList.form_of_reader rfl, EntryList.form_of_reader rfl, by simp⟩

theorem twoImports_read :
    ((readModule (twoImports 1 (by decide)).bytes).interface = ⟨[⟨"a", "a", "func"⟩], []⟩ ∧
        (readModule (twoImports 1 (by decide)).bytes).verdict.analysis = .parseError
          "section size mismatch: unexpected data at the end of the section (at offset 0x14)") ∧
      ((readModule (twoImports 3 (by decide)).bytes).interface =
          ⟨[⟨"a", "a", "func"⟩, ⟨"b", "b", "func"⟩], []⟩ ∧
        (readModule (twoImports 3 (by decide)).bytes).verdict.analysis =
          .parseError "unexpected end-of-file (at offset 0x1a)") ∧
      ((readModule (twoImports 2 (by decide)).bytes).interface =
          ⟨[⟨"a", "a", "func"⟩, ⟨"b", "b", "func"⟩], []⟩ ∧
        (readModule (twoImports 2 (by decide)).bytes).verdict =
          .faulty ⟨.malformedSectionId, 26⟩) := by
  have hfew := (readModule_declared_count _ (twoImports 1 (by decide))).1 (by decide)
  have hmany := (readModule_declared_count _ (twoImports 3 (by decide))).2.1 (by decide)
  have hsame := (readModule_declared_count _ (twoImports 2 (by decide))).2.2 rfl
  exact ⟨⟨hfew.1.trans (by decide +kernel), hfew.2.trans (by decide +kernel)⟩,
    ⟨hmany.1.trans (by cbv), hmany.2.trans (by decide +kernel)⟩,
    ⟨hsame.1.trans (by cbv), hsame.2.trans (by decide +kernel)⟩⟩

end HostAbi

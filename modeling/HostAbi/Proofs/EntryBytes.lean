import HostAbi.Proofs.Window
import Mathlib

/-!
# The bytes behind the entries

A file can declare any count and any length, but an entry is listed only once all of its bytes were
taken, and none of them is taken twice. So a file lists no more than its own bytes make room for,
also where a fault ends it (`readModule_size_le`). For the same reason reading is short: each turn
of a loop takes bytes or is the last, so a count beyond the bytes that are left is as good as one
that is only just beyond them (`entries_eq_min`, `functions_eq_min`).
-/

namespace HostAbi

/-- The fewest bytes that an import takes: the lengths and texts of two names, a kind, and what
describes it further. -/
def Import.size (i : Import) : Nat :=
  4 + (Utf8.encode i.fromModule).length + (Utf8.encode i.name).length

/-- The fewest bytes that an export takes: the length and text of a name, a kind, and an index. -/
def Export.size (e : Export) : Nat := 3 + (Utf8.encode e.name).length

theorem Import.size_pos (i : Import) : 0 < i.size := by
  unfold size
  omega

theorem Export.size_pos (e : Export) : 0 < e.size := by
  unfold size
  omega

namespace Interface

/-- The fewest bytes that the entries of an interface take. -/
def size (I : Interface) : Nat := (I.imports.map (·.size)).sum + (I.exports.map (·.size)).sum

theorem size_append (I J : Interface) : (I ++ J).size = I.size + J.size := by
  show ((I.imports ++ J.imports).map _).sum + ((I.exports ++ J.exports).map _).sum = _
  simp only [size, List.map_append, List.sum_append]
  omega

theorem size_sorted (I : Interface) : I.sorted.size = I.size := by
  unfold size
  rw [(I.sorted_imports_perm.map _).sum_nat, (I.sorted_exports_perm.map _).sum_nat]

end Interface

/-! ## Forms -/

namespace Grammar

theorem U32.length_pos {n : Nat} {bs : List UInt8} (h : U32 n bs) : 0 < bs.length := by
  cases h <;> exact Nat.succ_pos _

theorem Name.length_lt {s : String} {bs : List UInt8} (h : Name s bs) :
    (Utf8.encode s).length < bs.length := by
  obtain ⟨length, hlength, -, rfl⟩ := h
  have := hlength.length_pos
  simp only [List.length_append]
  omega

theorem Description.length_pos {kind : ExternalKind} {bs : List UInt8} (h : Description kind bs) :
    0 < bs.length := by
  cases h with
  | func h => exact h.length_pos
  | table | memory | pagedMemory | global | tag =>
    simp only [List.length_append, List.length_cons]
    omega

theorem ImportEntry.size_le {i : Import} {bs : List UInt8} (h : ImportEntry i bs) :
    i.size ≤ bs.length := by
  obtain ⟨hmodule, hname, hdescription⟩ := h
  have := hmodule.length_lt
  have := hname.length_lt
  have := hdescription.length_pos
  simp only [Import.size, List.length_append, List.length_cons]
  omega

theorem ExportEntry.size_le {e : Export} {bs : List UInt8} (h : ExportEntry e bs) :
    e.size ≤ bs.length := by
  obtain ⟨hname, hindex⟩ := h
  have := hname.length_lt
  have := hindex.length_pos
  simp only [Export.size, List.length_append, List.length_cons]
  omega

end Grammar

/-! ## Readers -/

/-- How many bytes there are to go on with. Behind a fault nothing is read. -/
def unread : Except Fault Cursor → Nat
  | .ok c => c.rest.length
  | .error _ => 0

namespace Reader

variable {α β : Type} {entry : Reader α} {size : α → Nat}

/-- Whether a reader takes at least so many bytes for what it returns. -/
def Costs (size : α → Nat) (r : Reader α) : Prop :=
  ∀ ⦃c a c'⦄, r c = .ok (a, c') → size a + c'.rest.length ≤ c.rest.length

theorem Reads.costs {r : Reader α} {G : α → List UInt8 → Prop} (hr : r.Reads G)
    (hG : ∀ a bs, G a bs → size a ≤ bs.length) : Costs size r := by
  intro c a c' h
  obtain ⟨bs, hform, hrest, -⟩ := (hr _ _ _).1 h
  have := hG a bs hform
  rw [hrest, List.length_append]
  omega

theorem costs_u32 : Costs (fun _ => 1) u32 := reads_u32.costs fun _ _ h => h.length_pos

theorem costs_importEntry : Costs Import.size importEntry :=
  reads_importEntry.costs fun _ _ h => h.size_le

theorem costs_exportEntry : Costs Export.size exportEntry :=
  reads_exportEntry.costs fun _ _ h => h.size_le

theorem costs_sectionHead : Costs (fun _ => 2) sectionHead :=
  reads_sectionHead.costs fun p bs h => by
    obtain ⟨-, length, hlength, rfl⟩ := h
    exact Nat.succ_le_succ hlength.length_pos

/-- What was found, with what was there before, and what is left came from different bytes. -/
theorem entries_size_le (he : Costs size entry) : ∀ (n : Nat) (found : List α) (c : Cursor),
    ((entries entry n found c).1.map size).sum + unread (entries entry n found c).2 ≤
      (found.map size).sum + c.rest.length
  | 0, found, c => Nat.le_refl _
  | n + 1, found, c => by
    rcases h : entry c with f | ⟨a, c'⟩
    · simp only [entries, h, unread]
      omega
    · have ih := entries_size_le he n (a :: found) c'
      have := he h
      rw [entries_cons h]
      simp only [List.map_cons, List.sum_cons] at ih
      omega

/-- A list that is not empty has a count before it. -/
theorem listing_size_le (he : Costs size entry) {body : Cursor}
    (h : (listing entry body).1 ≠ []) :
    1 + ((listing entry body).1.map size).sum ≤ body.rest.length := by
  unfold listing at h ⊢
  rcases hn : u32 body with f | ⟨n, c⟩
  · simp [hn] at h
  · have hcount : 1 + c.rest.length ≤ body.rest.length := costs_u32 hn
    have hfound := entries_size_le he n [] c
    rcases hl : entries entry n [] c with ⟨found, f | c'⟩ <;>
    · simp only [hl, List.map_nil, List.sum_nil] at hfound ⊢
      omega

/-! ## Turns of the loops -/

/-- What is alike for all counts above a bound stays as it is when a count is cut to a limit above
that bound. -/
theorem eq_min_of_eq_above {f : Nat → β} {bound limit : Nat}
    (h : ∀ n m, bound < n → bound < m → f n = f m) (hlimit : bound < limit) (n : Nat) :
    f n = f (min n limit) := by
  rcases Nat.le_total n limit with hn | hn
  · rw [Nat.min_eq_left hn]
  · rw [Nat.min_eq_right hn]
    exact h n limit (by omega) hlimit

/-- A list is read alike for all counts beyond the bytes that are left. -/
theorem entries_of_length_lt (hpos : ∀ a, 0 < size a) (he : Costs size entry) :
    ∀ {n m : Nat} (found : List α) {c : Cursor}, c.rest.length < n → c.rest.length < m →
      entries entry n found c = entries entry m found c
  | 0, _, _, _, hn, _ => absurd hn (Nat.not_lt_zero _)
  | _ + 1, 0, _, _, _, hm => absurd hm (Nat.not_lt_zero _)
  | n + 1, m + 1, found, c, hn, hm => by
    rcases h : entry c with f | ⟨a, c'⟩
    · simp only [entries, h]
    · have := he h
      have := hpos a
      rw [entries_cons h, entries_cons h]
      exact entries_of_length_lt hpos he _ (by omega) (by omega)

theorem entries_eq_min (hpos : ∀ a, 0 < size a) (he : Costs size entry) (n : Nat)
    (found : List α) {c : Cursor} {limit : Nat} (hc : c.rest.length < limit) :
    entries entry n found c = entries entry (min n limit) found c :=
  eq_min_of_eq_above (fun _ _ => entries_of_length_lt hpos he found) hc n

/-- Of what comes behind a reader matters only what it does with what that one returns. -/
theorem bind_congr_of_ok {r : Reader α} {f g : α → Reader β} {c : Cursor}
    (h : ∀ a c', r c = .ok (a, c') → f a c' = g a c') : (r >>= f) c = (r >>= g) c := by
  show (Except.bind (r c) fun p => f p.1 p.2) = Except.bind (r c) fun p => g p.1 p.2
  rcases hr : r c with e | ⟨a, c'⟩
  · rfl
  · exact h a c' hr

theorem functions_of_length_lt : ∀ {n m : Nat} (left : Nat) {c : Cursor}, c.rest.length < n →
    c.rest.length < m → functions n left c = functions m left c
  | 0, _, _, _, hn, _ => absurd hn (Nat.not_lt_zero _)
  | _ + 1, 0, _, _, _, hm => absurd hm (Nat.not_lt_zero _)
  | n + 1, m + 1, left, c, hn, hm => by
    unfold functions
    refine bind_congr_of_ok fun start c₁ h₁ => bind_congr_of_ok fun size c₂ h₂ =>
      bind_congr_of_ok fun _ c₃ h₃ => bind_congr_of_ok fun left' c₄ h₄ => ?_
    have := advances_position.length_le h₁
    have : 1 + c₂.rest.length ≤ c₁.rest.length := costs_u32 h₂
    have := (advances_take size).length_le h₃
    have := (advances_remaining left start).length_le h₄
    exact functions_of_length_lt left' (by omega) (by omega)

theorem functions_eq_min (n left : Nat) {c : Cursor} {limit : Nat} (hc : c.rest.length < limit) :
    functions n left c = functions (min n limit) left c :=
  eq_min_of_eq_above (fun _ _ => functions_of_length_lt left) hc n

end Reader

open Reader

/-! ## Sections -/

/-- Whether an interface, with so many bytes before its entries, and what is left to read came from
different ones of some bytes. -/
structure Interface.Fits (I : Interface) (before total left : Nat) : Prop where
  left_le : left ≤ total
  size_le : I ≠ {} → before + I.size + left ≤ total

namespace Interface

variable {I J : Interface} {before before' total left left' : Nat}

theorem fits_empty (h : left ≤ total) : Fits {} before total left := ⟨h, fun h => absurd rfl h⟩

/-- What is found in the bytes that are left, beside what was found in those before. What comes
before the first of it there is part of what comes before it in all bytes. -/
theorem Fits.append (hI : I.Fits before total left) (hJ : J.Fits before' left left')
    (h : before + left ≤ before' + total) : (J ++ I).Fits before total left' := by
  refine ⟨Nat.le_trans hJ.left_le hI.left_le, fun _ => ?_⟩
  have hempty : size {} = 0 := rfl
  have := hJ.left_le
  rw [size_append]
  by_cases hJe : J = {} <;> by_cases hIe : I = {}
  · rename_i hne
    rw [hJe, hIe] at hne
    exact absurd rfl hne
  · have := hI.size_le hIe
    rw [hJe]
    omega
  · have := hJ.size_le hJe
    rw [hIe]
    omega
  · have := hI.size_le hIe
    have := hJ.size_le hJe
    omega

theorem Fits.behind (hJ : J.Fits before' left left') (hleft : left ≤ total)
    (h : before + left ≤ before' + total) : J.Fits before total left' := by
  have hboth := (fits_empty hleft).append hJ h
  rwa [append_empty] at hboth

theorem Fits.sorted (hI : I.Fits before total left) : I.sorted.Fits before total left := by
  refine ⟨hI.left_le, fun hne => ?_⟩
  rw [size_sorted]
  refine hI.size_le fun h => hne ?_
  simp only [h, Interface.sorted, List.mergeSort_nil]

end Interface

namespace SectionKind

theorem readBody_fits (body : Cursor) : ∀ kind : SectionKind,
    (kind.readBody body).1.Fits 1 body.rest.length 0
  | .custom | .counted | .lone _ | .code | .skipped => Interface.fits_empty (Nat.zero_le _)
  | .imports => ⟨Nat.zero_le _, fun h => by
      have hne : (listing importEntry body).1 ≠ [] := fun h' => h (by simp only [readBody, h'])
      have := listing_size_le costs_importEntry hne
      simpa [Interface.size, readBody] using this⟩
  | .exports => ⟨Nat.zero_le _, fun h => by
      have hne : (listing exportEntry body).1 ≠ [] := fun h' => h (by simp only [readBody, h'])
      have := listing_size_le costs_exportEntry hne
      simpa [Interface.size, readBody] using this⟩

theorem read_fits (length : Nat) (c : Cursor) (kind : SectionKind) :
    (kind.read length c).1.Fits 1 c.rest.length (unread (kind.read length c).2) := by
  unfold read
  split
  · refine Interface.fits_empty ?_
    rcases h : Reader.code length c with f | ⟨u, c'⟩
    · exact Nat.zero_le _
    · exact (advances_code length).length_le h
  · rcases ht : take length c with f | ⟨body, c'⟩
    · exact Interface.fits_empty (Nat.zero_le _)
    · -- the body and what follows it are different bytes
      have hrest : body.length + c'.rest.length = c.rest.length := by
        rw [(take_eq_ok.1 ht).1, List.length_append]
      have hbody := readBody_fits ⟨body, c.pos⟩ kind
      rcases hb : kind.readBody ⟨body, c.pos⟩ with ⟨found, _ | f⟩ <;> rw [hb] at hbody <;>
      · simp only [hb]
        refine ⟨by simp only [unread]; omega, fun hne => ?_⟩
        have := hbody.size_le hne
        simp only [unread] at this ⊢
        omega

end SectionKind

/-- A section has an id and a length before its body. -/
theorem readSection_fits (c : Cursor) :
    (readSection c).1.Fits 3 c.rest.length (unread (readSection c).2) := by
  rcases h : sectionHead c with f | ⟨⟨id, length⟩, c'⟩
  · rw [readSection_of_fault h]
    exact Interface.fits_empty (Nat.zero_le _)
  · have hhead : 2 + c'.rest.length ≤ c.rest.length := costs_sectionHead h
    rw [readSection_of_head h]
    exact (SectionKind.read_fits length c' _).behind (by omega) (by omega)

theorem readSection_length_add_two_le {c c' : Cursor} {found : Interface}
    (h : readSection c = (found, .ok c')) : c'.rest.length + 2 ≤ c.rest.length := by
  rcases hs : sectionHead c with f | ⟨⟨id, length⟩, c₁⟩
  · rw [readSection_of_fault hs] at h
    cases h
  · have hhead : 2 + c₁.rest.length ≤ c.rest.length := costs_sectionHead hs
    rw [readSection_of_head hs] at h
    have := SectionKind.read_length_le h
    omega

/-- The first entry that is found has a header, an id, a length and a count before it. -/
theorem readSections_fits {c : Cursor} {found : Interface} {total : Nat}
    (hc : 8 + c.rest.length ≤ total) (hfound : found.Fits 11 total c.rest.length) :
    (readSections c found).1.Fits 11 total 0 := by
  fun_induction readSections c found with
  | case1 c found _ =>
    refine ⟨Nat.zero_le _, fun hne => ?_⟩
    have := hfound.size_le hne
    dsimp only
    omega
  | case2 c found _ more f h =>
    have hsection := readSection_fits c
    rw [h] at hsection
    exact hfound.append hsection (by omega)
  | case3 c found _ more c' h _ ih =>
    have hsection := readSection_fits c
    rw [h] at hsection
    have hnext := readSection_length_lt h
    exact ih (by omega) (hfound.append hsection (by omega))

theorem readModule_fits (bytes : List UInt8) :
    (readModule bytes).interface.Fits 11 bytes.length 0 := by
  rcases h : header ⟨bytes, 0⟩ with f | ⟨_ | _, c⟩
  · rw [readModule_of_error h]
    exact Interface.fits_empty (Nat.zero_le _)
  · have hc := in_of_header h
    have hlen : 8 + c.rest.length ≤ bytes.length := by
      have := hc.start
      have := hc.finish
      omega
    rw [readModule_of_coreModule h]
    exact (readSections_fits hlen (Interface.fits_empty (by omega))).sorted
  · rw [readModule_of_component h]
    exact Interface.fits_empty (Nat.zero_le _)

/-! ## Turns -/

/-- What the sections add to an interface, if the loop over them is through after so many turns. -/
def readSectionsWithin : (turns : Nat) → Cursor → Interface → Option (Interface × Option Fault)
  | 0, _, _ => none
  | turns + 1, c, found =>
    if c.rest.isEmpty then some (found, none)
    else
      match readSection c with
      | (more, .error f) => some (more ++ found, some f)
      | (more, .ok c') => readSectionsWithin turns c' (more ++ found)

/-- A section takes two bytes at least, so half as many turns as there are bytes are enough. -/
theorem readSectionsWithin_eq : ∀ {turns : Nat} {c : Cursor} (found : Interface),
    c.rest.length < 2 * turns → readSectionsWithin turns c found = some (readSections c found)
  | 0, _, _, h => absurd h (Nat.not_lt_zero _)
  | turns + 1, c, found, h => by
    unfold readSectionsWithin
    split
    · rename_i hc
      rw [readSections.eq_def, if_pos hc]
    · rename_i hc
      have hc := Bool.eq_false_iff.2 hc
      rcases hs : readSection c with ⟨more, f | c'⟩
      · rw [readSections_of_error hc hs]
      · have := readSection_length_add_two_le hs
        rw [readSections_of_ok hc hs]
        exact readSectionsWithin_eq _ (by omega)

/-- Whatever counts and lengths a file declares, its sections are read in half as many turns as it
has bytes, no count makes a list go on for more turns than that many and one, and the entries that
are listed, if there are any, fit into the file together with what has to come before them. -/
theorem readModule_size_le (bytes : List UInt8) :
    (∀ c, Reader.header ⟨bytes, 0⟩ = .ok (.coreModule, c) →
      readSectionsWithin (bytes.length / 2) c {} = some (readSections c {})) ∧
    (∀ c : Cursor, c.rest.length ≤ bytes.length → ∀ n,
      (∀ found, entries importEntry n found c =
        entries importEntry (min n (bytes.length + 1)) found c) ∧
      (∀ found, entries exportEntry n found c =
        entries exportEntry (min n (bytes.length + 1)) found c) ∧
      ∀ left, functions n left c = functions (min n (bytes.length + 1)) left c) ∧
    ((readModule bytes).interface = {} ∨
      11 + ((readModule bytes).interface.imports.map fun i =>
          4 + (Utf8.encode i.fromModule).length + (Utf8.encode i.name).length).sum +
        ((readModule bytes).interface.exports.map fun e =>
          3 + (Utf8.encode e.name).length).sum ≤ bytes.length) := by
  refine ⟨fun c h => ?_, fun c hc n => ⟨fun found => ?_, fun found => ?_, fun left => ?_⟩, ?_⟩
  · have hin := in_of_header h
    have := hin.start
    have := hin.finish
    exact readSectionsWithin_eq _ (by omega)
  · exact entries_eq_min Import.size_pos costs_importEntry n found (by omega)
  · exact entries_eq_min Export.size_pos costs_exportEntry n found (by omega)
  · exact functions_eq_min n left (by omega)
  · by_cases hne : (readModule bytes).interface = {}
    · exact .inl hne
    · have hsize := (readModule_fits bytes).size_le hne
      right
      rwa [Interface.size, ← Nat.add_assoc] at hsize

/-- No smaller file lists an import: behind the header of eight bytes stand an id, a length, a
count, two names without text, a kind and an index. -/
example : (readModule [0, 0x61, 0x73, 0x6d, 1, 0, 0, 0, 2, 5, 1, 0, 0, 0, 0]).interface.imports =
    [⟨"", "", "func"⟩] := by
  decide +kernel

end HostAbi

import HostAbi.Binary.Reads.VarInt

/-!
# The forms of types

The first byte of a type tells which form it has. A heap type that starts like a short negative
number is no index (`Grammar.HeapType.cons_low`), and a reference type never starts like a number
type (`Grammar.RefType.not_numeric`).
-/

namespace HostAbi

namespace Reader

theorem inForm_eq_ok {form : TypeForm} {r : Reader Unit} {c c' : Cursor} {u : Unit} :
    inForm form r c = .ok (u, c') ↔ r c = .ok (u, c') := by
  unfold inForm
  split
  · simp_all
  · rfl

theorem Reads.inForm {r : Reader Unit} {G : Unit → List UInt8 → Prop} (form : TypeForm)
    (hr : r.Reads G) : (inForm form r).Reads G := by
  intro c a c'
  rw [inForm_eq_ok]
  exact hr c a c'

theorem reads_abstractHeapType :
    abstractHeapType.Reads fun _ bs => ∃ b, isAbstractHeap b ∧ bs = [b] := by
  unfold abstractHeapType
  refine (Reads.position fun p => reads_byte.bind fun b =>
    .ite (isAbstractHeap b) (reads_pure ()) (reads_fail _ p)).congr fun _ bs => ?_
  constructor
  · rintro ⟨b, _, _, rfl, h, rfl⟩
    split at h
    · obtain ⟨-, rfl⟩ := h
      exact ⟨b, ‹_›, rfl⟩
    · exact h.elim
  · rintro ⟨b, h, rfl⟩
    exact ⟨b, [b], [], rfl, by simp [h], rfl⟩

end Reader

namespace Grammar

theorem s33_cons_low {b : UInt8} {n : Int} {bs : List UInt8} (h : S33 n (b :: bs))
    (hb : 0x40 ≤ b) (hb' : b < 0x80) : n < 0 := by
  cases h with
  | positive h => exact absurd (UInt8.lt_of_lt_of_le h hb) (UInt8.lt_irrefl b)
  | negative =>
    have := UInt8.lt_iff_toNat_lt.1 hb'
    simp at this
    omega
  | long h => exact absurd (UInt8.lt_of_lt_of_le hb' h) (UInt8.lt_irrefl b)

theorem s33_single {b : UInt8} (hb : 0x40 ≤ b) (hb' : b < 0x80) : S33 (b.toNat - 0x80) [b] :=
  .negative hb hb'

/-- What a heap type other than an index starts with is no index. -/
theorem HeapType.cons_low {b : UInt8} {bs : List UInt8} (h : HeapType (b :: bs)) (hb : 0x40 ≤ b)
    (hb' : b < 0x80) : b = 0x65 ∨ Reader.isAbstractHeap b := by
  cases h with
  | index h h₀ => exact absurd (s33_cons_low h hb hb') (by omega)
  | plain h => exact .inr h
  | shared => exact .inl rfl

end Grammar

namespace Reader

variable {α β : Type} {r : Reader α} {G G' : α → List UInt8 → Prop}

theorem isAbstractHeap_iff {b : UInt8} : isAbstractHeap b ↔ 0x68 ≤ b ∧ b ≤ 0x75 := by
  simp [isAbstractHeap]

theorem reads_sharedHeapType : sharedHeapType.Reads fun _ bs =>
    (∃ b, isAbstractHeap b ∧ bs = [b]) ∨ ∃ b, isAbstractHeap b ∧ bs = [0x65, b] := by
  unfold sharedHeapType
  refine (Reads.peek (fun b => .ite (b = 0x65) (reads_byte.bind fun _ => reads_abstractHeapType)
    (reads_abstractHeapType.inForm _)) ?_).congr fun _ bs => ?_
  · rintro b _ bs h rfl
    split at h <;> simp at h
  · constructor
    · rintro ⟨b, rest, rfl, h⟩
      split at h
      · subst b
        obtain ⟨_, _, _, rfl, ⟨b, hb, rfl⟩, h⟩ := h
        obtain ⟨rfl, rfl⟩ := List.cons.inj h
        exact .inr ⟨b, hb, rfl⟩
      · exact .inl h
    · rintro (⟨b, hb, rfl⟩ | ⟨b, hb, rfl⟩)
      · refine ⟨b, [], rfl, ?_⟩
        rw [if_neg (by rintro rfl; exact absurd hb (by decide))]
        exact ⟨b, hb, rfl⟩
      · exact ⟨0x65, [b], rfl, by rw [if_pos rfl]; exact ⟨_, [_], _, rfl, ⟨b, hb, rfl⟩, rfl⟩⟩

theorem reads_heapType : heapType.Reads fun _ bs => Grammar.HeapType bs := by
  intro c _ c'
  have hs := reads_s33 c
  constructor
  · intro h
    rcases hc : s33 c with f | ⟨n, c₁⟩
    · simp [heapType, hc, bind, Except.bind] at h
    · simp only [heapType, hc, bind, Except.bind] at h
      split at h
      · split at h
        · obtain ⟨-, rfl⟩ := Prod.mk.inj (Except.ok.inj h)
          obtain ⟨bs, g, e, p⟩ := (hs _ _).1 hc
          exact ⟨bs, .index g (by omega) ‹_›, e, p⟩
        · simp at h
      · obtain ⟨bs, ⟨b, hb, rfl⟩ | ⟨b, hb, rfl⟩, e, p⟩ := (reads_sharedHeapType _ _ _).1 h
        · exact ⟨_, .plain hb, e, p⟩
        · exact ⟨_, .shared hb, e, p⟩
  · rintro ⟨bs, h, e, p⟩
    have low {b : UInt8} {rest : List UInt8} (hb : 0x40 ≤ b) (hb' : b < 0x80)
        (hc : c.rest = b :: rest) : heapType c = sharedHeapType c := by
      have := (hs (b.toNat - 0x80) ⟨rest, c.pos + 1⟩).2
        ⟨[b], Grammar.s33_single hb hb', by simp [hc], rfl⟩
      have hlt := UInt8.lt_iff_toNat_lt.1 hb'
      simp at hlt
      simp only [heapType, this, bind, Except.bind]
      rw [if_neg (by omega)]
    cases h with
    | index h h₀ h₁ =>
      have := (hs _ c').2 ⟨bs, h, e, p⟩
      simp only [heapType, this, bind, Except.bind]
      have : (maxTypeIndex : Int) < 0x100000000 := by decide
      rw [if_pos ⟨h₀, by omega⟩, if_pos h₁]
    | @plain b hb =>
      have ⟨h₁, h₂⟩ := isAbstractHeap_iff.1 hb
      rw [low (UInt8.le_trans (by decide) h₁) (UInt8.lt_of_le_of_lt h₂ (by decide)) e]
      exact (reads_sharedHeapType _ _ _).2 ⟨_, .inl ⟨b, hb, rfl⟩, e, p⟩
    | @shared b hb =>
      rw [low (by decide) (by decide) e]
      exact (reads_sharedHeapType _ _ _).2 ⟨_, .inr ⟨b, hb, rfl⟩, e, p⟩

end Reader

namespace Grammar

theorem HeapType.ne_nil {bs : List UInt8} (h : HeapType bs) : bs ≠ [] := by
  rintro rfl
  cases h with
  | index h => cases h

theorem RefType.ne_nil {bs : List UInt8} (h : RefType bs) : bs ≠ [] := by
  cases h with
  | short h => exact h.ne_nil
  | long => simp

theorem RefType.not_numeric {b : UInt8} {bs : List UInt8} (h : RefType (b :: bs)) :
    ¬Reader.isNumeric b := by
  intro hb
  have ⟨h₁, h₂⟩ : 0x7b ≤ b ∧ b ≤ 0x7f := by simpa [Reader.isNumeric] using hb
  cases h with
  | short h =>
    rcases h.cons_low (UInt8.le_trans (by decide) h₁) (UInt8.lt_of_le_of_lt h₂ (by decide)) with
      rfl | h
    · exact absurd h₁ (by decide)
    · exact absurd (UInt8.le_trans h₁ (Reader.isAbstractHeap_iff.1 h).2) (by decide)
  | long h => rcases h with rfl | rfl <;> exact absurd h₁ (by decide)

end Grammar

namespace Reader

variable {α β : Type} {r : Reader α} {G G' : α → List UInt8 → Prop}

theorem reads_refType : refType.Reads fun _ bs => Grammar.RefType bs := by
  unfold refType
  refine (Reads.peek (fun b => .ite (b = 0x63 ∨ b = 0x64) (reads_byte.bind fun _ => reads_heapType)
    (reads_heapType.inForm _)) ?_).congr fun _ bs => ?_
  · rintro b _ bs h rfl
    split at h
    · obtain ⟨_, _, _, rfl, -, h⟩ := h
      simp at h
    · exact h.ne_nil rfl
  · constructor
    · rintro ⟨b, rest, rfl, h⟩
      split at h
      · obtain ⟨_, _, _, rfl, h, e⟩ := h
        obtain ⟨rfl, rfl⟩ := List.cons.inj e
        exact .long ‹_› h
      · exact .short h
    · rintro (h | ⟨h, h'⟩)
      · obtain ⟨b, rest, rfl⟩ := List.exists_cons_of_ne_nil h.ne_nil
        refine ⟨b, rest, rfl, ?_⟩
        rw [if_neg]
        · exact h
        · rintro (rfl | rfl) <;>
            exact absurd (h.cons_low (by decide) (by decide)) (by decide)
      · exact ⟨_, _, rfl, by rw [if_pos h]; exact ⟨_, [_], _, rfl, h', rfl⟩⟩

theorem reads_valueType : valueType.Reads fun _ bs => Grammar.ValueType bs := by
  unfold valueType
  refine (Reads.peek (fun b => .ite (isNumeric b) (reads_byte.bind fun _ => reads_pure ())
    (reads_refType.inForm _)) ?_).congr fun _ bs => ?_
  · rintro b _ bs h rfl
    split at h
    · obtain ⟨_, _, _, rfl, -, h⟩ := h
      simp at h
    · exact h.ne_nil rfl
  · constructor
    · rintro ⟨b, rest, rfl, h⟩
      split at h
      · obtain ⟨_, _, _, rfl, ⟨-, rfl⟩, e⟩ := h
        obtain ⟨rfl, rfl⟩ := List.cons.inj e
        exact .numeric ‹_›
      · exact .reference h
    · rintro (h | h)
      · exact ⟨_, [], rfl, by rw [if_pos h]; exact ⟨_, [_], [], rfl, ⟨rfl, rfl⟩, rfl⟩⟩
      · obtain ⟨b, rest, rfl⟩ := List.exists_cons_of_ne_nil h.ne_nil
        exact ⟨b, rest, rfl, by rw [if_neg h.not_numeric]; exact h⟩

end Reader

end HostAbi

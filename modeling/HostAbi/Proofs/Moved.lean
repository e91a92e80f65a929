import HostAbi.Binary.Module
import Mathlib.Tactic.SplitIfs

/-!
# The same bytes at a later place

What a reader takes does not depend on where in the file the bytes stand, and a fault stands at the
same distance from them (`Moves`). Some faults are put one byte before a place, so this is said of
places behind the first byte of a file, and all sections are.
-/

namespace HostAbi

/-- The same bytes, `k` places later in the file. -/
def Cursor.later (c : Cursor) (k : Nat) : Cursor := ⟨c.rest, c.pos + k⟩

/-- The same fault, `k` places later in the file. -/
def Fault.later (f : Fault) (k : Nat) : Fault := ⟨f.cause, f.offset + k⟩

namespace Reader

variable {α β : Type} {k : Nat}

/-- Whether one reader does `k` places later in the file what another does. They differ in the
places that they were given. -/
structure Moves (k : Nat) (r r' : Reader α) : Prop where
  ok : ∀ {c c' a}, 0 < c.pos → r c = .ok (a, c') →
    0 < c'.pos ∧ r' (c.later k) = .ok (a, c'.later k)
  fault : ∀ {c f}, 0 < c.pos → r c = .error f → r' (c.later k) = .error (f.later k)

theorem moves_pure (a : α) : Moves k (pure a) (pure a) where
  ok hc h := by
    cases h
    exact ⟨hc, rfl⟩
  fault _ h := by cases h

theorem moves_fail (cause : Cause) (offset : Nat) :
    Moves k (fail cause offset : Reader α) (fail cause (offset + k)) where
  ok _ h := by cases h
  fault _ h := by
    cases h
    rfl

theorem Moves.bind {r r' : Reader α} {f f' : α → Reader β} (hr : Moves k r r')
    (hf : ∀ a, Moves k (f a) (f' a)) : Moves k (r >>= f) (r' >>= f') where
  ok hc h := by
    obtain ⟨a, c₁, h₁, h₂⟩ := bind_eq_ok.1 h
    obtain ⟨hc₁, h₁'⟩ := hr.ok hc h₁
    obtain ⟨hc', h₂'⟩ := (hf a).ok hc₁ h₂
    exact ⟨hc', bind_eq_ok.2 ⟨a, _, h₁', h₂'⟩⟩
  fault hc h := by
    rcases bind_eq_error.1 h with h₁ | ⟨a, c₁, h₁, h₂⟩
    · exact bind_eq_error.2 (.inl (hr.fault hc h₁))
    · obtain ⟨hc₁, h₁'⟩ := hr.ok hc h₁
      exact bind_eq_error.2 (.inr ⟨a, _, h₁', (hf a).fault hc₁ h₂⟩)

/-- The two readers are given places that are `k` apart. -/
theorem Moves.position {f f' : Nat → Reader β} (hf : ∀ p, 0 < p → Moves k (f p) (f' (p + k))) :
    Moves k (Reader.position >>= f) (Reader.position >>= f') where
  ok hc h := (hf _ hc).ok hc h
  fault hc h := (hf _ hc).fault hc h

theorem Moves.ite {r r' s s' : Reader α} (p : Prop) [Decidable p] (hr : Moves k r r')
    (hs : Moves k s s') : Moves k (if p then r else s) (if p then r' else s') := by
  split
  · exact hr
  · exact hs

theorem moves_peek : Moves k peek peek where
  ok {c _ _} hc h := by
    rcases c with ⟨_ | ⟨b, rest⟩, pos⟩ <;> cases h
    exact ⟨hc, rfl⟩
  fault {c _} _ h := by
    rcases c with ⟨_ | ⟨b, rest⟩, pos⟩ <;> cases h
    rfl

theorem moves_byte : Moves k byte byte where
  ok _ h := by
    obtain ⟨hrest, hpos⟩ := byte_eq_ok.1 h
    exact ⟨by omega, byte_eq_ok.2 ⟨hrest, by simp only [Cursor.later]; omega⟩⟩
  fault _ h := by
    obtain ⟨hrest, rfl⟩ := byte_eq_error.1 h
    exact byte_eq_error.2 ⟨hrest, rfl⟩

theorem moves_take (n : Nat) : Moves k (take n) (take n) where
  ok _ h := by
    obtain ⟨hrest, hlen, hpos⟩ := take_eq_ok.1 h
    exact ⟨by omega, take_eq_ok.2 ⟨hrest, hlen, by simp only [Cursor.later]; omega⟩⟩
  fault _ h := by
    obtain ⟨hlen, rfl⟩ := take_eq_error.1 h
    exact take_eq_error.2 ⟨hlen, rfl⟩

theorem moves_unsigned (i : VarInt) (bound : UInt8) :
    ∀ more, Moves k (unsigned i bound more) (unsigned i bound more)
  | 0 => .position fun _ _ => moves_byte.bind fun _ =>
    .ite _ (moves_pure _) (.ite _ (moves_fail _ _) (moves_fail _ _))
  | more + 1 => moves_byte.bind fun _ =>
    .ite _ (moves_pure _) ((moves_unsigned i bound more).bind fun _ => moves_pure _)

theorem moves_u32 : Moves k u32 u32 := moves_unsigned _ _ _

theorem moves_u64 : Moves k u64 u64 := moves_unsigned _ _ _

theorem moves_signed : ∀ more, Moves k (signed more) (signed more)
  | 0 => .position fun _ _ => moves_byte.bind fun _ => .ite _ (moves_pure _) (moves_fail _ _)
  | more + 1 => moves_byte.bind fun _ => .ite _ (moves_pure _)
    (.ite _ (moves_pure _) ((moves_signed more).bind fun _ => moves_pure _))

theorem moves_s33 : Moves k s33 s33 := moves_signed _

theorem moves_byteBelow (bound : UInt8) (cause : Cause) :
    Moves k (byteBelow bound cause) (byteBelow bound cause) :=
  .position fun _ _ => moves_byte.bind fun _ => .ite _ (moves_pure _) (moves_fail _ _)

theorem moves_abstractHeapType : Moves k abstractHeapType abstractHeapType :=
  .position fun _ _ => moves_byte.bind fun _ => .ite _ (moves_pure _) (moves_fail _ _)

/-- Renaming a bad type moves no fault. -/
theorem Moves.inForm {r r' : Reader Unit} (form : TypeForm) (hr : Moves k r r') :
    Moves k (Reader.inForm form r) (Reader.inForm form r') where
  ok {c _ _} hc h := by
    unfold Reader.inForm at h ⊢
    rcases hr₀ : r c with ⟨cause, offset⟩ | ⟨u, c₁⟩ <;> rw [hr₀] at h
    · cases cause <;> cases h
    · obtain ⟨rfl, rfl⟩ := Prod.mk.inj (Except.ok.inj h)
      obtain ⟨hc₁, hr₁⟩ := hr.ok hc hr₀
      exact ⟨hc₁, by rw [hr₁]⟩
  fault {c _} hc h := by
    unfold Reader.inForm at h ⊢
    rcases hr₀ : r c with ⟨cause, offset⟩ | ⟨u, c₁⟩ <;> rw [hr₀] at h
    · rw [hr.fault hc hr₀]
      cases cause <;> cases h <;> rfl
    · cases h

theorem moves_sharedHeapType : Moves k sharedHeapType sharedHeapType :=
  moves_peek.bind fun _ => .ite _ (moves_byte.bind fun _ => moves_abstractHeapType)
    (moves_abstractHeapType.inForm .heap)

theorem heapType_of_error {c : Cursor} {f : Fault} (h : s33 c = .error f) :
    heapType c = .error f := by
  simp only [heapType, h, bind, Except.bind]

theorem heapType_of_ok {c c' : Cursor} {n : Int} (h : s33 c = .ok (n, c')) :
    heapType c = if 0 ≤ n ∧ n < 0x100000000 then
        if n ≤ maxTypeIndex then .ok ((), c') else .error ⟨.typeIndexTooLarge, c'.pos⟩
      else sharedHeapType c := by
  simp only [heapType, h, bind, Except.bind]

/-- What turns out to be no index is read again from where the index would have started. -/
theorem moves_heapType : Moves k heapType heapType where
  ok {c _ _} hc h := by
    rcases hs : s33 c with f | ⟨n, c₁⟩
    · rw [heapType_of_error hs] at h
      cases h
    · obtain ⟨hc₁, hs'⟩ := moves_s33.ok hc hs
      rw [heapType_of_ok hs] at h
      rw [heapType_of_ok hs']
      split_ifs at h ⊢
      · cases h
        exact ⟨hc₁, rfl⟩
      · exact moves_sharedHeapType.ok hc h
  fault {c _} hc h := by
    rcases hs : s33 c with f | ⟨n, c₁⟩
    · rw [heapType_of_error hs] at h
      cases h
      exact heapType_of_error (moves_s33.fault hc hs)
    · obtain ⟨hc₁, hs'⟩ := moves_s33.ok hc hs
      rw [heapType_of_ok hs] at h
      rw [heapType_of_ok hs']
      split_ifs at h ⊢
      · cases h
        rfl
      · exact moves_sharedHeapType.fault hc h

theorem moves_refType : Moves k refType refType :=
  moves_peek.bind fun _ => .ite _ (moves_byte.bind fun _ => moves_heapType)
    (moves_heapType.inForm .reference)

theorem moves_valueType : Moves k valueType valueType :=
  moves_peek.bind fun _ => .ite _ (moves_byte.bind fun _ => moves_pure _)
    (moves_refType.inForm .value)

/-- Two of its faults are put one byte before a place, which is never the start of the file. -/
theorem moves_name : Moves k name name := by
  refine moves_u32.bind fun n => .position fun start hstart => .ite _ ?_
    ((moves_take n).bind fun bs => ?_)
  · rw [Nat.sub_add_comm hstart]
    exact moves_fail _ _
  · rcases Utf8.decode? bs with _ | s
    · have hplace : start + k + n - 1 = start + n - 1 + k := by omega
      simp only [hplace]
      exact moves_fail _ _
    · exact moves_pure s

theorem moves_externalKind : Moves k externalKind externalKind := by
  refine .position fun start _ => moves_byte.bind fun b => ?_
  rcases ExternalKind.ofCode? b with _ | kind
  · exact moves_fail _ _
  · exact moves_pure kind

theorem moves_size (flags : UInt8) : Moves k (size flags) (size flags) :=
  .ite _ moves_u32 moves_u64

theorem moves_limits (flags : UInt8) : Moves k (limits flags) (limits flags) :=
  (moves_size flags).bind fun _ => .ite _ (moves_pure _)
    ((moves_size flags).bind fun _ => moves_pure _)

theorem moves_description : ∀ kind, Moves k (description kind) (description kind)
  | .func => moves_u32.bind fun _ => moves_pure _
  | .table => moves_refType.bind fun _ => (moves_byteBelow _ _).bind moves_limits
  | .memory => (moves_byteBelow _ _).bind fun flags => (moves_limits flags).bind fun _ =>
    .ite _ (moves_pure _) (moves_u32.bind fun _ => moves_pure _)
  | .global => moves_valueType.bind fun _ => (moves_byteBelow _ _).bind fun _ => moves_pure _
  | .tag => (moves_byteBelow _ _).bind fun _ => moves_u32.bind fun _ => moves_pure _

theorem moves_importEntry : Moves k importEntry importEntry :=
  moves_name.bind fun _ => moves_name.bind fun _ => moves_externalKind.bind fun kind =>
    (moves_description kind).bind fun _ => moves_pure _

theorem moves_exportEntry : Moves k exportEntry exportEntry :=
  moves_name.bind fun _ => moves_externalKind.bind fun _ => moves_u32.bind fun _ => moves_pure _

/-- What is left of a length depends on the distance of two places only. -/
theorem moves_remaining (length start : Nat) :
    Moves k (remaining length start) (remaining length (start + k)) := by
  refine .position fun now _ => ?_
  rw [Nat.add_sub_add_right]
  exact .ite _ (moves_fail _ _) (moves_pure _)

theorem moves_functions : ∀ n left, Moves k (functions n left) (functions n left)
  | 0, _ => .ite _ (moves_pure _) (.position fun _ _ => moves_fail _ _)
  | n + 1, left => .position fun _ _ => moves_u32.bind fun _ => (moves_take _).bind fun _ =>
    (moves_remaining left _).bind fun _ => moves_functions n _

theorem moves_code (length : Nat) : Moves k (code length) (code length) :=
  .position fun _ _ => moves_u32.bind fun _ => (moves_remaining length _).bind fun _ =>
    moves_functions _ _

theorem moves_sectionHead : Moves k sectionHead sectionHead :=
  .position fun _ _ => moves_byte.bind fun _ =>
    .ite _ (moves_u32.bind fun _ => moves_pure _) (moves_fail _ _)

theorem moves_finish (leftover : Cause) : Moves k (finish leftover) (finish leftover) where
  ok {c _ _} hc h := by
    rcases c with ⟨_ | ⟨b, rest⟩, pos⟩ <;> cases h
    exact ⟨hc, rfl⟩
  fault {c _} _ h := by
    rcases c with ⟨_ | ⟨b, rest⟩, pos⟩ <;> cases h
    rfl

theorem moves_loneNumber (leftover : Cause) : Moves k (loneNumber leftover) (loneNumber leftover) :=
  moves_u32.bind fun _ => moves_finish leftover

end Reader

end HostAbi

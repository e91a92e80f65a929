import HostAbi.Binary.Module

/-!
# What more bytes do not change

A reader looks at no byte behind those it takes. So bytes that are put at the end of a file change
neither what is read before them nor a fault, unless the fault is that the file ends too early
(`Settles`). The readers that work on the file itself all have this property; those that work on
the body of a section are given the same body anyway.
-/

namespace HostAbi

/-- A cursor into a file that has more bytes at its end. -/
def Cursor.extend (c : Cursor) (more : List UInt8) : Cursor := ⟨c.rest ++ more, c.pos⟩

namespace Reader

variable {α β : Type}

/-- Whether more bytes at the end of a file change nothing for a reader but an unexpected end. -/
structure Settles (r : Reader α) : Prop where
  ok : ∀ {c c' a} more, r c = .ok (a, c') → r (c.extend more) = .ok (a, c'.extend more)
  fault : ∀ {c f} more, r c = .error f → f.cause ≠ .unexpectedEnd → r (c.extend more) = .error f

theorem settles_pure (a : α) : (pure a : Reader α).Settles where
  ok more h := by
    cases h
    rfl
  fault _ h := by cases h

theorem settles_fail (cause : Cause) (offset : Nat) : (fail cause offset : Reader α).Settles where
  ok _ h := by cases h
  fault _ h _ := h

theorem settles_position : position.Settles where
  ok more h := by
    cases h
    rfl
  fault _ h := by cases h

theorem Settles.bind {r : Reader α} {f : α → Reader β} (hr : r.Settles)
    (hf : ∀ a, (f a).Settles) : (r >>= f).Settles where
  ok more h := by
    obtain ⟨a, c₁, h₁, h₂⟩ := bind_eq_ok.1 h
    exact bind_eq_ok.2 ⟨a, c₁.extend more, hr.ok more h₁, (hf a).ok more h₂⟩
  fault more h hne := by
    rcases bind_eq_error.1 h with h₁ | ⟨a, c₁, h₁, h₂⟩
    · exact bind_eq_error.2 (.inl (hr.fault more h₁ hne))
    · exact bind_eq_error.2 (.inr ⟨a, c₁.extend more, hr.ok more h₁, (hf a).fault more h₂ hne⟩)

theorem Settles.ite {r r' : Reader α} (p : Prop) [Decidable p] (hr : r.Settles)
    (hr' : r'.Settles) : (if p then r else r').Settles := by
  split
  · exact hr
  · exact hr'

theorem settles_byte : byte.Settles where
  ok more h := by
    have ⟨hrest, hpos⟩ := byte_eq_ok.1 h
    exact byte_eq_ok.2 ⟨by simp [Cursor.extend, hrest], hpos⟩
  fault _ h hne := by
    rw [(byte_eq_error.1 h).2] at hne
    exact absurd rfl hne

theorem settles_take (n : Nat) : (take n).Settles where
  ok more h := by
    have ⟨hrest, hlen, hpos⟩ := take_eq_ok.1 h
    exact take_eq_ok.2 ⟨by simp [Cursor.extend, hrest], hlen, hpos⟩
  fault _ h hne := by
    rw [(take_eq_error.1 h).2] at hne
    exact absurd rfl hne

theorem settles_unsigned (i : VarInt) (bound : UInt8) : ∀ more, (unsigned i bound more).Settles
  | 0 => settles_position.bind fun _ => settles_byte.bind fun _ =>
    .ite _ (settles_pure _) (.ite _ (settles_fail _ _) (settles_fail _ _))
  | more + 1 => settles_byte.bind fun _ =>
    .ite _ (settles_pure _) ((settles_unsigned i bound more).bind fun _ => settles_pure _)

theorem settles_u32 : u32.Settles := settles_unsigned _ _ _

theorem settles_sectionHead : sectionHead.Settles :=
  settles_position.bind fun _ => settles_byte.bind fun _ =>
    .ite _ (settles_u32.bind fun _ => settles_pure _) (settles_fail _ _)

theorem settles_remaining (length start : Nat) : (remaining length start).Settles :=
  settles_position.bind fun _ => .ite _ (settles_fail _ _) (settles_pure _)

theorem settles_functions : ∀ n left, (functions n left).Settles
  | 0, _ => .ite _ (settles_pure _) (settles_position.bind fun _ => settles_fail _ _)
  | n + 1, left => settles_position.bind fun _ => settles_u32.bind fun _ =>
    (settles_take _).bind fun _ => (settles_remaining left _).bind fun _ => settles_functions n _

theorem settles_code (length : Nat) : (code length).Settles :=
  settles_position.bind fun _ => settles_u32.bind fun _ =>
    (settles_remaining length _).bind fun _ => settles_functions _ _

theorem settles_header : header.Settles :=
  settles_position.bind fun _ => (settles_take 4).bind fun _ =>
    .ite _ (settles_fail _ _) (settles_position.bind fun _ => (settles_take 4).bind fun _ =>
      .ite _ (settles_pure _) (.ite _ (settles_pure _) (settles_fail _ _)))

end Reader

end HostAbi

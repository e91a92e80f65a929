import HostAbi.Binary.Reader

/-!
# Readers and forms

A reader reads a form if what it takes off the front is a form of what it returns, and if it takes
any such form, whatever follows it (`Reads`). So it takes exactly the forms, and no form continues
another. The forms of a reader put together from others are put together from theirs
(`Reads.bind`).
-/

namespace HostAbi.Reader

variable {α β : Type}

/-- Whether a reader takes exactly the forms of a grammar, whatever follows them. -/
def Reads (r : Reader α) (G : α → List UInt8 → Prop) : Prop :=
  ∀ c a c', r c = .ok (a, c') ↔
    ∃ bs, G a bs ∧ c.rest = bs ++ c'.rest ∧ c'.pos = c.pos + bs.length

variable {r : Reader α} {G G' : α → List UInt8 → Prop}

theorem Reads.congr (hr : r.Reads G) (h : ∀ a bs, G a bs ↔ G' a bs) : r.Reads G' := by
  intro c a c'
  simp only [hr c a c', h]

theorem reads_pure (a : α) : (pure a : Reader α).Reads fun a' bs => a' = a ∧ bs = [] := by
  rintro ⟨rest, pos⟩ a' ⟨rest', pos'⟩
  show Except.ok (a, (⟨rest, pos⟩ : Cursor)) = _ ↔ _
  simp only [Except.ok.injEq, Prod.mk.injEq, Cursor.mk.injEq]
  constructor
  · rintro ⟨rfl, rfl, rfl⟩
    exact ⟨[], by simp⟩
  · rintro ⟨_, ⟨rfl, rfl⟩, rfl, rfl⟩
    simp

theorem reads_fail (cause : Cause) (offset : Nat) :
    (fail cause offset : Reader α).Reads fun _ _ => False := by
  intro c a c'
  simp [fail]

theorem reads_byte : byte.Reads fun b bs => bs = [b] := by
  intro c b c'
  rw [byte_eq_ok]
  constructor
  · rintro ⟨h, h'⟩
    exact ⟨[b], rfl, h, h'⟩
  · rintro ⟨_, rfl, h, h'⟩
    exact ⟨h, h'⟩

theorem reads_take (n : Nat) : (take n).Reads fun bs bs' => bs' = bs ∧ bs.length = n := by
  intro c bs c'
  rw [take_eq_ok]
  constructor
  · rintro ⟨h, rfl, h'⟩
    exact ⟨bs, ⟨rfl, rfl⟩, h, h'⟩
  · rintro ⟨_, ⟨rfl, rfl⟩, h, h'⟩
    exact ⟨h, rfl, h'⟩

theorem Reads.bind {f : α → Reader β} {H : α → β → List UInt8 → Prop} (hr : r.Reads G)
    (hf : ∀ a, (f a).Reads (H a)) :
    (r >>= f).Reads fun b bs => ∃ a bs₁ bs₂, G a bs₁ ∧ H a b bs₂ ∧ bs = bs₁ ++ bs₂ := by
  intro c b c'
  rw [bind_eq_ok]
  constructor
  · rintro ⟨a, c₁, h₁, h₂⟩
    obtain ⟨bs₁, g, e₁, p₁⟩ := (hr _ _ _).1 h₁
    obtain ⟨bs₂, g', e₂, p₂⟩ := (hf a _ _ _).1 h₂
    exact ⟨bs₁ ++ bs₂, ⟨a, bs₁, bs₂, g, g', rfl⟩, by simp [e₁, e₂], by simp [p₁, p₂, Nat.add_assoc]⟩
  · rintro ⟨_, ⟨a, bs₁, bs₂, g, g', rfl⟩, e, p⟩
    refine ⟨a, ⟨bs₂ ++ c'.rest, c.pos + bs₁.length⟩, (hr _ _ _).2 ⟨bs₁, g, by simp [e], rfl⟩,
      (hf a _ _ _).2 ⟨bs₂, g', rfl, by simp [p, Nat.add_assoc]⟩⟩

/-- Knowing the position changes nothing that is read. -/
theorem Reads.position {f : Nat → Reader β} {H : β → List UInt8 → Prop}
    (hf : ∀ p, (f p).Reads H) : (Reader.position >>= f).Reads H := by
  intro c b c'
  show f c.pos c = _ ↔ _
  exact hf _ _ _ _

theorem Reads.ite {r' : Reader α} (p : Prop) [Decidable p] (hr : r.Reads G) (hr' : r'.Reads G') :
    (if p then r else r').Reads fun a bs => if p then G a bs else G' a bs := by
  split
  · exact hr
  · exact hr'

/-- What is read and dropped. -/
theorem Reads.drop (hr : r.Reads G) :
    (do let _ ← r : Reader Unit).Reads fun _ bs => ∃ a, G a bs := by
  refine (hr.bind fun _ => reads_pure ()).congr fun _ bs => ?_
  constructor
  · rintro ⟨a, bs, _, h, ⟨-, rfl⟩, rfl⟩
    exact ⟨a, by simpa using h⟩
  · rintro ⟨a, h⟩
    exact ⟨a, bs, [], h, ⟨rfl, rfl⟩, by simp⟩

theorem peek_eq_ok {c c' : Cursor} {b : UInt8} :
    peek c = .ok (b, c') ↔ (∃ rest, c.rest = b :: rest) ∧ c' = c := by
  rcases c with ⟨rest, pos⟩
  cases rest <;> simp [peek, eq_comm]

/-- Looking at the next byte before reading from it. -/
theorem Reads.peek {f : UInt8 → Reader β} {H : UInt8 → β → List UInt8 → Prop}
    (hf : ∀ b, (f b).Reads (H b)) (hH : ∀ b a bs, H b a bs → bs ≠ []) :
    (Reader.peek >>= f).Reads fun a bs => ∃ b rest, bs = b :: rest ∧ H b a bs := by
  intro c a c'
  rw [bind_eq_ok]
  constructor
  · rintro ⟨b, c₁, h₁, h₂⟩
    obtain ⟨⟨rest, hc⟩, rfl⟩ := peek_eq_ok.1 h₁
    obtain ⟨bs, h, e, p⟩ := (hf b _ _ _).1 h₂
    obtain ⟨b', bs, rfl⟩ := List.exists_cons_of_ne_nil (hH b a bs h)
    rw [hc] at e
    obtain ⟨rfl, -⟩ := List.cons.inj e
    exact ⟨_, ⟨b, bs, rfl, h⟩, by rw [hc, e], p⟩
  · rintro ⟨_, ⟨b, rest, rfl, h⟩, e, p⟩
    exact ⟨b, c, peek_eq_ok.2 ⟨⟨_, e⟩, rfl⟩, (hf b _ _ _).2 ⟨_, h, e, p⟩⟩

end HostAbi.Reader

import HostAbi.Binary.Fault

/-!
# Reading bytes

A cursor holds the bytes still to be read and the place of the first of them in the file. A
reader takes bytes off the front, or stops at a fault. Every reader advances: what it leaves is
what it was given without some front part, and the position has grown by that part's length.
-/

namespace HostAbi

/-- The bytes still to be read, and the place in the file of the first of them. -/
structure Cursor where
  rest : List UInt8
  pos : Nat

/-- Takes bytes off the front of a cursor, or stops at a fault. -/
abbrev Reader := StateT Cursor (Except Fault)

namespace Reader

variable {α β : Type}

/-- Stops at a fault, which may lie before the cursor. -/
def fail (cause : Cause) (offset : Nat) : Reader α := fun _ => .error ⟨cause, offset⟩

/-- The place in the file of the next byte. -/
def position : Reader Nat := fun c => .ok (c.pos, c)

/-- The next byte, which stays where it is. -/
def peek : Reader UInt8 := fun c =>
  match c.rest with
  | [] => .error ⟨.unexpectedEnd, c.pos⟩
  | b :: _ => .ok (b, c)

/-- The next byte, taken off the front. -/
def byte : Reader UInt8 := fun c =>
  match c.rest with
  | [] => .error ⟨.unexpectedEnd, c.pos⟩
  | b :: rest => .ok (b, ⟨rest, c.pos + 1⟩)

/-- The next `n` bytes. If fewer are left, the fault is where they would start. -/
def take (n : Nat) : Reader (List UInt8) := fun c =>
  let front := c.rest.take n
  if front.length < n then .error ⟨.unexpectedEnd, c.pos⟩
  else .ok (front, ⟨c.rest.drop n, c.pos + n⟩)

/-- A byte below a bound, such as a set of flags of which only the low ones have a meaning. -/
def byteBelow (bound : UInt8) (cause : Cause) : Reader UInt8 := do
  let start ← position
  let b ← byte
  if b < bound then return b else fail cause start

/-- Whether a reader only ever takes bytes off the front. -/
def Advances (r : Reader α) : Prop :=
  ∀ ⦃c a c'⦄, r c = .ok (a, c') → ∃ front, c.rest = front ++ c'.rest ∧ c'.pos = c.pos + front.length

theorem Advances.length_le {r : Reader α} (hr : r.Advances) {c c' : Cursor} {a : α}
    (h : r c = .ok (a, c')) : c'.rest.length ≤ c.rest.length := by
  obtain ⟨front, hc, -⟩ := hr h
  simp [hc]

theorem bind_eq_ok {r : Reader α} {f : α → Reader β} {c c' : Cursor} {b : β} :
    (r >>= f) c = .ok (b, c') ↔ ∃ a c₁, r c = .ok (a, c₁) ∧ f a c₁ = .ok (b, c') := by
  show (Except.bind (r c) fun p => f p.1 p.2) = _ ↔ _
  rcases r c with e | ⟨a, c₁⟩
  · simp [Except.bind]
  · simp only [Except.bind, Except.ok.injEq, Prod.mk.injEq]
    exact ⟨fun h => ⟨a, c₁, ⟨rfl, rfl⟩, h⟩, by rintro ⟨_, _, ⟨rfl, rfl⟩, h⟩; exact h⟩

theorem bind_eq_error {r : Reader α} {f : α → Reader β} {c : Cursor} {e : Fault} :
    (r >>= f) c = .error e ↔ r c = .error e ∨ ∃ a c₁, r c = .ok (a, c₁) ∧ f a c₁ = .error e := by
  show (Except.bind (r c) fun p => f p.1 p.2) = _ ↔ _
  rcases r c with e' | ⟨a, c₁⟩
  · simp [Except.bind]
  · simp only [Except.bind, reduceCtorEq, false_or, Except.ok.injEq, Prod.mk.injEq]
    exact ⟨fun h => ⟨a, c₁, ⟨rfl, rfl⟩, h⟩, by rintro ⟨_, _, ⟨rfl, rfl⟩, h⟩; exact h⟩

theorem advances_pure (a : α) : (pure a : Reader α).Advances := by
  rintro c _ _ ⟨⟩
  exact ⟨[], by simp⟩

theorem advances_fail (cause : Cause) (offset : Nat) : (fail cause offset : Reader α).Advances :=
  fun _ _ _ h => by simp [fail] at h

theorem Advances.bind {r : Reader α} {f : α → Reader β} (hr : r.Advances)
    (hf : ∀ a, (f a).Advances) : (r >>= f).Advances := by
  intro c b c' h
  obtain ⟨a, c₁, h₁, h₂⟩ := bind_eq_ok.1 h
  obtain ⟨p, hp, hp'⟩ := hr h₁
  obtain ⟨q, hq, hq'⟩ := hf a h₂
  exact ⟨p ++ q, by simp [hp, hq], by simp [hp', hq', Nat.add_assoc]⟩

theorem advances_position : position.Advances := by
  rintro c _ _ ⟨⟩
  exact ⟨[], by simp⟩

theorem byte_eq_ok {c c' : Cursor} {b : UInt8} :
    byte c = .ok (b, c') ↔ c.rest = b :: c'.rest ∧ c'.pos = c.pos + 1 := by
  rcases c with ⟨rest, pos⟩
  rcases c' with ⟨rest', pos'⟩
  cases rest <;> simp [byte, eq_comm, and_assoc]

theorem byte_eq_error {c : Cursor} {f : Fault} :
    byte c = .error f ↔ c.rest = [] ∧ f = ⟨.unexpectedEnd, c.pos⟩ := by
  rcases c with ⟨rest, pos⟩
  cases rest <;> simp [byte, eq_comm]

theorem advances_byte : byte.Advances := fun _ b _ h =>
  ⟨[b], by simp [(byte_eq_ok.1 h).1], by simp [(byte_eq_ok.1 h).2]⟩

theorem take_eq_ok {n : Nat} {c c' : Cursor} {bs : List UInt8} :
    take n c = .ok (bs, c') ↔ c.rest = bs ++ c'.rest ∧ bs.length = n ∧ c'.pos = c.pos + n := by
  rcases c with ⟨rest, pos⟩
  rcases c' with ⟨rest', pos'⟩
  simp only [take]
  split
  · rename_i h
    simp only [reduceCtorEq, false_iff]
    rintro ⟨rfl, rfl, -⟩
    simp at h
  · rename_i h
    simp only [Except.ok.injEq, Prod.mk.injEq, Cursor.mk.injEq]
    constructor
    · rintro ⟨rfl, rfl, rfl⟩
      exact ⟨(List.take_append_drop n rest).symm, by simp at h ⊢; omega, rfl⟩
    · rintro ⟨rfl, rfl, rfl⟩
      simp

theorem take_eq_error {n : Nat} {c : Cursor} {f : Fault} :
    take n c = .error f ↔ c.rest.length < n ∧ f = ⟨.unexpectedEnd, c.pos⟩ := by
  simp only [take, List.length_take]
  split
  · rename_i h
    simp only [Except.error.injEq]
    exact ⟨fun hf => ⟨by omega, hf.symm⟩, fun hf => hf.2.symm⟩
  · rename_i h
    simp only [reduceCtorEq, false_iff]
    omega

theorem advances_take (n : Nat) : (take n).Advances := fun _ bs _ h => by
  obtain ⟨h₁, rfl, h₂⟩ := take_eq_ok.1 h
  exact ⟨bs, h₁, h₂⟩

end Reader

end HostAbi

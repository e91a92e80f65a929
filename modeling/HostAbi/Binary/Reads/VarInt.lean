import HostAbi.Binary.Grammar
import HostAbi.Binary.Reads.Basic

/-!
# The forms of integers

Padding gives an integer several forms, and a reader takes each of them.
-/

namespace HostAbi.Reader

theorem reads_unsigned (i : VarInt) (bound : UInt8) :
    ∀ more, (unsigned i bound more).Reads (Grammar.Unsigned bound more)
  | 0 => by
    unfold unsigned
    refine (Reads.position fun p => reads_byte.bind fun b =>
      .ite (b < bound) (reads_pure b.toNat)
        (.ite (b < 0x80) (reads_fail _ p) (reads_fail _ p))).congr fun n bs => ?_
    constructor
    · rintro ⟨b, _, _, rfl, h, rfl⟩
      split at h
      · obtain ⟨rfl, rfl⟩ := h
        exact .final ‹_›
      · simp at h
    · rintro ⟨h⟩
      exact ⟨_, [_], [], rfl, by simp [h], rfl⟩
  | more + 1 => by
    unfold unsigned
    refine (reads_byte.bind fun b => .ite (b < 0x80) (reads_pure b.toNat)
      ((reads_unsigned i bound more).bind fun m => reads_pure _)).congr fun n bs => ?_
    constructor
    · rintro ⟨b, _, _, rfl, h, rfl⟩
      split at h
      · obtain ⟨rfl, rfl⟩ := h
        exact .short ‹_›
      · obtain ⟨m, bs₁, _, g, ⟨rfl, rfl⟩, rfl⟩ := h
        simpa using Grammar.Unsigned.long (UInt8.not_lt.1 ‹_›) g
    · rintro (_ | h | ⟨h, g⟩)
      · exact ⟨_, [_], [], rfl, by simp [h], rfl⟩
      · exact ⟨_, [_], _, rfl, by
          rw [if_neg (UInt8.not_lt.2 h)]
          exact ⟨_, _, [], g, ⟨rfl, rfl⟩, (List.append_nil _).symm⟩, rfl⟩

theorem reads_u32 : u32.Reads Grammar.U32 := reads_unsigned _ _ _

theorem reads_u64 : u64.Reads Grammar.U64 := reads_unsigned _ _ _

theorem reads_signed : ∀ more, (signed more).Reads (Grammar.Signed more)
  | 0 => by
    unfold signed
    refine (Reads.position fun p => reads_byte.bind fun b =>
      .ite (b < 0x10 ∨ 0x70 ≤ b ∧ b < 0x80) (reads_pure (b.toNat : Int))
        (reads_fail _ p)).congr fun n bs => ?_
    constructor
    · rintro ⟨b, _, _, rfl, h, rfl⟩
      split at h
      · obtain ⟨rfl, rfl⟩ := h
        exact .final ‹_›
      · simp at h
    · rintro ⟨h⟩
      exact ⟨_, [_], [], rfl, by simp [h], rfl⟩
  | more + 1 => by
    unfold signed
    refine (reads_byte.bind fun b => .ite (b < 0x40) (reads_pure (b.toNat : Int))
      (.ite (b < 0x80) (reads_pure ((b.toNat : Int) - 0x80))
      ((reads_signed more).bind fun m => reads_pure _))).congr fun n bs => ?_
    constructor
    · rintro ⟨b, _, _, rfl, h, rfl⟩
      split at h
      · obtain ⟨rfl, rfl⟩ := h
        exact .positive ‹_›
      · rename_i h₄
        split at h
        · obtain ⟨rfl, rfl⟩ := h
          exact .negative (UInt8.not_lt.1 h₄) ‹_›
        · obtain ⟨m, bs₁, _, g, ⟨rfl, rfl⟩, rfl⟩ := h
          simpa using Grammar.Signed.long (UInt8.not_lt.1 ‹_›) g
    · rintro (_ | h | ⟨h, h'⟩ | ⟨h, g⟩)
      · exact ⟨_, [_], [], rfl, by simp [h], rfl⟩
      · exact ⟨_, [_], [], rfl, by simp [UInt8.not_lt.2 h, h'], rfl⟩
      · exact ⟨_, [_], _, rfl, by
          rw [if_neg (UInt8.not_lt.2 (UInt8.le_trans (by decide) h)), if_neg (UInt8.not_lt.2 h)]
          exact ⟨_, _, [], g, ⟨rfl, rfl⟩, (List.append_nil _).symm⟩, rfl⟩

theorem reads_s33 : s33.Reads Grammar.S33 := reads_signed _

end HostAbi.Reader

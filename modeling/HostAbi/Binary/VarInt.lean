import HostAbi.Binary.Reader

/-!
# Integers of variable length

Seven bits of the value to a byte, the lowest first. The high bit of a byte says that another one
follows. A value may be padded up to the most bytes that its width can take, and the bits of that
last byte that lie beyond the width have to be clear.

The signed form of 33 bits is sign-extended from its last byte, except that a fifth byte has to
show the same sign in its three high bits, and its value is then taken as it stands.
-/

namespace HostAbi.Reader

/-- An unsigned integer of at most `more` bytes and one last byte below a bound. -/
def unsigned (i : VarInt) (bound : UInt8) : (more : Nat) → Reader Nat
  | 0 => do
    let start ← position
    let b ← byte
    if b < bound then return b.toNat
    else if b < 0x80 then fail (.integerTooLarge i) start
    else fail (.integerTooLong i) start
  | more + 1 => do
    let b ← byte
    if b < 0x80 then return b.toNat
    else return b.toNat % 0x80 + 0x80 * (← unsigned i bound more)

/-- An unsigned integer of 32 bits, in at most five bytes. -/
def u32 : Reader Nat := unsigned .u32 0x10 4

/-- An unsigned integer of 64 bits, in at most ten bytes. -/
def u64 : Reader Nat := unsigned .u64 0x02 9

/-- A signed integer of at most `more` bytes and a fifth. -/
def signed : (more : Nat) → Reader Int
  | 0 => do
    let start ← position
    let b ← byte
    if b < 0x10 ∨ 0x70 ≤ b ∧ b < 0x80 then return b.toNat
    else fail (.integerTooLong .s33) start
  | more + 1 => do
    let b ← byte
    if b < 0x40 then return b.toNat
    else if b < 0x80 then return (b.toNat : Int) - 0x80
    else return (b.toNat % 0x80 : Nat) + 0x80 * (← signed more)

/-- A signed integer of 33 bits, in at most five bytes. -/
def s33 : Reader Int := signed 4

theorem advances_unsigned (i : VarInt) (bound : UInt8) :
    ∀ more, (unsigned i bound more).Advances
  | 0 => by
    unfold unsigned
    refine advances_position.bind fun _ => advances_byte.bind fun b => ?_
    split
    · exact advances_pure _
    · split <;> exact advances_fail _ _
  | more + 1 => by
    unfold unsigned
    refine advances_byte.bind fun b => ?_
    split
    · exact advances_pure _
    · exact (advances_unsigned i bound more).bind fun _ => advances_pure _

theorem advances_u32 : u32.Advances := advances_unsigned _ _ _

end HostAbi.Reader

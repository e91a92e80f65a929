/-!
# Lower-case hexadecimal
-/

namespace HostAbi.Hex

/-- The shortest hexadecimal form of a number, without a mark in front. -/
def ofNat (n : Nat) : String := String.ofList (Nat.toDigits 16 n)

/-- Two digits for every byte. -/
def ofBytes (bs : List UInt8) : String :=
  String.ofList (bs.flatMap fun b => [Nat.digitChar (b.toNat / 16), Nat.digitChar (b.toNat % 16)])

end HostAbi.Hex

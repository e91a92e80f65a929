import HostAbi.Text.Hex

/-!
# Faults in a module file

What can be wrong with the bytes of a module, and where. Offsets count from the start of the
file. Each cause has one wording, and a fault is reported as that wording and its offset.
-/

namespace HostAbi

/-- The variable-length integers of the format. -/
inductive VarInt where
  | u32
  | u64
  | s33
  deriving DecidableEq

/-- What messages call a form of integer. -/
def VarInt.name : VarInt → String
  | .u32 => "var_u32"
  | .u64 => "var_u64"
  | .s33 => "var_s33"

/-- The forms of type, innermost first. A byte that starts no type is reported as a bad form of
the outermost of them that was being read. -/
inductive TypeForm where
  | abstractHeap
  | heap
  | reference
  | value
  deriving DecidableEq

/-- What can be wrong, told apart as messages tell it apart, with what they show of the file. -/
inductive Cause where
  | unexpectedEnd
  | integerTooLong (i : VarInt)
  | integerTooLarge (i : VarInt)
  | stringTooLong
  | malformedUtf8
  | badMagic (found : List UInt8)
  | unknownVersion (v : Nat)
  | malformedSectionId
  | sectionSizeMismatch
  | startLeftover
  | dataCountLeftover
  | codeLeftover
  | badExternalKind (found : UInt8)
  | badTableFlags
  | badMemoryFlags
  | badGlobalFlags
  | badTagAttributes
  | typeIndexTooLarge
  | badType (form : TypeForm)
  deriving DecidableEq

namespace Cause

/-- Four bytes on lines of their own, in brackets. -/
def byteLines (bs : List UInt8) : String :=
  "[\n" ++ String.join (bs.map fun b => "    0x" ++ Hex.ofNat b.toNat ++ ",\n") ++ "]"

/-- A number in hexadecimal, marked, with blanks in front up to ten characters. -/
def paddedHex (n : Nat) : String :=
  let digits := "0x" ++ Hex.ofNat n
  String.ofList (List.replicate (10 - digits.length) ' ') ++ digits

/-- The wording of a cause. -/
def message : Cause → String
  | .unexpectedEnd => "unexpected end-of-file"
  | .integerTooLong i => "invalid " ++ i.name ++ ": integer representation too long"
  | .integerTooLarge i => "invalid " ++ i.name ++ ": integer too large"
  | .stringTooLong => "string size out of bounds"
  | .malformedUtf8 => "malformed UTF-8 encoding"
  | .badMagic found => "magic header not detected: bad magic number - expected="
      ++ byteLines [0x00, 0x61, 0x73, 0x6d] ++ " actual=" ++ byteLines found
  | .unknownVersion v => "unknown binary version: " ++ paddedHex v
  | .malformedSectionId => "malformed section id"
  | .sectionSizeMismatch => "section size mismatch: unexpected data at the end of the section"
  | .startLeftover => "unexpected content in the start section"
  | .dataCountLeftover => "unexpected content in the data count section"
  | .codeLeftover => "trailing bytes at end of section"
  | .badExternalKind found =>
    "invalid leading byte (0x" ++ Hex.ofNat found.toNat ++ ") for external kind"
  | .badTableFlags => "invalid table resizable limits flags"
  | .badMemoryFlags => "invalid memory limits flags"
  | .badGlobalFlags => "malformed global flags"
  | .badTagAttributes => "invalid tag attributes"
  | .typeIndexTooLarge => "type index greater than implementation limits"
  | .badType .abstractHeap => "invalid abstract heap type"
  | .badType .heap => "invalid heap type"
  | .badType .reference => "malformed reference type"
  | .badType .value => "invalid value type"

end Cause

/-- A cause and the offset in the file that is reported with it. -/
structure Fault where
  cause : Cause
  offset : Nat
  deriving DecidableEq

/-- The wording of the cause, and the offset in hexadecimal. -/
def Fault.message (f : Fault) : String :=
  f.cause.message ++ " (at offset 0x" ++ Hex.ofNat f.offset ++ ")"

end HostAbi

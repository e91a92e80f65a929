import HostAbi.Binary.VarInt

/-!
# Types in a module file

Types are read for their faults only. Each form tries the forms inside it, and a byte that starts
none of them is a bad form of the outermost one, unless a byte that commits to the inner form came
before it. Faults of other causes keep their cause.
-/

namespace HostAbi.Reader

/-- The reader, with what it calls a bad type of any form called one of the given form. -/
def inForm (form : TypeForm) (r : Reader Unit) : Reader Unit := fun c =>
  match r c with
  | .error ⟨.badType _, offset⟩ => .error ⟨.badType form, offset⟩
  | result => result

/-- The bytes that stand for abstract heap types. -/
def isAbstractHeap (b : UInt8) : Bool := 0x68 ≤ b && b ≤ 0x75

/-- A byte that stands for an abstract heap type. -/
def abstractHeapType : Reader Unit := do
  let start ← position
  if isAbstractHeap (← byte) then return else fail (.badType .abstractHeap) start

/-- The largest index that a type may have. -/
def maxTypeIndex : Nat := 0xFFFFF

/-- An abstract heap type, with or without the byte that marks it as shared. -/
def sharedHeapType : Reader Unit := do
  if (← peek) = 0x65 then
    let _ ← byte
    abstractHeapType
  else
    inForm .heap abstractHeapType

/-- A type index, or else an abstract heap type read from the same byte on. -/
def heapType : Reader Unit := fun c => do
  let (n, c') ← s33 c
  -- A negative number is no index, and neither is one that a fifth byte has taken past 32 bits.
  if 0 ≤ n ∧ n < 0x100000000 then
    if n ≤ maxTypeIndex then .ok ((), c') else .error ⟨.typeIndexTooLarge, c'.pos⟩
  else sharedHeapType c

/-- A heap type behind a byte that says whether it may be null, or a heap type alone. -/
def refType : Reader Unit := do
  let b ← peek
  if b = 0x63 ∨ b = 0x64 then
    let _ ← byte
    heapType
  else
    inForm .reference heapType

/-- The bytes that stand for number and vector types. -/
def isNumeric (b : UInt8) : Bool := 0x7b ≤ b && b ≤ 0x7f

/-- A number or vector type, or else a reference type read from the same byte on. -/
def valueType : Reader Unit := do
  if isNumeric (← peek) then
    let _ ← byte
  else
    inForm .value refType

end HostAbi.Reader

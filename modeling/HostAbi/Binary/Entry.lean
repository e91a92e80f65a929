import HostAbi.Binary.Type
import HostAbi.Interface.Basic

/-!
# Import and export entries

An entry names what is imported or exported and says of which kind it is. An import goes on to
describe it, which is read for its faults only.
-/

namespace HostAbi.Reader

/-- The most bytes that a name may have. -/
def maxNameLength : Nat := 100000

/-- A length and that many bytes of UTF-8. -/
def name : Reader String := do
  let n ← u32
  let start ← position
  if maxNameLength < n then fail .stringTooLong (start - 1)
  else
    let bs ← take n
    match Utf8.decode? bs with
    | some s => return s
    | none => fail .malformedUtf8 (start + n - 1)

/-- The byte of a kind. -/
def externalKind : Reader ExternalKind := do
  let start ← position
  let b ← byte
  match ExternalKind.ofCode? b with
  | some kind => return kind
  | none => fail (.badExternalKind b) start

/-- A size of the width that flags ask for. -/
def size (flags : UInt8) : Reader Nat := if flags &&& 4 = 0 then u32 else u64

/-- A size and, if the flags say so, a largest size. -/
def limits (flags : UInt8) : Reader Unit := do
  let _ ← size flags
  if flags &&& 1 = 0 then return
  else
    let _ ← size flags

/-- The type of a table's elements, and its limits. -/
def tableType : Reader Unit := do
  refType
  limits (← byteBelow 8 .badTableFlags)

/-- The limits of a memory and, if the flags say so, the size of its pages. -/
def memoryType : Reader Unit := do
  let flags ← byteBelow 16 .badMemoryFlags
  limits flags
  if flags &&& 8 = 0 then return
  else
    let _ ← u32

/-- The type of a global and its flags. -/
def globalType : Reader Unit := do
  valueType
  let _ ← byteBelow 4 .badGlobalFlags

/-- The attribute byte of a tag, which has to be zero, and the index of its type. -/
def tagType : Reader Unit := do
  let _ ← byteBelow 1 .badTagAttributes
  let _ ← u32

/-- What an import of a kind is described by. -/
def description : ExternalKind → Reader Unit
  | .func => discard u32
  | .table => tableType
  | .memory => memoryType
  | .global => globalType
  | .tag => tagType

/-- A module name, a field name, a kind and the description that goes with the kind. -/
def importEntry : Reader Import := do
  let fromModule ← name
  let field ← name
  let kind ← externalKind
  description kind
  return ⟨fromModule, field, kind.name⟩

/-- A name, a kind and the index of what is exported, which may be any. -/
def exportEntry : Reader Export := do
  let field ← name
  let kind ← externalKind
  let _ ← u32
  return ⟨field, kind.name⟩

end HostAbi.Reader

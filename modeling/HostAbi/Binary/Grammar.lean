import HostAbi.Binary.Module

/-!
# The grammar of module files

Which bytes stand for what, said without reading them: an integer has several forms, a name has one
for each form of its length, and a file is a header and the sections of its interface. Entries come
in the order of the file here.
-/

namespace HostAbi.Grammar

/-- Bytes that stand for an unsigned integer, of at most `more` bytes and one last byte below a
bound. -/
inductive Unsigned (bound : UInt8) : (more : Nat) → Nat → List UInt8 → Prop where
  | final {b : UInt8} : b < bound → Unsigned bound 0 b.toNat [b]
  | short {more : Nat} {b : UInt8} : b < 0x80 → Unsigned bound (more + 1) b.toNat [b]
  | long {more n : Nat} {b : UInt8} {bs : List UInt8} : 0x80 ≤ b → Unsigned bound more n bs →
      Unsigned bound (more + 1) (b.toNat % 0x80 + 0x80 * n) (b :: bs)

/-- The forms of an unsigned integer of 32 bits, of at most five bytes. -/
def U32 : Nat → List UInt8 → Prop := Unsigned 0x10 4

/-- The forms of an unsigned integer of 64 bits, of at most ten bytes. -/
def U64 : Nat → List UInt8 → Prop := Unsigned 0x02 9

/-- Bytes that stand for a signed integer, of at most `more` bytes and a fifth. The fifth has the
same sign in its three high bits and counts as it stands. -/
inductive Signed : (more : Nat) → Int → List UInt8 → Prop where
  | final {b : UInt8} : b < 0x10 ∨ 0x70 ≤ b ∧ b < 0x80 → Signed 0 b.toNat [b]
  | positive {more : Nat} {b : UInt8} : b < 0x40 → Signed (more + 1) b.toNat [b]
  | negative {more : Nat} {b : UInt8} : 0x40 ≤ b → b < 0x80 →
      Signed (more + 1) (b.toNat - 0x80) [b]
  | long {more : Nat} {n : Int} {b : UInt8} {bs : List UInt8} : 0x80 ≤ b → Signed more n bs →
      Signed (more + 1) ((b.toNat % 0x80 : Nat) + 0x80 * n) (b :: bs)

/-- The forms of a signed integer of 33 bits, of at most five bytes. -/
def S33 : Int → List UInt8 → Prop := Signed 4

/-- A name is the number of its bytes, in any form, and then the bytes, which are not too many. -/
def Name (s : String) (bs : List UInt8) : Prop :=
  ∃ length, U32 (Utf8.encode s).length length ∧ (Utf8.encode s).length ≤ Reader.maxNameLength ∧
    bs = length ++ Utf8.encode s

/-- A heap type is an index that is not too large, or one byte, which may be marked as shared. -/
inductive HeapType : List UInt8 → Prop where
  | index {n : Int} {bs : List UInt8} : S33 n bs → 0 ≤ n → n ≤ Reader.maxTypeIndex → HeapType bs
  | plain {b : UInt8} : Reader.isAbstractHeap b → HeapType [b]
  | shared {b : UInt8} : Reader.isAbstractHeap b → HeapType [0x65, b]

/-- A reference type is a heap type, or one behind a byte that says whether it may be null. -/
inductive RefType : List UInt8 → Prop where
  | short {bs : List UInt8} : HeapType bs → RefType bs
  | long {b : UInt8} {bs : List UInt8} : b = 0x63 ∨ b = 0x64 → HeapType bs → RefType (b :: bs)

/-- A value type is a number or vector type, or a reference type. -/
inductive ValueType : List UInt8 → Prop where
  | numeric {b : UInt8} : Reader.isNumeric b → ValueType [b]
  | reference {bs : List UInt8} : RefType bs → ValueType bs

/-- A size of the width that flags ask for. -/
def Size (flags : UInt8) (bs : List UInt8) : Prop :=
  ∃ n, if flags &&& 4 = 0 then U32 n bs else U64 n bs

/-- A size and, if the flags say so, a largest size. -/
def Limits (flags : UInt8) (bs : List UInt8) : Prop :=
  if flags &&& 1 = 0 then Size flags bs
  else ∃ least most, Size flags least ∧ Size flags most ∧ bs = least ++ most

/-- What an import of a kind is described by. -/
inductive Description : ExternalKind → List UInt8 → Prop where
  | func {n : Nat} {bs : List UInt8} : U32 n bs → Description .func bs
  | table {flags : UInt8} {type limits : List UInt8} : RefType type → flags < 8 →
      Limits flags limits → Description .table (type ++ flags :: limits)
  | memory {flags : UInt8} {limits : List UInt8} : flags < 16 → flags &&& 8 = 0 →
      Limits flags limits → Description .memory (flags :: limits)
  | pagedMemory {flags : UInt8} {n : Nat} {limits page : List UInt8} : flags < 16 →
      flags &&& 8 ≠ 0 → Limits flags limits → U32 n page →
      Description .memory (flags :: limits ++ page)
  | global {flags : UInt8} {type : List UInt8} : ValueType type → flags < 4 →
      Description .global (type ++ [flags])
  | tag {n : Nat} {bs : List UInt8} : U32 n bs → Description .tag (0 :: bs)

/-- An import names a module and a field of it, and describes what that is to be. -/
inductive ImportEntry : Import → List UInt8 → Prop where
  | mk {fromModule name : String} {kind : ExternalKind} {bs₁ bs₂ bs₃ : List UInt8} :
      Name fromModule bs₁ → Name name bs₂ → Description kind bs₃ →
      ImportEntry ⟨fromModule, name, kind.name⟩ (bs₁ ++ bs₂ ++ kind.code :: bs₃)

/-- An export has a name, a kind and an index, of which nothing is asked. -/
inductive ExportEntry : Export → List UInt8 → Prop where
  | mk {name : String} {kind : ExternalKind} {n : Nat} {bs₁ bs₂ : List UInt8} :
      Name name bs₁ → U32 n bs₂ → ExportEntry ⟨name, kind.name⟩ (bs₁ ++ kind.code :: bs₂)

/-- Things one after the other, each in a form of its own. -/
inductive Sequence {α : Type} (Form : α → List UInt8 → Prop) : List α → List UInt8 → Prop where
  | nil : Sequence Form [] []
  | cons {a : α} {as : List α} {bs bs' : List UInt8} : Form a bs → Sequence Form as bs' →
      Sequence Form (a :: as) (bs ++ bs')

/-- A count and that many things. -/
def Listing {α : Type} (Form : α → List UInt8 → Prop) (as : List α) (bs : List UInt8) : Prop :=
  ∃ count items, U32 as.length count ∧ Sequence Form as items ∧ bs = count ++ items

/-- A function of a code section, given by its size. -/
def Function (size : Nat) (bs : List UInt8) : Prop :=
  ∃ length body, U32 size length ∧ body.length = size ∧ bs = length ++ body

/-- The body of a section of a kind, and what it adds to the interface. -/
inductive Body : SectionKind → Interface → List UInt8 → Prop where
  | custom {s : String} {bs rest : List UInt8} : Name s bs → Body .custom {} (bs ++ rest)
  | counted {n : Nat} {bs rest : List UInt8} : U32 n bs → Body .counted {} (bs ++ rest)
  | imports {is : List Import} {bs : List UInt8} : Listing ImportEntry is bs →
      Body .imports { imports := is } bs
  | exports {es : List Export} {bs : List UInt8} : Listing ExportEntry es bs →
      Body .exports { exports := es } bs
  | lone {leftover : Cause} {n : Nat} {bs : List UInt8} : U32 n bs → Body (.lone leftover) {} bs
  | code {sizes : List Nat} {bs : List UInt8} : Listing Function sizes bs → Body .code {} bs
  | skipped {bs : List UInt8} : Body .skipped {} bs

/-- A section is an id, the length of its body in any form, and a body of the kind that the id
tells. -/
inductive Section : Interface → List UInt8 → Prop where
  | mk {id : UInt8} {I : Interface} {length body : List UInt8} : id < 0x80 →
      U32 body.length length → Body (.ofId id) I body → Section I (id :: length ++ body)

/-- A header of a core module. The low half of the version is of no matter. -/
inductive Header : List UInt8 → Prop where
  | mk (low high : UInt8) : Header (Reader.magic ++ [low, high, 0, 0])

/-- The file of a core module with this interface. -/
inductive Module : Interface → List UInt8 → Prop where
  | mk {header bs : List UInt8} {parts : List Interface} : Header header →
      Sequence Section parts bs → Module (.join parts) (header ++ bs)

end HostAbi.Grammar

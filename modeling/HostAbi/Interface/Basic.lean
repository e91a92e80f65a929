import HostAbi.Text.Utf8

/-!
# The interface of a module

What a module takes from its host and what it offers. Imports are ordered by module, name and
kind, exports by name and kind, each text by its UTF-8 bytes.
-/

namespace HostAbi

/-- Something that a module takes from its host, by the module and the name it is offered under. -/
structure Import where
  fromModule : String
  name : String
  kind : String
  deriving DecidableEq

/-- What imports are ordered by. -/
def Import.key (i : Import) : List (List UInt8) :=
  [Utf8.encode i.fromModule, Utf8.encode i.name, Utf8.encode i.kind]

/-- Something that a module offers, under a name. -/
structure Export where
  name : String
  kind : String
  deriving DecidableEq

/-- What exports are ordered by. -/
def Export.key (e : Export) : List (List UInt8) := [Utf8.encode e.name, Utf8.encode e.kind]

/-- What a module takes and offers, in any order. -/
structure Interface where
  imports : List Import := []
  exports : List Export := []
  deriving DecidableEq

namespace Interface

/-- What one part of a module declares, and then what another does. -/
instance : Append Interface := ⟨fun I J => ⟨I.imports ++ J.imports, I.exports ++ J.exports⟩⟩

/-- What several parts of a module declare, one after the other. -/
def join (parts : List Interface) : Interface := parts.foldr (· ++ ·) {}

/-- The interface with its entries in order. Entries that are declared twice stay twice. -/
def sorted (I : Interface) : Interface where
  imports := I.imports.mergeSort fun a b => a.key ≤ b.key
  exports := I.exports.mergeSort fun a b => a.key ≤ b.key

end Interface

/-- The sorts of thing that a module can import or export. -/
inductive ExternalKind where
  | func
  | table
  | memory
  | global
  | tag
  deriving DecidableEq

namespace ExternalKind

def all : List ExternalKind := [.func, .table, .memory, .global, .tag]

/-- The name of a kind, as reports give it. -/
def name : ExternalKind → String
  | .func => "func"
  | .table => "table"
  | .memory => "memory"
  | .global => "global"
  | .tag => "tag"

/-- The byte that stands for a kind in a module file. -/
def code : ExternalKind → UInt8
  | .func => 0
  | .table => 1
  | .memory => 2
  | .global => 3
  | .tag => 4

/-- The kind that a byte stands for. -/
def ofCode? (b : UInt8) : Option ExternalKind := all.find? (·.code == b)

theorem ofCode?_code (k : ExternalKind) : ofCode? k.code = some k := by cases k <;> rfl

theorem code_of_ofCode? {b : UInt8} {k : ExternalKind} (h : ofCode? b = some k) : k.code = b := by
  simpa using List.find?_some h

end ExternalKind

end HostAbi

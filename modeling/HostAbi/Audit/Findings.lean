import HostAbi.Host.Linkage
import HostAbi.Interface.Basic

/-!
# Findings

What stands in the way of a module on the host: imports that do not link, imports that link and
fail when called, and exports that the host needs and does not find. Only functions link at all.
Stubbed imports do not keep a module from being started, so findings can be clean with them.
-/

namespace HostAbi

/-- What a module has to export for the host to start it. -/
def requiredExports : List Export := [⟨"memory", "memory"⟩, ⟨"_initialize", "func"⟩]

/-- How the host resolves an import. What is not a function does not link. -/
def Import.linkage (i : Import) : Linkage :=
  if i.kind = ExternalKind.func.name then Host.linkage i.fromModule i.name else .unlinked

/-- The imports that do not link, those that link and fail, and the names of required exports that
are not there. -/
structure Findings where
  unsupported : List Import
  stubbed : List Import
  missing : List String
  deriving DecidableEq

namespace Findings

/-- Whether the host can start the module. Stubs do not keep it from that. -/
def isClean (F : Findings) : Bool := F.unsupported.isEmpty && F.missing.isEmpty

end Findings

/-- The findings on an interface, in its order. -/
def Interface.findings (I : Interface) : Findings where
  unsupported := I.imports.filter (·.linkage = .unlinked)
  stubbed := I.imports.filter (·.linkage = .stubbed)
  missing := (requiredExports.filter (· ∉ I.exports)).map (·.name)

end HostAbi

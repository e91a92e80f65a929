import HostAbi.Command.Argument
import HostAbi.Fact.Basic

/-!
# Requests

What a command line asks for. Its pieces are taken from left to right, and the first that settles
the matter does: a call for help or for the version, or a mistake. An option that is given twice is
a mistake, and so is an empty value.
-/

namespace HostAbi

/-- The forms in which a report can be given. -/
inductive Format where
  | text
  | json
  deriving DecidableEq

namespace Format

def all : List Format := [.text, .json]

/-- The word for a format on a command line. -/
def name : Format → String
  | .text => "text"
  | .json => "json"

/-- The format that a word stands for, in this spelling only. -/
def ofName? (s : String) : Option Format := all.find? (·.name == s)

theorem ofName?_name (f : Format) : ofName? f.name = some f := by cases f <;> rfl

end Format

/-- A verification that was asked for. Without a path, its document goes to standard output. -/
structure VerifyRequest where
  profile : Profile := .extended
  format : Format := .text
  out : Option String := none
  verbose : Bool := false
  deriving DecidableEq

/-- An audit that was asked for, of the module file at a path. -/
structure AuditRequest where
  path : String
  format : Format := .text
  out : Option String := none
  deriving DecidableEq

/-- What a command line can ask for. -/
inductive Request where
  | verify (r : VerifyRequest)
  | audit (r : AuditRequest)
  deriving DecidableEq

/-- What ends the reading of a command line early. -/
inductive Stop where
  | help
  | version
  | usageError
  deriving DecidableEq

/-- What the pieces so far have given. -/
structure Draft where
  profile : Option Profile := none
  format : Option Format := none
  out : Option String := none
  verbose : Bool := false
  path : Option String := none
  deriving DecidableEq

namespace Draft

/-- A value that is given for the first time. -/
def setOnce {α : Type} (old value : Option α) : Except Stop (Option α) :=
  match old, value with
  | none, some a => .ok (some a)
  | _, _ => .error .usageError

/-- A path, which has at least one character. -/
def nonempty? (s : String) : Option String := if s = "" then none else some s

/-- Takes a piece into a draft. It is a mistake to give again what has been given, to give a value
that an option does not have, or an operand where none belongs. A call for help or for the version
counts before any mistake behind it. -/
def add (S : Scope) (d : Draft) : Piece → Except Stop Draft
  | .option .profile value => do
    return { d with profile := ← setOnce d.profile (Profile.ofName? value) }
  | .option .format value => do
    return { d with format := ← setOnce d.format (Format.ofName? value) }
  | .option .out value => do return { d with out := ← setOnce d.out (nonempty? value) }
  | .flag .verbose => if d.verbose then .error .usageError else .ok { d with verbose := true }
  | .flag .help => .error .help
  | .flag .version => .error .version
  | .operand s => do
    if S = .audit then return { d with path := ← setOnce d.path (nonempty? s) }
    else .error .usageError
  | .invalid => .error .usageError

/-- The request that the pieces make, with what was left out as usual. -/
def request (S : Scope) (d : Draft) : Except Stop Request :=
  let format := d.format.getD .text
  match S, d.path with
  | .audit, some path => .ok (.audit ⟨path, format, d.out⟩)
  | .audit, none => .error .usageError
  | _, _ => .ok (.verify ⟨d.profile.getD .extended, format, d.out, d.verbose⟩)

end Draft

/-- The request that the words of a scope make. -/
def Scope.request (S : Scope) (words : List String) : Except Stop Request := do
  (← (S.pieces words).foldlM (Draft.add S) {}).request S

/-- The request that a command line makes. The subcommand is its first word, if any. -/
def Request.ofWords : List String → Except Stop Request
  | [] => Scope.top.request []
  | word :: words =>
    if word = "verify" then Scope.verify.request words
    else if word = "audit" then Scope.audit.request words
    else if word = "help" then
      -- There is help on each subcommand, and on this one.
      .error (if words ∈ [[], ["verify"], ["audit"], ["help"]] then .help else .usageError)
    else Scope.top.request (word :: words)

end HostAbi

/-!
# Command line words

The words of a command line are told apart by their looks alone: options with their values, flags,
which may share a dash, and operands. What a word may be depends on the subcommand it belongs to.
After two dashes alone there are only operands. Reading stops at a word that is none of these.
-/

namespace HostAbi

/-- The part of a command line that words belong to. -/
inductive Scope where
  | top
  | verify
  | audit
  deriving DecidableEq

/-- The options, each of which takes a value. -/
inductive OptionName where
  | profile
  | format
  | out
  deriving DecidableEq

/-- The flags, which take no value. -/
inductive Flag where
  | verbose
  | help
  | version
  deriving DecidableEq

/-- What a command line is made of. -/
inductive Piece where
  | option (name : OptionName) (value : String)
  | flag (f : Flag)
  | operand (s : String)
  | invalid
  deriving DecidableEq

/-- The word for an option, without its dashes. -/
def OptionName.long : OptionName → String
  | .profile => "profile"
  | .format => "format"
  | .out => "out"

namespace Flag

/-- The word for a flag, without its dashes. -/
def long : Flag → String
  | .verbose => "verbose"
  | .help => "help"
  | .version => "version"

/-- The letter for a flag, which may share its dash with others. -/
def short : Flag → Char
  | .verbose => 'v'
  | .help => 'h'
  | .version => 'V'

end Flag

namespace Scope

/-- The options of a scope. An audit has no profile. -/
def options : Scope → List OptionName
  | .top | .verify => [.profile, .format, .out]
  | .audit => [.format, .out]

/-- The flags of a scope. The version can be asked for only where there is no subcommand. -/
def flags : Scope → List Flag
  | .top => [.verbose, .help, .version]
  | .verify => [.verbose, .help]
  | .audit => [.help]

/-- The option that a scope has under a word. -/
def option? (S : Scope) (long : String) : Option OptionName := S.options.find? (·.long == long)

/-- The flag that a scope has under a word. -/
def flag? (S : Scope) (long : String) : Option Flag := S.flags.find? (·.long == long)

/-- The flag that a scope has under a letter. -/
def shortFlag? (S : Scope) (c : Char) : Option Flag := S.flags.find? (·.short == c)

end Scope

/-- The forms that a word can have. -/
inductive WordForm where
  | separator
  | long (name : String) (value : Option String)
  | short (letters : List Char)
  | plain

/-- A dash alone is a plain word. -/
def wordForm (word : String) : WordForm :=
  match word.toList with
  | ['-', '-'] => .separator
  | '-' :: '-' :: cs =>
    match cs.span (· ≠ '=') with
    | (name, []) => .long (.ofList name) none
    | (name, _ :: value) => .long (.ofList name) (some (.ofList value))
  | '-' :: c :: cs => .short (c :: cs)
  | _ => .plain

namespace Scope

/-- The pieces of a command line of a scope. -/
def pieces (S : Scope) : List String → List Piece
  | [] => []
  | word :: words =>
    match wordForm word with
    | .separator => words.map .operand
    | .plain => .operand word :: S.pieces words
    | .short letters =>
      letters.map (fun c => (S.shortFlag? c).elim .invalid .flag) ++ S.pieces words
    | .long name (some value) =>
      match S.option? name with
      | some o => .option o value :: S.pieces words
      | none => [.invalid]
    | .long name none =>
      match S.flag? name with
      | some f => .flag f :: S.pieces words
      | none =>
        match words with
        | [] => [.invalid]
        -- The next word is the value, but not one that looks like something else.
        | value :: words =>
          match S.option? name, wordForm value with
          | some o, .plain => .option o value :: S.pieces words
          | _, _ => [.invalid]

end Scope

end HostAbi

import HostAbi.Command.Request

/-!
# Writing a command line

The words that stand for the pieces of a command line. An option and its value are two words or
one, a flag has a long and a short form, and an operand is a word as it stands, unless it looks
like something else and has to follow two dashes. What a draft holds can be given in any order.
-/

namespace HostAbi

/-- Whether a word looks like an option or like flags. A dash alone does not. -/
def LooksLikeOption (word : String) : Prop := ∃ c cs, word.toList = '-' :: c :: cs

namespace Piece

/-- Words that stand for one piece. -/
inductive Spelling : Piece → List String → Prop where
  | spaced {o : OptionName} {value : String} : ¬LooksLikeOption value →
      Spelling (.option o value) ["--" ++ o.long, value]
  | attached {o : OptionName} {value : String} :
      Spelling (.option o value) ["--" ++ o.long ++ "=" ++ value]
  | long {f : Flag} : Spelling (.flag f) ["--" ++ f.long]
  | short {f : Flag} : Spelling (.flag f) [String.ofList ['-', f.short]]
  | operand {s : String} : ¬LooksLikeOption s → Spelling (.operand s) [s]

/-- An option that is given again, be it with another value, or a flag. -/
inductive Repeats : Piece → Piece → Prop where
  | option {o : OptionName} {value value' : String} : Repeats (.option o value') (.option o value)
  | flag {f : Flag} : Repeats (.flag f) (.flag f)

/-- What can be set for a verification. -/
inductive IsVerifyOption : Piece → Prop where
  | option {o : OptionName} {value : String} : IsVerifyOption (.option o value)
  | verbose : IsVerifyOption (.flag .verbose)

end Piece

/-- Words that stand for pieces in this order. -/
inductive Spelled : List Piece → List String → Prop where
  | nil : Spelled [] []
  | cons {p : Piece} {ps : List Piece} {ws ws' : List String} : p.Spelling ws → Spelled ps ws' →
      Spelled (p :: ps) (ws ++ ws')
  | separated {operands : List String} :
      Spelled (operands.map .operand) ("--" :: operands)

namespace Draft

/-- The pieces that give a draft, in one of their orders. -/
def pieces (d : Draft) : List Piece :=
  (d.profile.map fun p => Piece.option .profile p.name).toList
    ++ (d.format.map fun f => Piece.option .format f.name).toList
    ++ (d.out.map fun path => Piece.option .out path).toList
    ++ (if d.verbose then [.flag .verbose] else [])
    ++ (d.path.map Piece.operand).toList

/-- Words that stand for what a draft holds, in any order. -/
def Arranged (d : Draft) (words : List String) : Prop :=
  ∃ ps, ps.Perm d.pieces ∧ Spelled ps words

/-- Words that stand for what a draft holds and for one of its options or flags once more. -/
def Repeated (d : Draft) (words : List String) : Prop :=
  ∃ p ∈ d.pieces, ∃ q, q.Repeats p ∧ ∃ ps, ps.Perm (q :: d.pieces) ∧ Spelled ps words

end Draft

namespace Scope

/-- The word that command lines of a scope begin with, if any. -/
def subcommand : Scope → List String
  | .top => []
  | .verify => ["verify"]
  | .audit => ["audit"]

/-- The request that is meant by giving what a draft holds and leaving out the rest. -/
inductive Means : Scope → Draft → Request → Prop where
  | verify {S : Scope} {profile : Option Profile} {format : Option Format} {out : Option String}
      {verbose : Bool} : S ≠ .audit → out ≠ some "" → Means S { profile, format, out, verbose }
        (.verify ⟨profile.getD .extended, format.getD .text, out, verbose⟩)
  | audit {path : String} {format : Option Format} {out : Option String} : path ≠ "" →
      out ≠ some "" → Means .audit { format, out, path := some path }
        (.audit ⟨path, format.getD .text, out⟩)

end Scope

end HostAbi

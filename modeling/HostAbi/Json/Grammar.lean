import HostAbi.Json.Basic
import HostAbi.Json.Number

/-!
# The grammar of JSON texts

Which characters a value can be written with. Blanks may stand around every value, key and mark,
and between quotes a code point can be written in several ways. A text is one value, and nothing
else but blanks.
-/

namespace HostAbi

/-- Any number of blanks. -/
def Blanks (cs : List Char) : Prop := ∀ c ∈ cs, c ∈ [' ', '\t', '\n', '\r']

theorem blanks_nil : Blanks [] := by simp [Blanks]

/-- The characters that stand for a code point behind a backslash. -/
def shortEscapes : List (Char × Nat) :=
  [('"', 0x22), ('\\', 0x5C), ('/', 0x2F), ('b', 0x08), ('f', 0x0C), ('n', 0x0A), ('r', 0x0D),
    ('t', 0x09)]

/-- A digit of a number to base sixteen, in either case. -/
def HexDigit (n : Nat) (c : Char) : Prop :=
  n < 0x10 ∧ (c = Nat.digitChar n ∨ c = (Nat.digitChar n).toUpper)

/-- The characters that stand for code points between two quotes. -/
inductive Points.Spells : Points → List Char → Prop
  | nil : Spells [] []
  | plain {c : Char} {ps : Points} {cs : List Char} : c ≠ '"' → c ≠ '\\' → 0x20 ≤ c.toNat →
      Spells ps cs → Spells (c.toNat :: ps) (c :: cs)
  | short {c : Char} {p : Nat} {ps : Points} {cs : List Char} : (c, p) ∈ shortEscapes →
      Spells ps cs → Spells (p :: ps) ('\\' :: c :: cs)
  | unicode {a b c d : Char} {i j k l : Nat} {ps : Points} {cs : List Char} : HexDigit i a →
      HexDigit j b → HexDigit k c → HexDigit l d → Spells ps cs →
      Spells ((0x1000 * i + 0x100 * j + 0x10 * k + l) :: ps) ('\\' :: 'u' :: a :: b :: c :: d :: cs)

namespace Json

mutual

/-- The characters of a value, from its first to its last. -/
inductive Spells : Json → List Char → Prop
  | null : Spells .null ['n', 'u', 'l', 'l']
  | true : Spells (.bool true) ['t', 'r', 'u', 'e']
  | false : Spells (.bool false) ['f', 'a', 'l', 's', 'e']
  | num {cs : List Char} : Number.isLiteral cs → Spells (.num cs) cs
  | str {ps : Points} {cs : List Char} : ps.Spells cs → Spells (.str ps) ('"' :: cs ++ ['"'])
  | emptyArr {ws : List Char} : Blanks ws → Spells (.arr []) ('[' :: ws ++ [']'])
  | arr {vs : List Json} {cs : List Char} : Items vs cs → Spells (.arr vs) ('[' :: cs ++ [']'])
  | emptyObj {ws : List Char} : Blanks ws → Spells (.obj []) ('\x7b' :: ws ++ ['\x7d'])
  | obj {ms : List (Points × Json)} {cs : List Char} : Members ms cs →
      Spells (.obj ms) ('\x7b' :: cs ++ ['\x7d'])

/-- A value with blanks around it. -/
inductive Item : Json → List Char → Prop
  | mk {v : Json} {ws cs ws' : List Char} : Blanks ws → Spells v cs → Blanks ws' →
      Item v (ws ++ cs ++ ws')

/-- One or more values with commas between them. -/
inductive Items : List Json → List Char → Prop
  | one {v : Json} {cs : List Char} : Item v cs → Items [v] cs
  | more {v : Json} {vs : List Json} {cs ds : List Char} : Item v cs → Items vs ds →
      Items (v :: vs) (cs ++ ',' :: ds)

/-- A key and its value. -/
inductive Member : Points × Json → List Char → Prop
  | mk {k : Points} {v : Json} {ws ks ws' cs : List Char} : Blanks ws → k.Spells ks → Blanks ws' →
      Item v cs → Member (k, v) (ws ++ '"' :: ks ++ '"' :: ws' ++ ':' :: cs)

/-- One or more members with commas between them. -/
inductive Members : List (Points × Json) → List Char → Prop
  | one {m : Points × Json} {cs : List Char} : Member m cs → Members [m] cs
  | more {m : Points × Json} {ms : List (Points × Json)} {cs ds : List Char} : Member m cs →
      Members ms ds → Members (m :: ms) (cs ++ ',' :: ds)

end

/-- Whether a text is one value. -/
def Document (v : Json) (text : String) : Prop := Item v text.toList

end Json

end HostAbi

import HostAbi.Json.Basic

/-!
# Writing a value

There is one writer, and spacing is a parameter of it: what stands in front of each item, and what
follows a key. Only quotes, backslashes and the characters below the blank are escaped.
-/

namespace HostAbi

/-- Where a document has blanks. The gap at a depth stands in front of each item of that depth, and
in front of the bracket that closes a list or record of it. -/
structure Spacing where
  gap : Nat → List Char
  afterKey : List Char

namespace Spacing

/-- No blanks at all. -/
def compact : Spacing := ⟨fun _ => [], [':']⟩

/-- An item to a line, two blanks further in for each level. -/
def pretty : Spacing := ⟨fun depth => '\n' :: List.replicate (2 * depth) ' ', [':', ' ']⟩

end Spacing

namespace Points

/-- The escape by number, in four digits. -/
def unicodeEscape (p : Nat) : List Char :=
  ['\\', 'u', Nat.digitChar (p / 0x1000 % 16), Nat.digitChar (p / 0x100 % 16),
    Nat.digitChar (p / 0x10 % 16), Nat.digitChar (p % 16)]

/-- How a code point is written. Half of a surrogate pair is escaped, as it is no character. -/
def escapePoint (p : Nat) : List Char :=
  if p = 0x22 then ['\\', '"']
  else if p = 0x5C then ['\\', '\\']
  else if p = 0x08 then ['\\', 'b']
  else if p = 0x09 then ['\\', 't']
  else if p = 0x0A then ['\\', 'n']
  else if p = 0x0C then ['\\', 'f']
  else if p = 0x0D then ['\\', 'r']
  else if p < 0x20 || isHigh p || isLow p then unicodeEscape p
  else [Char.ofNat p]

/-- A text between quotes. -/
def quoted (ps : Points) : List Char := '"' :: ps.flatMap escapePoint ++ ['"']

end Points

namespace Json

mutual

/-- The characters of a value at a depth. -/
def chars (S : Spacing) (depth : Nat) : Json → List Char
  | .null => ['n', 'u', 'l', 'l']
  | .bool true => ['t', 'r', 'u', 'e']
  | .bool false => ['f', 'a', 'l', 's', 'e']
  | .num literal => literal
  | .str points => points.quoted
  | .arr [] => ['[', ']']
  | .arr (v :: vs) =>
    '[' :: S.gap (depth + 1) ++ chars S (depth + 1) v ++ moreItems S (depth + 1) vs ++ S.gap depth
      ++ [']']
  | .obj [] => ['\x7b', '\x7d']
  | .obj ((k, v) :: ms) =>
    '\x7b' :: S.gap (depth + 1) ++ k.quoted ++ S.afterKey ++ chars S (depth + 1) v
      ++ moreMembers S (depth + 1) ms ++ S.gap depth ++ ['\x7d']

/-- The items behind the first one. -/
def moreItems (S : Spacing) (depth : Nat) : List Json → List Char
  | [] => []
  | v :: vs => ',' :: S.gap depth ++ chars S depth v ++ moreItems S depth vs

def moreMembers (S : Spacing) (depth : Nat) : List (Points × Json) → List Char
  | [] => []
  | (k, v) :: ms =>
    ',' :: S.gap depth ++ k.quoted ++ S.afterKey ++ chars S depth v ++ moreMembers S depth ms

end

/-- The text of a value on one line without blanks. -/
def compact (v : Json) : String := String.ofList (v.chars .compact 0)

/-- The text of a value with an item to a line, and no line end behind it. -/
def pretty (v : Json) : String := String.ofList (v.chars .pretty 0)

end Json

end HostAbi

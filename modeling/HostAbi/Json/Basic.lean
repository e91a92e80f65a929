/-!
# JSON values

A value as its text gives it. Objects keep their members in order, repeated ones included. A
number keeps its literal and a text its code points, because a text can be written that holds half
of a surrogate pair and so spells no string (`Json.text?`).
-/

namespace HostAbi

/-- The code points of a text, of which surrogates may stand alone. -/
abbrev Points := List Nat

/-- A value, with nothing dropped that a reader may want to refuse. -/
inductive Json where
  | null
  | bool (b : Bool)
  | num (literal : List Char)
  | str (points : Points)
  | arr (items : List Json)
  | obj (members : List (Points × Json))

namespace Points

/-- Whether a code point is the first half of a surrogate pair. -/
def isHigh (p : Nat) : Bool := 0xD800 ≤ p && p < 0xDC00

/-- Whether a code point is the second half of a surrogate pair. -/
def isLow (p : Nat) : Bool := 0xDC00 ≤ p && p < 0xE000

/-- The code points of a string, none of which is a surrogate. -/
def ofString (s : String) : Points := s.toList.map Char.toNat

/-- The characters that code points spell. A high surrogate and a low one behind it spell one
character, and a surrogate that is not in such a pair spells none. -/
def chars? : Points → Option (List Char)
  | [] => some []
  | [p] => if isHigh p || isLow p then none else some [Char.ofNat p]
  | p :: q :: rest =>
    if isHigh p && isLow q then
      (chars? rest).map (Char.ofNat (0x10000 + (p - 0xD800) * 0x400 + (q - 0xDC00)) :: ·)
    else if isHigh p || isLow p then none
    else (chars? (q :: rest)).map (Char.ofNat p :: ·)

/-- The string that code points spell, if they spell one. -/
def text? (ps : Points) : Option String := ps.chars?.map String.ofList

end Points

/-- The decimal literal of an integer. -/
def Json.ofInt (n : Int) : Json := .num n.repr.toList

/-- A string as a value. -/
def Json.ofString (s : String) : Json := .str (.ofString s)

/-- An object with these members in this order. -/
def Json.record (members : List (String × Json)) : Json :=
  .obj (members.map fun (name, v) => (.ofString name, v))

end HostAbi

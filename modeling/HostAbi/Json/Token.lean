import HostAbi.Json.Basic
import HostAbi.Json.Number

/-!
# From characters to tokens

The characters of a JSON text go through a scanner one at a time, so that scanning two texts in a
row is scanning the first and going on with the second. Words and numbers end at the first
character that cannot continue them. Blanks between tokens are dropped.
-/

namespace HostAbi

/-- The marks of a document, and the values that are written without marks. -/
inductive Token where
  | openArr
  | closeArr
  | openObj
  | closeObj
  | colon
  | comma
  | scalar (v : Json)

namespace Token

/-- The mark that a character is. -/
def ofPunctuation? : Char → Option Token
  | '[' => some .openArr
  | ']' => some .closeArr
  | '\x7b' => some .openObj
  | '\x7d' => some .closeObj
  | ':' => some .colon
  | ',' => some .comma
  | _ => none

/-- The value that a word stands for. There are three such words. -/
def ofWord? (cs : List Char) : Option Token :=
  if cs = ['n', 'u', 'l', 'l'] then some (.scalar .null)
  else if cs = ['t', 'r', 'u', 'e'] then some (.scalar (.bool true))
  else if cs = ['f', 'a', 'l', 's', 'e'] then some (.scalar (.bool false))
  else none

/-- The number that characters write, if they form a literal. -/
def ofNumber? (cs : List Char) : Option Token :=
  if Number.isLiteral cs then some (.scalar (.num cs)) else none

end Token

/-- What the scanner is in the middle of. What it has seen of it stands latest first. -/
inductive ScanMode where
  | between
  | word (seen : List Char)
  | number (seen : List Char)
  | string (seen : Points)
  | escape (seen : Points)
  | unicode (seen : Points) (digitsLeft value : Nat)

/-- A scanner with the tokens that it has found, latest first. -/
structure Scanner where
  mode : ScanMode := .between
  found : List Token := []

namespace Scanner

/-- The characters that may stand between tokens. -/
def isBlank (c : Char) : Bool := c == ' ' || c == '\t' || c == '\n' || c == '\r'

/-- The characters of words. -/
def isWordChar (c : Char) : Bool := 'a' ≤ c && c ≤ 'z'

/-- The characters that can stand in a number, wherever in it. -/
def isNumberChar (c : Char) : Bool :=
  c.isDigit || c == '-' || c == '+' || c == '.' || c == 'e' || c == 'E'

/-- The code point that a character after a backslash stands for. -/
def escapedPoint? : Char → Option Nat
  | '"' => some 0x22
  | '\\' => some 0x5C
  | '/' => some 0x2F
  | 'b' => some 0x08
  | 'f' => some 0x0C
  | 'n' => some 0x0A
  | 'r' => some 0x0D
  | 't' => some 0x09
  | _ => none

/-- The value of a hexadecimal digit, in either case. -/
def hexValue? (c : Char) : Option Nat :=
  if c.isDigit then some (c.toNat - '0'.toNat)
  else if 'a' ≤ c && c ≤ 'f' then some (c.toNat - 'a'.toNat + 10)
  else if 'A' ≤ c && c ≤ 'F' then some (c.toNat - 'A'.toNat + 10)
  else none

/-- Starts on a character with no token begun. -/
def start? (found : List Token) (c : Char) : Option Scanner :=
  if isBlank c then some ⟨.between, found⟩
  else if c = '"' then some ⟨.string [], found⟩
  else if c = '-' || c.isDigit then some ⟨.number [c], found⟩
  else if isWordChar c then some ⟨.word [c], found⟩
  else (Token.ofPunctuation? c).map fun t => ⟨.between, t :: found⟩

/-- Takes a character, unless a text cannot go on with it. One that ends a word or a number is also
the start of what comes next. -/
def step? (s : Scanner) (c : Char) : Option Scanner :=
  match s.mode with
  | .between => start? s.found c
  | .word seen =>
    if isWordChar c then some { s with mode := .word (c :: seen) }
    else do start? ((← Token.ofWord? seen.reverse) :: s.found) c
  | .number seen =>
    if isNumberChar c then some { s with mode := .number (c :: seen) }
    else do start? ((← Token.ofNumber? seen.reverse) :: s.found) c
  | .string seen =>
    if c = '"' then some ⟨.between, .scalar (.str seen.reverse) :: s.found⟩
    else if c = '\\' then some { s with mode := .escape seen }
    else if c.toNat < 0x20 then none
    else some { s with mode := .string (c.toNat :: seen) }
  | .escape seen =>
    if c = 'u' then some { s with mode := .unicode seen 4 0 }
    else (escapedPoint? c).map fun p => { s with mode := .string (p :: seen) }
  | .unicode seen digitsLeft value => do
    let next := 16 * value + (← hexValue? c)
    if digitsLeft ≤ 1 then return { s with mode := .string (next :: seen) }
    else return { s with mode := .unicode seen (digitsLeft - 1) next }

/-- The tokens found, once the text has ended. -/
def finish? (s : Scanner) : Option (List Token) :=
  match s.mode with
  | .between => some s.found.reverse
  | .word seen => do return ((← Token.ofWord? seen.reverse) :: s.found).reverse
  | .number seen => do return ((← Token.ofNumber? seen.reverse) :: s.found).reverse
  | _ => none

end Scanner

/-- The tokens of a whole text. -/
def tokens? (cs : List Char) : Option (List Token) := do
  (← cs.foldlM Scanner.step? {}).finish?

end HostAbi

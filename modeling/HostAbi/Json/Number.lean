/-!
# Number literals

A number literal is an optional sign, digits without a leading zero, and then optional digits
after a point and an optional exponent. It stands for an integer if it has neither of the last
two, except that a signed zero does not.
-/

namespace HostAbi.Number

/-- What follows a run of one or more digits. -/
def afterDigits? (cs : List Char) : Option (List Char) :=
  match cs.span Char.isDigit with
  | ([], _) => none
  | (_, rest) => some rest

/-- What follows the digits in front of the point. -/
def afterWhole? : List Char → Option (List Char)
  | '0' :: rest => some rest
  | cs => afterDigits? cs

/-- What follows the point and the digits behind it, if there is a point. -/
def afterFraction? : List Char → Option (List Char)
  | '.' :: rest => afterDigits? rest
  | cs => some cs

/-- What follows the sign of an exponent, if there is one. -/
def afterSign : List Char → List Char
  | '+' :: rest => rest
  | '-' :: rest => rest
  | cs => cs

/-- What follows the exponent, if there is one. -/
def afterExponent? : List Char → Option (List Char)
  | 'e' :: rest => afterDigits? (afterSign rest)
  | 'E' :: rest => afterDigits? (afterSign rest)
  | cs => some cs

/-- What follows the sign of a number, if there is one. -/
def afterMinus : List Char → List Char
  | '-' :: rest => rest
  | cs => cs

/-- Whether characters form a number literal. -/
def isLiteral (cs : List Char) : Bool :=
  ((afterWhole? (afterMinus cs)).bind afterFraction?).bind afterExponent? == some []

/-- Whether characters are the decimal form of a natural number. -/
def isNatural : List Char → Bool
  | [] => false
  | ['0'] => true
  | cs => cs.all Char.isDigit && cs.head? != some '0'

/-- The integer that a literal stands for. -/
def toInt? : List Char → Option Int
  | '-' :: cs =>
    if isNatural cs && cs != ['0'] then some (-(Nat.ofDigitChars 10 cs 0 : Int)) else none
  | cs => if isNatural cs then some (Nat.ofDigitChars 10 cs 0) else none

end HostAbi.Number

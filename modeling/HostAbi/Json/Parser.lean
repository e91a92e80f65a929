import HostAbi.Json.Token

/-!
# From tokens to a value

The tokens of a document go through a parser one at a time. The parser holds the arrays and
objects that are still open, each with what it holds so far, and knows what may come next. Nothing
limits how deep a document goes.
-/

namespace HostAbi

/-- An open array or object, with what stands in it before the value being read, latest first. -/
inductive Frame where
  | arr (done : List Json)
  | obj (done : List (Points × Json)) (key : Points)

/-- What may come next. -/
inductive Expected where
  | value
  | firstItem
  | firstKey
  | key (done : List (Points × Json))
  | colon (done : List (Points × Json)) (key : Points)
  | after (v : Json)

/-- What may come next, and the arrays and objects that are open, the innermost first. -/
structure Parser where
  expected : Expected := .value
  stack : List Frame := []

namespace Parser

/-- Begins a value with a token. -/
def begin? (stack : List Frame) : Token → Option Parser
  | .scalar v => some ⟨.after v, stack⟩
  | .openArr => some ⟨.firstItem, stack⟩
  | .openObj => some ⟨.firstKey, stack⟩
  | _ => none

/-- Takes a token, unless a document cannot go on with it. -/
def step? : Parser → Token → Option Parser
  | ⟨.value, stack⟩, t => begin? stack t
  | ⟨.firstItem, stack⟩, .closeArr => some ⟨.after (.arr []), stack⟩
  | ⟨.firstItem, stack⟩, t => begin? (.arr [] :: stack) t
  | ⟨.firstKey, stack⟩, .closeObj => some ⟨.after (.obj []), stack⟩
  | ⟨.firstKey, stack⟩, .scalar (.str k) => some ⟨.colon [] k, stack⟩
  | ⟨.key done, stack⟩, .scalar (.str k) => some ⟨.colon done k, stack⟩
  | ⟨.colon done k, stack⟩, .colon => some ⟨.value, .obj done k :: stack⟩
  | ⟨.after v, .arr done :: stack⟩, .comma => some ⟨.value, .arr (v :: done) :: stack⟩
  | ⟨.after v, .arr done :: stack⟩, .closeArr => some ⟨.after (.arr (v :: done).reverse), stack⟩
  | ⟨.after v, .obj done k :: stack⟩, .comma => some ⟨.key ((k, v) :: done), stack⟩
  | ⟨.after v, .obj done k :: stack⟩, .closeObj =>
    some ⟨.after (.obj ((k, v) :: done).reverse), stack⟩
  | _, _ => none

/-- The value read, if it is complete. -/
def finish? : Parser → Option Json
  | ⟨.after v, []⟩ => some v
  | _ => none

end Parser

/-- The value that a text spells, with nothing but blanks around it. -/
def Json.parse? (text : String) : Option Json := do
  (← (← tokens? text.toList).foldlM Parser.step? {}).finish?

end HostAbi

import HostAbi.Fact.Query

/-!
# Platforms

A platform answers queries, and may change as it is asked: its answer to a query can differ from
its answer to the same query before. It keeps the queries it has seen, in order.
-/

namespace HostAbi

/-- How a platform answers from a state, which state that leaves it in, and the queries so far. -/
structure Platform (σ : Type) where
  state : σ
  answer : σ → Query → Int64 × σ
  asked : List Query := []

namespace Platform

variable {σ : Type}

/-- Asks a platform, and gives the answer and the platform as it is then. -/
def ask (P : Platform σ) (q : Query) : Int64 × Platform σ :=
  let r := P.answer P.state q
  (r.1, { P with state := r.2, asked := P.asked ++ [q] })

/-- The answers to a list of queries asked in order, and the platform after the last of them. -/
def askAll (P : Platform σ) : List Query → List Int64 × Platform σ
  | [] => ([], P)
  | q :: qs =>
    let r := P.ask q
    let s := r.2.askAll qs
    (r.1 :: s.1, s.2)

/-- A platform whose answers are a function of the query alone. -/
def fixed (f : Query → Int64) : Platform Unit where
  state := ()
  answer _ q := (f q, ())

/-- The answers that are left of a query's once it has been asked. The last of them stays. -/
def scriptAfter : List Int64 → List Int64
  | _ :: a :: as => a :: as
  | as => as

/-- A platform that goes through lists of answers, one list to a query. The last answer of a list
repeats, and a query without a list has a fixed answer. -/
def scripted (fixed : Query → Int64) (script : Query → List Int64) :
    Platform (Query → List Int64) where
  state := script
  answer s q := ((s q).headD (fixed q), fun r => if r = q then scriptAfter (s r) else s r)

end Platform

end HostAbi

import TopicQueue.Limit

namespace TopicQueue.Decimal

def natural (ds : List Char) : Nat := ds.foldl (fun n d => n * 10 + (d.toNat - 48)) 0

/-- At least one digit and nothing else. -/
def isNumeral (ds : List Char) : Bool := !ds.isEmpty && ds.all Char.isDigit

/-- A minus sign at the front, taken off; a plus sign is taken off too. -/
def sign : List Char → Bool × List Char
  | '-' :: cs => (true, cs)
  | '+' :: cs => (false, cs)
  | cs => (false, cs)

/-- Digits below a limit, with a plus sign in front or none. -/
def natural? (limit : Nat) (s : String) : Option Nat :=
  let ds := match s.toList with
    | '+' :: ds => ds
    | ds => ds
  if isNumeral ds && natural ds < limit then some (natural ds) else none

def signedWord? (s : String) : Option Int :=
  let (negative, ds) := sign s.toList
  let n := natural ds
  if !isNumeral ds then none
  else if negative then (if n ≤ Limit.bits63 then some (-(n : Int)) else none)
  else if n < Limit.bits63 then some n
  else none

end TopicQueue.Decimal

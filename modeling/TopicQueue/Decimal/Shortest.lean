import TopicQueue.Decimal.Double

namespace TopicQueue.Double

/-- A finite number other than zero and the interval that rounds to it, all as multiples of
`2 ^ (exponent - 2)`. The ends belong to it iff the mantissa is even. -/
structure Neighbourhood where
  low : Nat
  value : Nat
  high : Nat
  closed : Bool

/-- Below a power of two the numbers lie twice as dense. -/
def neighbourhood (m : Nat) (e : Int) : Neighbourhood where
  low := if m = twoTo 52 ∧ -1074 < e then 4 * m - 1 else 4 * m - 2
  value := 4 * m
  high := 4 * m + 2
  closed := m % 2 = 0

/-- `n / d` lies in the interval, for a neighbourhood in units of `1 / unit`. -/
def Neighbourhood.holds (h : Neighbourhood) (n : Nat) (unit : Nat) : Bool :=
  let l := h.low * unit
  let r := h.high * unit
  if h.closed then l ≤ n && n ≤ r else l < n && n < r

def tenTo (k : Int) : Nat × Nat := if k < 0 then (1, Nat.pow 10 k.natAbs) else (Nat.pow 10 k.natAbs, 1)

/-- The grid point of `10 ^ k` that reads back as the number and is nearest to it, if one does. -/
def gridPoint? (h : Neighbourhood) (e : Int) (k : Int) : Option Nat :=
  let (p, q) := ratio 1 (e - 2)
  let (a, b) := tenTo k
  -- a grid point g is g * a / b; the value is value * p / q
  let grid := a * q
  let unit := p * b
  let below := h.value * unit / grid
  let under := h.value * unit - below * grid
  let beyond := (below + 1) * grid - h.value * unit
  let lowFits := h.holds (below * grid) unit && below != 0
  let highFits := h.holds ((below + 1) * grid) unit
  if lowFits && highFits then some (if under < beyond then below else below + 1)
  else if lowFits then some below
  else if highFits then some (below + 1)
  else none

/-- The least `k` with `num / den < 10 ^ k`, found from below. -/
def decimalSize (num den : Nat) : Int :=
  let guess : Int := ((num.log2 : Int) - (den.log2 : Int)) * 30103 / 100000 - 1
  let fits (k : Int) : Bool := let (a, b) := tenTo k; num * b < a * den
  if fits guess then guess
  else if fits (guess + 1) then guess + 1
  else if fits (guess + 2) then guess + 2
  else guess + 3

/-- Digits and the power of ten of the last one. -/
def shortest (m : Nat) (e : Int) : Nat × Int :=
  let h := neighbourhood m e
  let (a, b) := ratio m e
  let size := decimalSize a b
  let found := (List.range 17).findSome? fun n =>
    let k := size - (n + 1 : Nat)
    (gridPoint? h e k).map (·, k)
  found.getD (0, 0)

/-- `digits * 10 ^ exponent` without an exponent, and without zeros at the end of a fraction. -/
def positional (digits : Nat) (exponent : Int) : String :=
  if 0 ≤ exponent then toString (digits * Nat.pow 10 exponent.toNat)
  else
    let places := exponent.natAbs
    let whole := digits / Nat.pow 10 places
    let ds := (toString (digits % Nat.pow 10 places)).toList
    let ds := List.replicate (places - ds.length) '0' ++ ds
    let ds := (ds.reverse.dropWhile (· == '0')).reverse
    if ds.isEmpty then toString whole else toString whole ++ "." ++ String.ofList ds

def text : Double → String
  | .nan => "NaN"
  | .infinite negative => if negative then "-inf" else "inf"
  | .finite negative m e =>
    let magnitude := if m = 0 then "0" else let (d, k) := shortest m e; positional d k
    if negative then "-" ++ magnitude else magnitude

end TopicQueue.Double

import TopicQueue.Limit

namespace TopicQueue

/-- The finite ones are `mantissa * 2 ^ exponent`, with `mantissa < 2 ^ 53` and `-1074 ≤ exponent`. -/
inductive Double where
  | nan
  | infinite (negative : Bool)
  | finite (negative : Bool) (mantissa : Nat) (exponent : Int)
  deriving DecidableEq, Repr

namespace Double

def zero (negative : Bool) : Double := .finite negative 0 (-1074)

def twoTo (n : Nat) : Nat := Nat.pow 2 n

/-- `num / den` scaled by `2 ^ -e`, as a quotient of natural numbers. -/
def scale (num den : Nat) (e : Int) : Nat × Nat :=
  if e < 0 then (num * twoTo e.natAbs, den) else (num, den * twoTo e.natAbs)

/-- The integer nearest to `num / den`; a half goes to the even neighbour. -/
def nearestEven (num den : Nat) : Nat :=
  let q := num / den
  let r := num % den
  if 2 * r < den then q
  else if den < 2 * r then q + 1
  else if q % 2 = 0 then q else q + 1

/-- The exponent that gives `num / den` a mantissa of 53 bits, or the least one. -/
def exponentFor (num den : Nat) : Int :=
  let e : Int := (num.log2 : Int) - (den.log2 : Int) - 53
  let (n, d) := scale num den e
  let e := if n / d < twoTo 53 then e else e + 1
  max e (-1074)

/-- The number nearest to `± num / den`. -/
def round (negative : Bool) (num den : Nat) : Double :=
  if num = 0 then zero negative
  else
    let e := exponentFor num den
    let (n, d) := scale num den e
    let m := nearestEven n d
    let (m, e) := if m = twoTo 53 then (twoTo 52, e + 1) else (m, e)
    if 971 < e then .infinite negative else .finite negative m e

def ofNat (n : Nat) : Double := round false n 1

/-- `± digits * 10 ^ exponent`, rounded once. The two cuts only spare the work on powers of ten
that no double comes near. -/
def ofDecimal (negative : Bool) (digits : Nat) (exponent : Int) : Double :=
  if digits = 0 then zero negative
  else
    let size : Int := (Nat.log2 digits : Int) / 4
    if 400 < size + exponent then .infinite negative
    else if (Nat.log2 digits : Int) + exponent < -800 then zero negative
    else if exponent < 0 then round negative digits (Nat.pow 10 exponent.natAbs)
    else round negative (digits * Nat.pow 10 exponent.natAbs) 1

def isInfinite : Double → Bool
  | .infinite _ => true
  | _ => false

def isZero : Double → Bool
  | .finite _ m _ => m = 0
  | _ => false

def ratio (m : Nat) (e : Int) : Nat × Nat :=
  if e < 0 then (m, twoTo e.natAbs) else (m * twoTo e.natAbs, 1)

def mul : Double → Double → Double
  | .finite s m e, .finite t n f =>
    let (a, b) := ratio m e
    let (c, d) := ratio n f
    round (s != t) (a * c) (b * d)
  | .infinite s, .finite t _ _ | .finite s _ _, .infinite t | .infinite s, .infinite t =>
    .infinite (s != t)
  | _, _ => .nan

def div : Double → Double → Double
  | .finite s m e, .finite t n f =>
    let (a, b) := ratio m e
    let (c, d) := ratio n f
    round (s != t) (a * d) (b * c)
  | .infinite s, .finite t _ _ => .infinite (s != t)
  | .finite s _ _, .infinite t => zero (s != t)
  | _, _ => .nan

def neg : Double → Double
  | .nan => .nan
  | .infinite s => .infinite !s
  | .finite s m e => .finite (!s) m e

/-- The integer nearest to the magnitude; a half goes away from zero. -/
def nearestAway (m : Nat) (e : Int) : Nat :=
  let (a, b) := ratio m e
  (2 * a + b) / (2 * b)

/-- Rounded to an integer and clamped to `0 .. 2 ^ 64 - 1`; what is no number counts as zero. -/
def toWord : Double → Nat
  | .nan => 0
  | .infinite negative => if negative then 0 else Limit.bits64 - 1
  | .finite negative m e => if negative then 0 else min (nearestAway m e) (Limit.bits64 - 1)

end Double

end TopicQueue

import TopicQueue.Decimal.Double
import TopicQueue.Json.Literal

namespace TopicQueue.Json

structure Numeral where
  negative : Bool
  whole : Bytes
  fraction : Option Bytes
  exponent : Option (Bool × Bytes)
  deriving Repr

def minus : UInt8 := 0x2D
def plus : UInt8 := 0x2B
def point : UInt8 := 0x2E
def isExponentMark (b : UInt8) : Bool := b == 0x65 || b == 0x45

namespace Numeral

def digits (bs : Bytes) : Except Flaw (Bytes × Bytes) :=
  match bs.span isDigit with
  | ([], []) => .error .unfinished
  | ([], _) => .error .malformed
  | (ds, rest) => .ok (ds, rest)

/-- Digits before the point: no zero before another digit. -/
def wholePart (bs : Bytes) : Except Flaw (Bytes × Bytes) :=
  match bs with
  | 0x30 :: b :: rest => if isDigit b then .error .malformed else .ok ([0x30], b :: rest)
  | _ => digits bs

def fractionPart : Bytes → Except Flaw (Option Bytes × Bytes)
  | b :: rest =>
    if b = point then (digits rest).map fun (ds, rest) => (some ds, rest) else .ok (none, b :: rest)
  | [] => .ok (none, [])

def exponentPart : Bytes → Except Flaw (Option (Bool × Bytes) × Bytes)
  | b :: rest =>
    if isExponentMark b then
      match rest with
      | s :: rest' =>
        if s = minus then (digits rest').map fun (ds, r) => (some (true, ds), r)
        else if s = plus then (digits rest').map fun (ds, r) => (some (false, ds), r)
        else (digits rest).map fun (ds, r) => (some (false, ds), r)
      | [] => .error .unfinished
    else .ok (none, b :: rest)
  | [] => .ok (none, [])

/-- Reads the longest number that the input starts with. -/
def read (bs : Bytes) : Except Flaw (Numeral × Bytes) := do
  let (negative, bs) := match bs with
    | b :: rest => if b = minus then (true, rest) else (false, bs)
    | [] => (false, bs)
  let (whole, bs) ← wholePart bs
  let (fraction, bs) ← fractionPart bs
  let (exponent, bs) ← exponentPart bs
  return (⟨negative, whole, fraction, exponent⟩, bs)

def digitValue (b : UInt8) : Nat := b.toNat - 0x30

def natural (ds : Bytes) : Nat := ds.foldl (fun n d => n * 10 + digitValue d) 0

/-- The significant digits: the longest run of leading digits that fits a word, and the power of
ten that the others are worth. -/
structure Mantissa where
  digits : Nat
  exponent : Int
  full : Bool

def Mantissa.pushWhole (m : Mantissa) (d : UInt8) : Mantissa :=
  let n := m.digits * 10 + digitValue d
  if m.full || Limit.bits64 ≤ n then { m with exponent := m.exponent + 1, full := true }
  else { m with digits := n }

def Mantissa.pushFraction (m : Mantissa) (d : UInt8) : Mantissa :=
  let n := m.digits * 10 + digitValue d
  if m.full || Limit.bits64 ≤ n then { m with full := true }
  else { m with digits := n, exponent := m.exponent - 1 }

def mantissa (n : Numeral) : Mantissa :=
  let m := n.whole.foldl Mantissa.pushWhole ⟨0, 0, false⟩
  match n.fraction with
  | none => m
  | some ds => ds.foldl Mantissa.pushFraction { m with full := false }

/-- `f * 10 ^ e`. A far negative power is divided off in steps of `10 ^ 308`, which the three turns
bring to zero. -/
def scaled? : Nat → Double → Int → Option Double
  | turns, f, e =>
    if e.natAbs ≤ 308 then
      let p := Double.ofDecimal false 1 e.natAbs
      if 0 ≤ e then
        let r := f.mul p
        if r.isInfinite then none else some r
      else some (f.div p)
    else if f.isZero then some f
    else if 0 ≤ e then none
    else match turns with
      | 0 => some (Double.zero false)
      | turns + 1 => scaled? turns (f.div (Double.ofDecimal false 1 308)) (e + 308)

end Numeral

inductive Number where
  /-- Below `2 ^ 64`. -/
  | natural (n : Nat)
  /-- `-n`, for `0 < n ≤ 2 ^ 63`. -/
  | negative (n : Nat)
  | double (d : Double)
  deriving DecidableEq, Repr

def Numeral.value? (n : Numeral) : Option Number :=
  let m := n.mantissa
  let float (e : Int) : Option Number :=
    (Numeral.scaled? 3 (Double.ofNat m.digits) (m.exponent + e)).map fun f =>
      .double (if n.negative then f.neg else f)
  match n.fraction, n.exponent with
  | none, none =>
    if m.full then float 0
    else if !n.negative then some (.natural m.digits)
    else if 0 < m.digits ∧ m.digits ≤ Limit.bits63 then some (.negative m.digits)
    else some (.double (Double.ofNat m.digits).neg)
  | _, none => float 0
  | _, some (negative, ds) =>
    let e : Int := Numeral.natural ds
    float (if negative then -e else e)

def readNumber (bs : Bytes) : Except Flaw (Number × Bytes) := do
  let (n, rest) ← Numeral.read bs
  match n.value? with
  | some v => return (v, rest)
  | none => throw .malformed

/-- Passes over a number. Where nobody wants its value, one cut by the end of the input is
malformed. -/
def skipNumber (bs : Bytes) : Except Flaw Bytes :=
  match Numeral.read bs with
  | .ok (_, rest) => .ok rest
  | .error _ => .error .malformed

end TopicQueue.Json

import TopicQueue.Bytes
import TopicQueue.Json.Flaw

namespace TopicQueue.Json

def quote : UInt8 := 0x22
def backslash : UInt8 := 0x5C
def letterU : UInt8 := 0x75

/-- Blanks between JSON values: space, tab, line feed, carriage return. -/
def isBlank (b : UInt8) : Bool := b == 0x20 || b == 0x09 || b == 0x0A || b == 0x0D

def skipBlank (bs : Bytes) : Bytes := bs.dropWhile isBlank

def isDigit (b : UInt8) : Bool := 0x30 ≤ b && b ≤ 0x39

def hexDigit? (b : UInt8) : Option Nat :=
  if 0x30 ≤ b ∧ b ≤ 0x39 then some (b.toNat - 0x30)
  else if 0x41 ≤ b ∧ b ≤ 0x46 then some (b.toNat - 0x37)
  else if 0x61 ≤ b ∧ b ≤ 0x66 then some (b.toNat - 0x57)
  else none

def codeUnit? : Bytes → Option Nat
  | [a, b, c, d] => do
    let a ← hexDigit? a
    let b ← hexDigit? b
    let c ← hexDigit? c
    let d ← hexDigit? d
    return ((a * 16 + b) * 16 + c) * 16 + d
  | _ => none

def isHighSurrogate (n : Nat) : Bool := 0xD800 ≤ n && n ≤ 0xDBFF
def isLowSurrogate (n : Nat) : Bool := 0xDC00 ≤ n && n ≤ 0xDFFF

def pointBytes (n : Nat) : Bytes := String.utf8EncodeChar (Char.ofNat n)

def shortEscape? (b : UInt8) : Option UInt8 :=
  if b = quote then some quote
  else if b = backslash then some backslash
  else if b = 0x2F then some 0x2F
  else if b = 0x62 then some 0x08
  else if b = 0x66 then some 0x0C
  else if b = 0x6E then some 0x0A
  else if b = 0x72 then some 0x0D
  else if b = 0x74 then some 0x09
  else none

namespace Literal

/-- Where the reader stands inside a literal. `high` is a leading surrogate that waits for its
trailing one. -/
inductive State where
  | plain
  | escape
  | digits (high : Option Nat) (seen : Bytes)
  | pairBackslash (high : Nat)
  | pairLetter (high : Nat)
  deriving DecidableEq, Repr

inductive Move where
  | go (state : State) (written : Bytes)
  | close
  | reject
  deriving DecidableEq, Repr

/-- Four digits are complete. A strict reader demands paired surrogates; a skipping one takes any
code unit. -/
def unit (strict : Bool) (high : Option Nat) (n : Nat) : Move :=
  if !strict then .go .plain []
  else match high with
    | some h =>
      if isLowSurrogate n then .go .plain (pointBytes (0x10000 + (h - 0xD800) * 0x400 + (n - 0xDC00)))
      else .reject
    | none =>
      if isLowSurrogate n then .reject
      else if isHighSurrogate n then .go (.pairBackslash n) []
      else .go .plain (pointBytes n)

def move (strict : Bool) : State → UInt8 → Move
  | .plain, b =>
    if b = quote then .close
    else if b = backslash then .go .escape []
    else if b < 0x20 then .reject
    else .go .plain [b]
  | .escape, b =>
    match shortEscape? b with
    | some c => .go .plain [c]
    | none => if b = letterU then .go (.digits none []) [] else .reject
  | .digits high seen, b =>
    if seen.length < 3 then .go (.digits high (seen ++ [b])) []
    else match codeUnit? (seen ++ [b]) with
      | some n => unit strict high n
      | none => .reject
  | .pairBackslash high, b => if b = backslash then .go (.pairLetter high) [] else .reject
  | .pairLetter high, b => if b = letterU then .go (.digits (some high) []) [] else .reject

/-- Reads on from a state: the octets denoted and what follows the closing quote. `done` holds the
octets denoted so far, the last one first. -/
def read (strict : Bool) : State → Bytes → Bytes → Except Flaw (Bytes × Bytes)
  | _, _, [] => .error .unfinished
  | state, done, b :: rest =>
    match move strict state b with
    | .go state written => read strict state (written.reverse ++ done) rest
    | .close => .ok (done.reverse, rest)
    | .reject => .error .malformed

end Literal

/-- Reads the rest of a literal whose opening quote is gone: its text and what follows. That the
octets are UTF-8 is looked at last. -/
def readText (bs : Bytes) : Except Flaw (String × Bytes) :=
  match Literal.read true .plain [] bs with
  | .error e => .error e
  | .ok (octets, rest) =>
    match octets.text? with
    | some s => .ok (s, rest)
    | none => .error .malformed

def skipText (bs : Bytes) : Except Flaw Bytes :=
  (Literal.read false .plain [] bs).map (·.2)

end TopicQueue.Json

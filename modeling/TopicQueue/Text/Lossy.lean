import TopicQueue.Bytes

namespace TopicQueue.Text

def replacement : Char := '\uFFFD'

/-- After a leading octet: how many octets follow, the range of the first of them, and the leading
octet's part of the code point. -/
def shape? (b : UInt8) : Option (Nat × UInt8 × UInt8 × Nat) :=
  if b < 0x80 then some (0, 0, 0, b.toNat)
  else if 0xC2 ≤ b && b ≤ 0xDF then some (1, 0x80, 0xBF, b.toNat - 0xC0)
  else if b == 0xE0 then some (2, 0xA0, 0xBF, 0)
  else if b == 0xED then some (2, 0x80, 0x9F, 0xD)
  else if 0xE1 ≤ b && b ≤ 0xEF then some (2, 0x80, 0xBF, b.toNat - 0xE0)
  else if b == 0xF0 then some (3, 0x90, 0xBF, 0)
  else if 0xF1 ≤ b && b ≤ 0xF3 then some (3, 0x80, 0xBF, b.toNat - 0xF0)
  else if b == 0xF4 then some (3, 0x80, 0x8F, 4)
  else none

/-- Where the decoder stands inside a character: octets still to come, the range of the next one,
and the code point so far. -/
structure Partial where
  left : Nat
  low : UInt8
  high : UInt8
  point : Nat

def begin (b : UInt8) : List Char × Option Partial :=
  match shape? b with
  | none => ([replacement], none)
  | some (0, _, _, point) => ([Char.ofNat point], none)
  | some (n, low, high, point) => ([], some ⟨n, low, high, point⟩)

def push (p : Option Partial) (b : UInt8) : List Char × Option Partial :=
  match p with
  | none => begin b
  | some p =>
    if p.low ≤ b && b ≤ p.high then
      let point := p.point * 64 + (b.toNat - 0x80)
      if p.left = 1 then ([Char.ofNat point], none) else ([], some ⟨p.left - 1, 0x80, 0xBF, point⟩)
    else
      let (cs, p) := begin b
      (replacement :: cs, p)

def lossyFrom : Option Partial → List Char → Bytes → List Char
  | none, done, [] => done.reverse
  | some _, done, [] => (replacement :: done).reverse
  | p, done, b :: bs =>
    let (cs, p) := push p b
    lossyFrom p (cs.reverse ++ done) bs

def lossy (bs : Bytes) : List Char := lossyFrom none [] bs

/-- The mark that some put before UTF-8 text is passed over. -/
def ofFile : Bytes → List Char
  | 0xEF :: 0xBB :: 0xBF :: bs => lossy bs
  | bs => lossy bs

end TopicQueue.Text

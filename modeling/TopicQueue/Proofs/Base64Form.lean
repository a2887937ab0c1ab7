import TopicQueue.Base64

namespace TopicQueue.Base64

/-- The six bits that a letter of the alphabet stands for. -/
def sextet? (c : Char) : Option Nat := alphabet.idxOf? c

/-- Four letters are three octets. -/
def readGroup (a b c d : Char) : Option Bytes := do
  let a ← sextet? a
  let b ← sextet? b
  let c ← sextet? c
  let d ← sextet? d
  let n := ((a * 64 + b) * 64 + c) * 64 + d
  return [(n / 65536).toUInt8, (n / 256 % 256).toUInt8, (n % 256).toUInt8]

/-- A group whose fourth place is filled up: one octet or two. -/
def readRest (a b c : Char) : Option Bytes := do
  let a ← sextet? a
  let b ← sextet? b
  if c = '=' then
    if b % 16 = 0 then return [((a * 64 + b) / 16).toUInt8] else none
  else
    let c ← sextet? c
    let n := (a * 64 + b) * 64 + c
    if c % 4 = 0 then return [(n / 1024).toUInt8, (n / 4 % 256).toUInt8] else none

def decode? : List Char → Option Bytes
  | [] => some []
  | a :: b :: c :: d :: rest =>
    if d = '=' then if rest.isEmpty then readRest a b c else none
    else do
      let octets ← readGroup a b c d
      let others ← decode? rest
      return octets ++ others
  | _ => none

/-- The letters for octets, in the order in which they are read. -/
def letters : Bytes → List Char
  | a :: b :: c :: rest =>
    let n := (a.toNat * 256 + b.toNat) * 256 + c.toNat
    letter (n / 262144) :: letter (n / 4096 % 64) :: letter (n / 64 % 64) :: letter (n % 64) ::
      letters rest
  | [a, b] =>
    let n := (a.toNat * 256 + b.toNat) * 4
    [letter (n / 4096), letter (n / 64 % 64), letter (n % 64), '=']
  | [a] =>
    let n := a.toNat * 16
    [letter (n / 64), letter (n % 64), '=', '=']
  | [] => []

variable {bs : Bytes}

theorem encodeOnto_eq (done : List Char) (bs : Bytes) :
    encodeOnto done bs = (letters bs).reverse ++ done := by
  induction bs using letters.induct generalizing done with
  | case1 a b c rest ih =>
    rw [encodeOnto, letters, ih]
    simp
  | case2 a b => simp [encodeOnto, letters]
  | case3 a => simp [encodeOnto, letters]
  | case4 => rfl

theorem toList_encode (bs : Bytes) : (encode bs).toList = letters bs := by
  rw [encode, encodeOnto_eq, String.toList_ofList]
  simp

/-- The letters are those of the alphabet, each in its place. -/
theorem sextet?_letter : ∀ n < 64, sextet? (letter n) = some n := by decide

theorem letter_ne_fill : ∀ n < 64, letter n ≠ '=' := by decide

theorem readGroup_letters {a b c d : Nat} (ha : a < 64) (hb : b < 64) (hc : c < 64)
    (hd : d < 64) {n : Nat} (hn : n = ((a * 64 + b) * 64 + c) * 64 + d) :
    readGroup (letter a) (letter b) (letter c) (letter d) =
      some [(n / 65536).toUInt8, (n / 256 % 256).toUInt8, (n % 256).toUInt8] := by
  simp [readGroup, sextet?_letter, ha, hb, hc, hd, hn]

theorem decode?_group (a b c : UInt8) (rest : List Char) :
    let n := (a.toNat * 256 + b.toNat) * 256 + c.toNat
    decode? (letter (n / 262144) :: letter (n / 4096 % 64) :: letter (n / 64 % 64) ::
      letter (n % 64) :: rest) = (decode? rest).map ([a, b, c] ++ ·) := by
  intro n
  have ha := a.toNat_lt
  have hb := b.toNat_lt
  have hc := c.toNat_lt
  have hgroup : readGroup (letter (n / 262144)) (letter (n / 4096 % 64)) (letter (n / 64 % 64))
      (letter (n % 64)) = some [a, b, c] := by
    have hfirst : n / 65536 = a.toNat := by omega
    have hsecond : n / 256 % 256 = b.toNat := by omega
    have hthird : n % 256 = c.toNat := by omega
    rw [readGroup_letters (by omega) (by omega) (by omega) (by omega) (by omega : n = _), hfirst,
      hsecond, hthird]
    simp
  have hlast : letter (n % 64) ≠ '=' := letter_ne_fill _ (by omega)
  rw [decode?, if_neg hlast, hgroup]
  cases decode? rest <;> rfl

theorem decode?_two (a b : UInt8) : decode? (letters [a, b]) = some [a, b] := by
  have ha := a.toNat_lt
  have hb := b.toNat_lt
  simp only [letters]
  generalize hn : (a.toNat * 256 + b.toNat) * 4 = n
  have hfill : letter (n % 64) ≠ '=' := letter_ne_fill _ (by omega)
  have hwhole : (n / 4096 * 64 + n / 64 % 64) * 64 + n % 64 = n := by omega
  have hzero : n % 64 % 4 = 0 := by omega
  have hfirst : n / 1024 = a.toNat := by omega
  have hsecond : n / 4 % 256 = b.toNat := by omega
  simp [decode?, readRest, sextet?_letter _ (show n / 4096 < 64 by omega),
    sextet?_letter _ (show n / 64 % 64 < 64 by omega),
    sextet?_letter _ (show n % 64 < 64 by omega), hfill, hwhole, hzero, hfirst, hsecond]

theorem decode?_one (a : UInt8) : decode? (letters [a]) = some [a] := by
  have ha := a.toNat_lt
  simp only [letters]
  generalize hn : a.toNat * 16 = n
  have hwhole : (n / 64 * 64 + n % 64) / 16 = a.toNat := by omega
  have hzero : n % 64 % 16 = 0 := by omega
  simp [decode?, readRest, sextet?_letter _ (show n / 64 < 64 by omega),
    sextet?_letter _ (show n % 64 < 64 by omega), hwhole, hzero]

/-- Octets are read back from their letters, however many are missing in the last group. -/
theorem decode?_encode (bs : Bytes) : decode? (encode bs).toList = some bs := by
  rw [toList_encode]
  induction bs using letters.induct with
  | case1 a b c rest ih =>
    rw [letters, decode?_group, ih]
    rfl
  | case2 a b => exact decode?_two a b
  | case3 a => exact decode?_one a
  | case4 => rfl

example : decode? (encode [0x68, 0x69]).toList = some [0x68, 0x69] := by decide

end TopicQueue.Base64

import TopicQueue.Bytes

namespace TopicQueue.Base64

def alphabet : List Char :=
  "ABCDEFGHIJKLMNOPQRSTUVWXYZabcdefghijklmnopqrstuvwxyz0123456789+/".toList

def letter (n : Nat) : Char :=
  if n < 26 then Char.ofNat (0x41 + n)
  else if n < 52 then Char.ofNat (0x61 + (n - 26))
  else if n < 62 then Char.ofNat (0x30 + (n - 52))
  else if n = 62 then '+'
  else '/'

/-- Each three octets give four letters; a rest of one or two is filled up with `=`. `done` holds
the letters written so far, the last one first. -/
def encodeOnto (done : List Char) : Bytes → List Char
  | a :: b :: c :: rest =>
    let n := (a.toNat * 256 + b.toNat) * 256 + c.toNat
    encodeOnto (letter (n % 64) :: letter (n / 64 % 64) :: letter (n / 4096 % 64) ::
      letter (n / 262144) :: done) rest
  | [a, b] =>
    let n := (a.toNat * 256 + b.toNat) * 4
    '=' :: letter (n % 64) :: letter (n / 64 % 64) :: letter (n / 4096) :: done
  | [a] =>
    let n := a.toNat * 16
    '=' :: '=' :: letter (n % 64) :: letter (n / 64) :: done
  | [] => done

def encode (bs : Bytes) : String := String.ofList (encodeOnto [] bs).reverse

end TopicQueue.Base64

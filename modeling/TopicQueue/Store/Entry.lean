import TopicQueue.Json.Record

namespace TopicQueue

structure StoredEntry where
  payload : Bytes
  /-- Milliseconds since the start of 1970. -/
  enqueuedAt : Int
  deriving DecidableEq, Repr

namespace StoredEntry

def digits (n : Nat) : Bytes := Bytes.ofText (toString n)

def signedDigits (i : Int) : Bytes := if i < 0 then 0x2D :: digits i.natAbs else digits i.natAbs

def payloadText (bs : Bytes) : Bytes := List.intercalate [0x2C] (bs.map fun b => digits b.toNat)

def encode (e : StoredEntry) : Bytes :=
  Bytes.ofText "\x7b\"payload\":[" ++
    payloadText e.payload ++ Bytes.ofText "],\"enqueued_at\":" ++ signedDigits e.enqueuedAt ++ [0x7D]

/-- The fields read so far. -/
structure Partial where
  payload : Option Bytes := none
  enqueuedAt : Option Int := none

def fields : List (Json.RecordField Partial) :=
  [⟨"payload", (·.payload.isSome), fun p bs =>
      (Json.array Json.octet bs).map fun (v, rest) => (⟨some v, p.enqueuedAt⟩, rest)⟩,
   ⟨"enqueued_at", (·.enqueuedAt.isSome), fun p bs =>
      (Json.signedWord bs).map fun (v, rest) => (⟨p.payload, some v⟩, rest)⟩]

def finish (p : Partial) : Option StoredEntry := do
  let payload ← p.payload
  let enqueuedAt ← p.enqueuedAt
  return ⟨payload, enqueuedAt⟩

def reader : Json.Reader StoredEntry := Json.record fields ⟨none, none⟩ finish

def decode (bs : Bytes) : Except Json.Flaw StoredEntry := Json.whole reader bs

end StoredEntry

end TopicQueue

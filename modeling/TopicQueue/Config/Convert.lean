import TopicQueue.Config.Value
import TopicQueue.Decimal.Shortest
import TopicQueue.Settings

namespace TopicQueue.Config

inductive Mismatch where
  | mismatch
  deriving DecidableEq, Repr

namespace Value

def isYes (s : String) : Bool := ["true", "on", "yes"].contains (s.map Char.toLower)

def isNo (s : String) : Bool := ["false", "off", "no"].contains (s.map Char.toLower)

def toText : Value → Except Mismatch String
  | .text s => .ok s
  | .bool b => .ok (toString b)
  | .int i => .ok (toString i)
  | .float d => .ok d.text
  | .null | .list _ | .table _ => .error .mismatch

def toBool : Value → Except Mismatch Bool
  | .bool b => .ok b
  | .int i => .ok (i ≠ 0)
  | .float d => .ok !d.isZero
  | .text s =>
    if s = "1" || isYes s then .ok true
    else if s = "0" || isNo s then .ok false
    else .error .mismatch
  | .null | .list _ | .table _ => .error .mismatch

def toWord : Value → Except Mismatch Nat
  | .int i => if 0 ≤ i ∧ i < (Limit.bits64 : Int) then .ok i.toNat else .error .mismatch
  | .bool b => .ok b.toNat
  | .float d => .ok d.toWord
  | .text s =>
    if isYes s then .ok 1
    else if isNo s then .ok 0
    else match Decimal.natural? Limit.bits64 s with
      | some n => .ok n
      | none => .error .mismatch
  | .null | .list _ | .table _ => .error .mismatch

def toPort (v : Value) : Except Mismatch UInt16 :=
  match v.toWord with
  | .ok n => if n < Limit.bits16 then .ok n.toUInt16 else .error .mismatch
  | .error e => .error e

def toSize (v : Value) : Except Mismatch UInt64 := v.toWord.map Nat.toUInt64

/-- Null is no value. -/
def optional {α : Type} (convert : Value → Except Mismatch α) : Value → Except Mismatch (Option α)
  | .null => .ok none
  | v => (convert v).map some

/-- The fields of a section, in the order of their names in the list. -/
def fields (names : List String) : Value → Except Mismatch (List Value)
  | .table es => .ok (names.map fun n => (Entries.look es n).getD .null)
  | .list vs => if vs.length < names.length then .error .mismatch else .ok (vs.take names.length)
  | _ => .error .mismatch

def toServer (v : Value) : Except Mismatch PartialServer := do
  match ← v.fields ["host", "port", "max_payload_bytes"] with
  | [host, port, size] =>
    return ⟨← optional toText host, ← optional toPort port, ← optional toSize size⟩
  | _ => throw .mismatch

def toStorage (v : Value) : Except Mismatch PartialStorage := do
  match ← v.fields ["path", "flush_on_insert"] with
  | [path, flush] => return ⟨← optional toText path, ← optional toBool flush⟩
  | _ => throw .mismatch

def toLogging (v : Value) : Except Mismatch PartialLogging := do
  match ← v.fields ["level"] with
  | [level] => return ⟨← optional toText level⟩
  | _ => throw .mismatch

def toSettings (v : Value) : Except Mismatch PartialSettings := do
  match ← v.fields ["server", "storage", "logging"] with
  | [server, storage, logging] =>
    return ⟨← optional toServer server, ← optional toStorage storage, ← optional toLogging logging⟩
  | _ => throw .mismatch

end Value

end TopicQueue.Config

import TopicQueue.Config.Value
import TopicQueue.Json.Record

namespace TopicQueue.Config.Document

open Json

/-- Values inside one another, the innermost included. -/
def maxDepth : Nat := 127

def ofNumber : Number → Value
  | .natural n => if n < Limit.bits63 then .int n else .float (Double.ofNat n)
  | .negative n => .int (-(n : Int))
  | .double d => .float d

def scalar (bs : Bytes) : Except Flaw (Value × Bytes) :=
  match bs with
  | [] => .error .unfinished
  | b :: rest =>
    if b = 0x6E then (readWord nullWord bs).map (.null, ·)
    else if b = 0x74 then (readWord trueWord bs).map (.bool true, ·)
    else if b = 0x66 then (readWord falseWord bs).map (.bool false, ·)
    else if b = minus || isDigit b then (readNumber bs).map fun (n, rest) => (ofNumber n, rest)
    else if b = quote then (readText rest).map fun (s, rest) => (.text s, rest)
    else .error .malformed

mutual

/-- A value, with room for so many around it. Each turn takes an octet at least. -/
def value : Nat → Nat → Reader Value
  | 0, _, _ => .error .malformed
  | turns + 1, depth, bs =>
    match skipBlank bs with
    | 0x5B :: rest =>
      match depth with
      | 0 => .error .malformed
      | depth + 1 => items turns depth true [] rest
    | 0x7B :: rest =>
      match depth with
      | 0 => .error .malformed
      | depth + 1 => members turns depth true [] rest
    | bs => scalar bs

def items : Nat → Nat → Bool → List Value → Reader Value
  | 0, _, _, _, _ => .error .malformed
  | turns + 1, depth, first, done, bs =>
    match nextElement first bs with
    | .error e => .error e
    | .ok (none, rest) => (endArray rest).map (.list done.reverse, ·)
    | .ok (some rest, _) =>
      match value turns depth rest with
      | .error e => .error e
      | .ok (v, rest) => items turns depth false (v :: done) rest

def members : Nat → Nat → Bool → Entries → Reader Value
  | 0, _, _, _, _ => .error .malformed
  | turns + 1, depth, first, done, bs =>
    match Record.nextKey first bs with
    | .error e => .error e
    | .ok (none, rest) => .ok (.table done, rest.tail)
    | .ok (some rest, _) =>
      match readText rest with
      | .error e => .error e
      | .ok (k, rest) =>
        match Record.colon rest with
        | .error e => .error e
        | .ok rest =>
          match value turns depth rest with
          | .error e => .error e
          | .ok (v, rest) => members turns depth false (done.put k v) rest

end

/-- The entries of a document, which has to be an object. -/
def parse (bs : Bytes) : Option Entries :=
  match whole (value (2 * bs.length + 2) maxDepth) bs with
  | .ok (.table es) => some es
  | _ => none

end TopicQueue.Config.Document

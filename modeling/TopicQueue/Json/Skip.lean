import TopicQueue.Json.Number

namespace TopicQueue.Json

/-- Reads the letters of `true`, `false` or `null`. -/
def readWord : Bytes → Bytes → Except Flaw Bytes
  | [], bs => .ok bs
  | _ :: _, [] => .error .unfinished
  | w :: ws, b :: bs => if b = w then readWord ws bs else .error .malformed

def nullWord : Bytes := Bytes.ofText "null"
def trueWord : Bytes := Bytes.ofText "true"
def falseWord : Bytes := Bytes.ofText "false"

namespace Skip

inductive Enclosure where
  | array
  | object
  deriving DecidableEq, Repr

def Enclosure.closer : Enclosure → UInt8
  | .array => 0x5D
  | .object => 0x7D

/-- What comes next: a value, or, inside the innermost enclosure, an element or its end. -/
inductive Expect where
  | value
  | element (first : Bool)
  deriving DecidableEq, Repr

def key (bs : Bytes) : Except Flaw Bytes :=
  match skipBlank bs with
  | [] => .error .unfinished
  | b :: rest =>
    if b ≠ quote then .error .malformed
    else do
      let rest ← skipText rest
      match skipBlank rest with
      | [] => .error .unfinished
      | c :: rest => if c = 0x3A then .ok rest else .error .malformed

def scalar (b : UInt8) (bs : Bytes) : Except Flaw Bytes :=
  if b = 0x6E then readWord nullWord bs
  else if b = 0x74 then readWord trueWord bs
  else if b = 0x66 then readWord falseWord bs
  else if b = minus || isDigit b then skipNumber bs
  else if b = quote then skipText bs.tail
  else .error .malformed

/-- Two turns in a row take at least one octet, so twice the number of octets bounds the turns. -/
def run : Nat → Expect → List Enclosure → Bytes → Except Flaw Bytes
  | 0, _, _, _ => .error .malformed
  | turns + 1, .value, around, bs =>
    match skipBlank bs with
    | [] => .error .unfinished
    | b :: rest =>
      if b = 0x5B then run turns (.element true) (.array :: around) rest
      else if b = 0x7B then run turns (.element true) (.object :: around) rest
      else match scalar b (b :: rest) with
        | .error e => .error e
        | .ok rest => if around.isEmpty then .ok rest else run turns (.element false) around rest
  | turns + 1, .element first, around, bs =>
    match around with
    | [] => .ok bs
    | enclosure :: outer =>
      let next (bs : Bytes) : Except Flaw Bytes :=
        match enclosure with
        | .array => run turns .value around bs
        | .object =>
          match key bs with
          | .error e => .error e
          | .ok rest => run turns .value around rest
      match skipBlank bs with
      | [] => .error .unfinished
      | b :: rest =>
        if b = 0x2C && !first then next rest
        else if b = enclosure.closer then
          if outer.isEmpty then .ok rest else run turns (.element false) outer rest
        else if first then next (b :: rest)
        else .error .malformed

end Skip

def skipValue (bs : Bytes) : Except Flaw Bytes := Skip.run (2 * bs.length + 2) .value [] bs

end TopicQueue.Json

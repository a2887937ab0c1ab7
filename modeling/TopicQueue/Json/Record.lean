import TopicQueue.Json.Skip

namespace TopicQueue.Json

/-- A value that starts here and is not of the type wanted: it is looked at as far as a scalar
goes, so that one that is no JSON is told apart. -/
def unwanted (bs : Bytes) : Flaw :=
  let afterwards {α : Type} : Except Flaw α → Flaw
    | .ok _ => .mistyped
    | .error e => e
  match bs with
  | [] => .unfinished
  | b :: rest =>
    if b = 0x6E then afterwards (readWord nullWord bs)
    else if b = 0x74 then afterwards (readWord trueWord bs)
    else if b = 0x66 then afterwards (readWord falseWord bs)
    else if b = minus || isDigit b then afterwards (readNumber bs)
    else if b = quote then afterwards (readText rest)
    else if b = 0x5B || b = 0x7B then .mistyped
    else .malformed

/-- A reader takes a value of its type off the input, blanks before it included. -/
abbrev Reader (α : Type) := Bytes → Except Flaw (α × Bytes)

def string : Reader String := fun bs =>
  match skipBlank bs with
  | b :: rest => if b = quote then readText rest else .error (unwanted (b :: rest))
  | [] => .error .unfinished

def boolean : Reader Bool := fun bs =>
  match skipBlank bs with
  | [] => .error .unfinished
  | b :: rest =>
    if b = 0x74 then (readWord trueWord (b :: rest)).map (true, ·)
    else if b = 0x66 then (readWord falseWord (b :: rest)).map (false, ·)
    else .error (unwanted (b :: rest))

def number (accept : Number → Option α) : Reader α := fun bs =>
  match skipBlank bs with
  | [] => .error .unfinished
  | b :: rest =>
    if b = minus || isDigit b then
      match readNumber (b :: rest) with
      | .error e => .error e
      | .ok (n, rest) =>
        match accept n with
        | some v => .ok (v, rest)
        | none => .error .mistyped
    else .error (unwanted (b :: rest))

/-- A whole number of 64 bits with a sign. -/
def signedWord : Reader Int := number fun
  | .natural n => if n < Limit.bits63 then some n else none
  | .negative n => some (-n)
  | .double _ => none

def octet : Reader UInt8 := number fun
  | .natural n => if n < 256 then some n.toUInt8 else none
  | _ => none

def optional (read : Reader α) : Reader (Option α) := fun bs =>
  match skipBlank bs with
  | [] => .error .unfinished
  | b :: rest =>
    if b = 0x6E then (readWord nullWord (b :: rest)).map (none, ·)
    else (read (b :: rest)).map fun (v, rest) => (some v, rest)

/-- What comes next inside an array: an element, or its end, which is left in place. -/
def nextElement (first : Bool) (bs : Bytes) : Except Flaw (Option Bytes × Bytes) :=
  match skipBlank bs with
  | [] => .error .unfinished
  | b :: rest =>
    if b = 0x5D then .ok (none, b :: rest)
    else if first then .ok (some (b :: rest), b :: rest)
    else if b = 0x2C then
      match skipBlank rest with
      | [] => .error .unfinished
      | c :: rest => if c = 0x5D then .error .malformed else .ok (some (c :: rest), c :: rest)
    else .error .malformed

def endArray (bs : Bytes) : Except Flaw Bytes :=
  match skipBlank bs with
  | [] => .error .unfinished
  | b :: rest => if b = 0x5D then .ok rest else .error .malformed

/-- Elements of an array up to its end, `done` holding those read, the last one first. -/
def elements (read : Reader α) : Nat → Bool → List α → Bytes → Except Flaw (List α × Bytes)
  | 0, _, _, _ => .error .malformed
  | turns + 1, first, done, bs =>
    match nextElement first bs with
    | .error e => .error e
    | .ok (none, rest) => (endArray rest).map (done.reverse, ·)
    | .ok (some rest, _) =>
      match read rest with
      | .error e => .error e
      | .ok (v, rest) => elements read turns false (v :: done) rest

def array (read : Reader α) : Reader (List α) := fun bs =>
  match skipBlank bs with
  | [] => .error .unfinished
  | b :: rest =>
    if b = 0x5B then elements read (rest.length + 1) true [] rest
    else .error (unwanted (b :: rest))

/-- A field of a record that is built up in `σ`. -/
structure RecordField (σ : Type) where
  name : String
  present : σ → Bool
  read : σ → Reader σ

namespace Record

/-- What comes next inside an object: a key, whose quote is taken, or its end, which is not. -/
def nextKey (first : Bool) (bs : Bytes) : Except Flaw (Option Bytes × Bytes) :=
  match skipBlank bs with
  | [] => .error .unfinished
  | b :: rest =>
    if b = 0x7D then .ok (none, b :: rest)
    else if first then
      if b = quote then .ok (some rest, rest) else .error .malformed
    else if b = 0x2C then
      match skipBlank rest with
      | [] => .error .unfinished
      | c :: rest => if c = quote then .ok (some rest, rest) else .error .malformed
    else .error .malformed

def colon (bs : Bytes) : Except Flaw Bytes :=
  match skipBlank bs with
  | [] => .error .unfinished
  | b :: rest => if b = 0x3A then .ok rest else .error .malformed

/-- The fields of an object up to its end. A field that comes again is refused before its value. -/
def object (fields : List (RecordField σ)) : Nat → Bool → σ → Bytes → Except Flaw (σ × Bytes)
  | 0, _, _, _ => .error .malformed
  | turns + 1, first, s, bs =>
    match nextKey first bs with
    | .error e => .error e
    | .ok (none, rest) => .ok (s, rest)
    | .ok (some rest, _) =>
      match readText rest with
      | .error e => .error e
      | .ok (name, rest) =>
        match fields.find? (·.name == name) with
        | none =>
          match colon rest with
          | .error e => .error e
          | .ok rest =>
            match skipValue rest with
            | .error e => .error e
            | .ok rest => object fields turns false s rest
        | some field =>
          if field.present s then .error .mistyped
          else match colon rest with
            | .error e => .error e
            | .ok rest =>
              match field.read s rest with
              | .error e => .error e
              | .ok (s, rest) => object fields turns false s rest

def inOrder : List (RecordField σ) → Bool → σ → Bytes → Except Flaw (σ × Bytes)
  | [], _, s, bs => .ok (s, bs)
  | field :: fields, first, s, bs =>
    match nextElement first bs with
    | .error e => .error e
    | .ok (none, _) => .error .mistyped
    | .ok (some rest, _) =>
      match field.read s rest with
      | .error e => .error e
      | .ok (s, rest) => inOrder fields false s rest

end Record

/-- A record. `finish` has no answer where a field is missing. -/
def record (fields : List (RecordField σ)) (start : σ) (finish : σ → Option α) : Reader α := fun bs =>
  match skipBlank bs with
  | [] => .error .unfinished
  | b :: rest =>
    if b = 0x7B then
      match Record.object fields (rest.length + 1) true start rest with
      | .error e => .error e
      | .ok (s, rest) =>
        match finish s with
        | none => .error .mistyped
        | some v => .ok (v, rest.tail)
    else if b = 0x5B then
      match Record.inOrder fields true start rest with
      | .error e => .error e
      | .ok (s, rest) =>
        match finish s with
        | none => .error .mistyped
        | some v => (endArray rest).map (v, ·)
    else .error (unwanted (b :: rest))

def whole (read : Reader α) (bs : Bytes) : Except Flaw α :=
  match read bs with
  | .error e => .error e
  | .ok (v, rest) => if (skipBlank rest).isEmpty then .ok v else .error .malformed

end TopicQueue.Json

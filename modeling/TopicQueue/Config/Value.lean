import TopicQueue.Decimal.Digits
import TopicQueue.Decimal.Double

namespace TopicQueue.Config

inductive Value where
  | null
  | bool (b : Bool)
  | int (i : Int)
  | float (d : Double)
  | text (s : String)
  | list (items : List Value)
  | table (entries : List (String × Value))

abbrev Entries := List (String × Value)

namespace Value

def entries : Value → Entries
  | .table es => es
  | _ => []

def items : Value → List Value
  | .list vs => vs
  | _ => []

end Value

namespace Entries

def look : Entries → String → Option Value
  | [], _ => none
  | (k, v) :: rest, key => if k = key then some v else look rest key

/-- Changes the value of a key; one that is missing starts from null. -/
def alter (key : String) (f : Value → Value) : Entries → Entries
  | [] => [(key, f .null)]
  | (k, v) :: rest => if k = key then (k, f v) :: rest else (k, v) :: alter key f rest

def put (es : Entries) (key : String) (v : Value) : Entries := es.alter key fun _ => v

end Entries

/-- One step into a value. A negative index counts from the end. -/
inductive Step where
  | key (name : String)
  | index (i : Int)
  deriving DecidableEq, Repr

namespace Value

/-- Changes one item of a list, which is made longer if it has to be. -/
def alterItem (i : Int) (f : Value → Value) (vs : List Value) : List Value :=
  let size : Int := vs.length
  let at' := if i < 0 then size + i else i
  if at' < 0 then
    f .null :: (List.replicate (at'.natAbs - 1) .null ++ vs)
  else
    let n := at'.toNat
    let vs := vs ++ List.replicate (n + 1 - vs.length) .null
    vs.mapIdx fun j v => if j = n then f v else v

/-- Changes what a path leads to. Whatever is in the way of the path is replaced. -/
def alterAt : List Step → (Value → Value) → Value → Value
  | [], f, v => f v
  | .key k :: path, f, v => .table (v.entries.alter k (alterAt path f))
  | .index i :: path, f, v => .list (alterItem i (alterAt path f) v.items)

mutual

def onto : Value → Value → Value
  | .table es, below => .table (entriesOnto es below.entries)
  | v, _ => v

def entriesOnto : List (String × Value) → Entries → Entries
  | [], below => below
  | (k, v) :: rest, below => entriesOnto rest (below.alter k (onto v))

end

end Value

namespace Path

def isNameChar (c : Char) : Bool := c.isAlphanum || c = '_' || c = '-'

def name? (cs : List Char) : Option (String × List Char) :=
  match cs.span isNameChar with
  | ([], _) => none
  | (n, rest) => some (String.ofList n, rest)

def index? (cs : List Char) : Option (Int × List Char) :=
  let (negative, cs) := match cs with
    | '-' :: cs => (true, cs)
    | cs => (false, cs)
  match cs.span Char.isDigit with
  | ([], _) => none
  | (ds, ']' :: rest) =>
    let n := Decimal.natural ds
    if n < Limit.bits63 then some (if negative then -(n : Int) else n, rest) else none
  | _ => none

/-- The steps after the first name. Each takes two characters at least. -/
def steps : Nat → List Char → Option (List Step)
  | _, [] => some []
  | 0, _ => none
  | turns + 1, '.' :: cs =>
    match name? cs with
    | none => none
    | some (n, rest) => (steps turns rest).map (.key n :: ·)
  | turns + 1, '[' :: cs =>
    match index? cs with
    | none => none
    | some (i, rest) => (steps turns rest).map (.index i :: ·)
  | _ + 1, _ => none

/-- A path is a name, with names after dots and indexes in brackets behind it. A text of another
form is one key. -/
def parse (s : String) : List Step :=
  let whole := [Step.key s]
  match name? s.toList with
  | none => whole
  | some (n, rest) =>
    match steps rest.length rest with
    | none => whole
    | some more => .key n :: more

end Path

def Value.lay (root : Value) (path : String) (v : Value) : Value :=
  root.alterAt (Path.parse path) v.onto

end TopicQueue.Config

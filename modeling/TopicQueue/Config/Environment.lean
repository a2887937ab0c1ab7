import TopicQueue.Config.Value

namespace TopicQueue.Config

/-- Digits before and after a point, of which there is one at least, as a number and the power of
ten of its last digit; and what follows. -/
def decimalDigits (cs : List Char) : Option ((Nat × Int) × List Char) :=
  let (whole, rest) := cs.span Char.isDigit
  let (fraction, rest) := match rest with
    | '.' :: more => more.span Char.isDigit
    | _ => ([], rest)
  if whole.isEmpty && fraction.isEmpty then none
  else
    some ((Decimal.natural (whole ++ fraction), -(fraction.length : Int)), rest)

/-- The power of ten after an `e`; nothing stands for zero. -/
def exponent? : List Char → Option Int
  | [] => some 0
  | c :: rest =>
    let (negative, ds) := Decimal.sign rest
    let n := Decimal.natural ds
    if (c = 'e' || c = 'E') && Decimal.isNumeral ds then some (if negative then -(n : Int) else n)
    else none

/-- A text that writes a floating-point number: decimal digits, or a word for infinity or for no
number. -/
def floatingNumber? (s : String) : Option Double :=
  let (negative, cs) := Decimal.sign s.toList
  let word := (String.ofList cs).map Char.toLower
  if word = "inf" || word = "infinity" then some (.infinite negative)
  else if word = "nan" then some .nan
  else
    match decimalDigits cs with
    | none => none
    | some ((digits, scale), rest) =>
      (exponent? rest).map fun e => Double.ofDecimal negative digits (scale + e)

namespace Environment

/-- What a variable's text means: a truth value, a number, or itself. -/
def value (s : String) : Value :=
  let word := s.map Char.toLower
  if word = "true" then .bool true
  else if word = "false" then .bool false
  else match Decimal.signedWord? s with
    | some i => .int i
    | none =>
      match floatingNumber? s with
      | some d => .float d
      | none => .text s

def start : List Char := "workq_".toList

/-- Two underscores in a row separate the names of a path. -/
def dotted : List Char → List Char
  | '_' :: '_' :: cs => '.' :: dotted cs
  | c :: cs => c :: dotted cs
  | [] => []

/-- A name in small letters. The Kelvin sign is the one character beyond ASCII that has one of its
letters for a small letter. -/
def lowered (name : String) : String :=
  name.map fun c => if c = '\u212A' then 'k' else c.toLower

/-- The path that a variable's name stands for. -/
def path? (name : String) : Option String :=
  let cs := (lowered name).toList
  if start.isPrefixOf cs then some (String.ofList (dotted (cs.drop start.length))) else none

def lay (env : List (String × String)) (root : Value) : Value :=
  env.foldl (fun root (name, text) =>
    match path? name with
    | none => root
    | some path => root.lay path (value text)) root

end Environment

end TopicQueue.Config

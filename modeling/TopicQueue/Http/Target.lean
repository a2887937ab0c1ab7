import TopicQueue.Json.Literal

namespace TopicQueue.Http

def slash : UInt8 := 0x2F
def questionMark : UInt8 := 0x3F
def numberSign : UInt8 := 0x23
def colon : UInt8 := 0x3A
def percent : UInt8 := 0x25

def isLetter (b : UInt8) : Bool := (0x41 ≤ b && b ≤ 0x5A) || (0x61 ≤ b && b ≤ 0x7A)

def isTokenOctet (b : UInt8) : Bool :=
  isLetter b || Json.isDigit b || (Bytes.ofText "!#$%&'*+-.^_|~").contains b || b == 0x60

def isMethod (s : String) : Bool :=
  let bs := Bytes.ofText s
  !bs.isEmpty && bs.all isTokenOctet

namespace Target

def isSchemeOctet (b : UInt8) : Bool := isLetter b || Json.isDigit b || (Bytes.ofText "+-.").contains b

def isAuthorityEnd (b : UInt8) : Bool := b == slash || b == questionMark || b == numberSign

def isAuthorityOctet (b : UInt8) : Bool :=
  isLetter b || Json.isDigit b || (Bytes.ofText "!$&'()*+,-.:;=@[]_~").contains b

/-- Octets that a path may hold; some that should be escaped are let through. -/
def isPathOctet (b : UInt8) : Bool :=
  b == 0x21 || b == 0x22 || (0x24 ≤ b && b ≤ 0x3B) || b == 0x3D || (0x40 ≤ b && b ≤ 0x5F) ||
    0x61 ≤ b

def isQueryOctet (b : UInt8) : Bool :=
  b == 0x21 || (0x24 ≤ b && b ≤ 0x3B) || b == 0x3D || 0x3F ≤ b

/-- What has been seen of an authority since its last `@` or `]`. -/
structure Authority where
  colons : Nat := 0
  escape : Bool := false
  opened : Bool := false
  closed : Bool := false
  /-- The last octet was an `@`. -/
  bare : Bool := false

def Authority.push (a : Authority) (b : UInt8) : Option Authority :=
  if b = colon then
    if 8 ≤ a.colons then none else some { a with colons := a.colons + 1, bare := false }
  else if b = 0x5B then
    if a.escape || a.opened then none else some { a with opened := true, bare := false }
  else if b = 0x5D then
    if !a.opened || a.closed then none
    else some { a with closed := true, colons := 0, escape := false, bare := false }
  else if b = 0x40 then some { a with colons := 0, escape := false, bare := true }
  else if b = percent then some { a with escape := true, bare := false }
  else if isAuthorityOctet b then some { a with bare := false }
  else none

def Authority.isComplete (a : Authority) : Bool :=
  a.opened == a.closed && a.colons ≤ 1 && !a.bare && !a.escape

def isAuthority (bs : Bytes) : Bool :=
  match bs.foldlM Authority.push {} with
  | none => false
  | some a => a.isComplete

def maxScheme : Nat := 64

def scheme? (bs : Bytes) : Option (Bytes × Bytes) :=
  match bs.span isSchemeOctet with
  | (name, 0x3A :: 0x2F :: 0x2F :: rest) => some (name, rest)
  | _ => none

/-- The path before query and fragment, if none of them holds a bad octet. -/
def pathBefore? (bs : Bytes) : Option Bytes :=
  let (path, rest) := bs.span fun b => b != questionMark && b != numberSign
  let query := match rest with
    | b :: query => if b = questionMark then query.takeWhile (· != numberSign) else []
    | [] => []
  if path.all isPathOctet && query.all isQueryOctet then some path else none

def maxTarget : Nat := 65534

/-- The path that a target leads to, unless it is no target. An authority alone has an empty path;
behind an authority no path is the path `/`. -/
def path? (target : String) : Option Bytes :=
  let bs := Bytes.ofText target
  if maxTarget < bs.length then none
  else match bs with
    | [] => none
    | [0x2A] => some [0x2A]
    | b :: _ =>
      if b = slash then pathBefore? bs
      else match scheme? bs with
        | some (name, rest) =>
          if maxScheme < name.length then none
          else
            let (authority, rest) := rest.span (!isAuthorityEnd ·)
            if authority.isEmpty || !isAuthority authority then none
            else (pathBefore? rest).map fun path => if path.isEmpty then [slash] else path
        | none => if isAuthority bs then some [] else none

end Target

end TopicQueue.Http

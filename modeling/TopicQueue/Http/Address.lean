import TopicQueue.Decimal.Digits

namespace TopicQueue.Http.Address

/-- A port in decimal digits; a plus sign and zeros in front do not matter. -/
def port? (s : String) : Option UInt16 := (Decimal.natural? Limit.bits16 s).map Nat.toUInt16

/-- The host, which may hold colons itself, and the port. -/
def parse (s : String) : Option (String × UInt16) :=
  let back := s.toList.reverse
  match back.span (· != ':') with
  | (port, _ :: host) =>
    (port? (String.ofList port.reverse)).map (String.ofList host.reverse, ·)
  | (_, []) => none

inductive BindError where
  /-- No host and port. -/
  | invalidInput
  /-- The host has no address. -/
  | unresolved
  /-- The address belongs to another machine. -/
  | addrNotAvailable
  deriving DecidableEq, Repr

def BindError.kind : BindError → String
  | .invalidInput => "InvalidInput"
  | .unresolved => "Uncategorized"
  | .addrNotAvailable => "AddrNotAvailable"

/-- Four numbers below 256, without zeros in front. -/
def ipv4? (s : String) : Option (List Nat) :=
  let parts := s.splitOn "."
  if parts.length = 4 then
    parts.mapM fun p =>
      let ds := p.toList
      if Decimal.isNumeral ds && ds.length ≤ 3 && (ds.head? != some '0' || ds.length == 1) &&
          Decimal.natural ds < 256 then some (Decimal.natural ds)
      else none
  else none

def isLocal (host : String) : Except BindError Unit :=
  if host = "localhost" || host = "[::1]" || host = "[::]" then .ok ()
  else match ipv4? host with
    | some [127, _, _, _] | some [0, 0, 0, 0] => .ok ()
    | some _ => .error .addrNotAvailable
    | none => .error .unresolved

def bind (s : String) : Except BindError Unit :=
  match parse s with
  | none => .error .invalidInput
  | some (host, _) => isLocal host

end TopicQueue.Http.Address

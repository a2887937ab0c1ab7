import TopicQueue.Http.Target

namespace TopicQueue.Http

/-- A percent sign and two hexadecimal digits stand for an octet; any other percent sign stands for
itself. -/
def percentDecode : Bytes → Bytes
  | b :: h :: l :: rest =>
    if b = percent then
      match Json.hexDigit? h, Json.hexDigit? l with
      | some h, some l => (h * 16 + l).toUInt8 :: percentDecode rest
      | _, _ => b :: percentDecode (h :: l :: rest)
    else b :: percentDecode (h :: l :: rest)
  | bs => bs

inductive Handler where
  | publish
  | subscribe
  deriving DecidableEq, Repr

def Handler.text : Handler → String
  | .publish => "publish"
  | .subscribe => "subscribe"

inductive Route where
  | notFound
  | methodNotAllowed
  | handle (handler : Handler) (topic : Option String)
  deriving DecidableEq, Repr

namespace Route

/-- The one method that is known. -/
def method : String := "POST"

def topic? (segment : Bytes) : Option String :=
  match (percentDecode segment).text? with
  | some t => if t = "" then none else some t
  | none => none

/-- What follows a handler's name in a path: nothing, or a slash and at most one segment. -/
def under? (path name : Bytes) : Option (Option String) :=
  if name.isPrefixOf path then
    match path.drop name.length with
    | [] => some none
    | b :: segment =>
      if b = slash ∧ !segment.contains slash then some (topic? segment) else none
  else none

def ofPath (path : Bytes) : Option (Handler × Option String) :=
  match under? path (Bytes.ofText "/publish") with
  | some topic => some (.publish, topic)
  | none => (under? path (Bytes.ofText "/subscribe")).map (.subscribe, ·)

/-- Where a request goes, unless its first line is no request line. -/
def of? (verb target : String) : Option Route :=
  if !isMethod verb then none
  else (Target.path? target).map fun path =>
    match ofPath path with
    | none => .notFound
    | some (handler, topic) => if verb = method then .handle handler topic else .methodNotAllowed

end Route

end TopicQueue.Http

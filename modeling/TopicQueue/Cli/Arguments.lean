import TopicQueue.Decimal.Digits

namespace TopicQueue.Cli

structure ServeOptions where
  config : Option String := none
  host : Option String := none
  port : Option UInt16 := none
  deriving DecidableEq, Repr

inductive Invocation where
  | serve (options : ServeOptions)
  | help
  | version
  | misuse
  deriving DecidableEq, Repr

/-- A port, which may have a sign in front. -/
def port? (s : String) : Option UInt16 :=
  match Decimal.signedWord? s with
  | some i => if 0 ≤ i ∧ i < Limit.bits16 then some i.toNat.toUInt16 else none
  | none => none

namespace ServeOptions

inductive Name where
  | config
  | host
  | port
  deriving DecidableEq, Repr

def Name.of? (s : String) : Option Name :=
  if s = "config" then some .config
  else if s = "host" then some .host
  else if s = "port" then some .port
  else none

/-- Gives an option its value, unless it has one or the value does not fit. -/
def set (o : ServeOptions) (n : Name) (v : String) : Option ServeOptions :=
  match n with
  | .config => if o.config.isSome then none else some { o with config := some v }
  | .host => if o.host.isSome then none else some { o with host := some v }
  | .port =>
    if o.port.isSome then none
    else (port? v).map fun p => { o with port := some p }

end ServeOptions

/-- An argument that looks like an option. A single dash does not. -/
def isOption (s : String) : Bool := s.startsWith "-" && s ≠ "-"

inductive Word where
  | help
  | option (name : ServeOptions.Name) (value : Option String)
  | stop
  | other
  deriving DecidableEq, Repr

def Word.of (s : String) : Word :=
  if s = "--" then .stop
  else match s.toList with
    | '-' :: '-' :: cs =>
      let (name, rest) := cs.span (· != '=')
      let value := match rest with
        | _ :: v => some (String.ofList v)
        | [] => none
      if name = "help".toList && value.isNone then .help
      else match ServeOptions.Name.of? (String.ofList name) with
        | some n => .option n value
        | none => .other
    | '-' :: 'h' :: _ => .help
    | _ => .other

/-- The arguments after `serve`. They are taken one by one, and the first that makes no sense
decides, as a call for help does. -/
def serve (o : ServeOptions) : List String → Invocation
  | [] => .serve o
  | a :: rest =>
    match Word.of a with
    | .help => .help
    | .stop => if rest.isEmpty then .serve o else .misuse
    | .other => .misuse
    | .option n (some v) =>
      match o.set n v with
      | some o => serve o rest
      | none => .misuse
    | .option n none =>
      match rest with
      | [] => .misuse
      | v :: rest =>
        if isOption v then .misuse
        else match o.set n v with
          | some o => serve o rest
          | none => .misuse

def helpOn : List String → Invocation
  | [] | ["serve"] | ["help"] => .help
  | _ => .misuse

def parse : List String → Invocation
  | [] => .misuse
  | a :: rest =>
    if a = "serve" then serve {} rest
    else if a = "help" then helpOn rest
    else if a = "--help" then .help
    else if a = "--version" then .version
    else match a.toList with
      | '-' :: 'h' :: _ => .help
      | '-' :: 'V' :: _ => .version
      | _ => .misuse

end TopicQueue.Cli

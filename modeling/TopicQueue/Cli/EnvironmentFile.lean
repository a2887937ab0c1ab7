import TopicQueue.Place
import TopicQueue.Table
import TopicQueue.Text.Lossy

namespace TopicQueue.Cli

abbrev Variables := Table String String

namespace EnvironmentFile

inductive State where
  | bare
  | single
  | double
  | escape (quoted : Bool)
  | name (quoted braced : Bool) (back : List Char)
  /-- After a blank: only a comment may follow. -/
  | done
  deriving DecidableEq, Repr

def State.quotes (quoted : Bool) : State := if quoted then .double else .bare

/-- The value that a name stands for, the last character first. -/
def reference (known : Variables) (back : List Char) : List Char :=
  ((known.look (String.ofList back.reverse)).getD "").toList.reverse

def escaped? (c : Char) : Option Char :=
  if c = 'n' then some '\n'
  else if ['\\', '\'', '"', '$', ' '].contains c then some c
  else none

/-- Reads a value. `out` holds what it is so far, the last character first. -/
def value (known : Variables) : State → List Char → List Char → Option String
  | .bare, out, [] | .done, out, [] | .escape false, out, [] => some (String.ofList out.reverse)
  | .name false false back, out, [] =>
    some (String.ofList (reference known back ++ out).reverse)
  | _, _, [] => none
  | .done, out, c :: cs =>
    if c = ' ' || c = '\t' then value known .done out cs
    else if c = '#' then some (String.ofList out.reverse)
    else none
  | .escape quoted, out, c :: cs =>
    match escaped? c with
    | some e => value known (.quotes quoted) (e :: out) cs
    | none => none
  | .single, out, c :: cs =>
    if c = '\'' then value known .bare out cs else value known .single (c :: out) cs
  | .name quoted true back, out, c :: cs =>
    if c = '\x7d' then value known (.quotes quoted) (reference known back ++ out) cs
    else value known (.name quoted true (c :: back)) out cs
  | .name quoted false back, out, c :: cs =>
    if c.isAlphanum then value known (.name quoted false (c :: back)) out cs
    else if c = '\x7b' && back.isEmpty then value known (.name quoted true []) out cs
    else
      let out := reference known back ++ out
      if c = '$' then value known (.name quoted false []) out cs
      else value known (.quotes quoted) (c :: out) cs
  | .double, out, c :: cs =>
    if c = '$' then value known (.name true false []) out cs
    else if c = '"' then value known .bare out cs
    else if c = '\\' then value known (.escape true) out cs
    else value known .double (c :: out) cs
  | .bare, out, c :: cs =>
    if c = '$' then value known (.name false false []) out cs
    else if c = '\'' then value known .single out cs
    else if c = '"' then value known .double out cs
    else if c = '\\' then value known (.escape false) out cs
    else if c = ' ' || c = '\t' then value known .done out cs
    else value known .bare (c :: out) cs

def isSpace (c : Char) : Bool := c.isWhitespace || c = '\x0b' || c = '\x0c'

def skipSpace (cs : List Char) : List Char := cs.dropWhile isSpace

def name? (cs : List Char) : Option (String × List Char) :=
  match cs with
  | [] => none
  | c :: _ =>
    if c.isAlpha || c = '_' then
      let (n, rest) := cs.span fun c => c.isAlphanum || c = '_' || c = '.'
      some (String.ofList n, skipSpace rest)
    else none

def afterEquals? : List Char → Option (List Char)
  | '=' :: cs => some (skipSpace cs)
  | _ => none

/-- The name in front of an equals sign, and what follows it. The word `export` may stand before
the name. -/
def assignment? (cs : List Char) : Option (String × List Char) := do
  let (name, rest) ← name? cs
  match afterEquals? rest with
  | some rest => some (name, rest)
  | none =>
    if name = "export" then
      let (name, rest) ← name? rest
      return (name, ← afterEquals? rest)
    else none

/-- A line: nothing, or a variable with its value. -/
def line (known : Variables) (cs : List Char) : Option (Option (String × String)) :=
  let cs := skipSpace (cs.reverse.dropWhile isSpace).reverse
  match cs with
  | [] | '#' :: _ => some none
  | _ =>
    match assignment? cs with
    | none => none
    | some (name, rest) =>
      match rest with
      | [] | '#' :: _ => some (some (name, ""))
      | _ => (value known .bare [] rest).map fun v => some (name, v)

/-- Fills variables from lines. A value that is set already stays; it is also what references to it
mean. -/
def fill : Variables → Variables → List String → Variables
  | set, _, [] => set
  | set, seen, l :: rest =>
    match line (set ++ seen) l.toList with
    | none => set
    | some none => fill set seen rest
    | some (some (name, v)) =>
      let set := if (set.look name).isSome then set else set.put name v
      fill set (seen.put name v) rest

def path : String := ".env"

def extend (files : Files) (env : Variables) : Variables :=
  match files.read path with
  | none => env
  | some contents =>
    fill env [] ((String.ofList (Text.ofFile contents)).splitOn "\n")

end EnvironmentFile

end TopicQueue.Cli

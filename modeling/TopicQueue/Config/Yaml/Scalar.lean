import TopicQueue.Config.Environment

namespace TopicQueue.Config.Yaml

structure Cell where
  char : Char
  column : Nat
  deriving DecidableEq, Repr

abbrev Reader (α : Type) := List Cell → Option (α × List Cell)

/-- Characters with their columns; every line end becomes a line feed. -/
def cellsFrom : Nat → List Cell → List Char → List Cell
  | _, done, [] => done.reverse
  | column, done, '\r' :: '\n' :: cs => cellsFrom 0 (⟨'\n', column⟩ :: done) cs
  | column, done, c :: cs =>
    if c = '\n' || c = '\r' then cellsFrom 0 (⟨'\n', column⟩ :: done) cs
    else cellsFrom (column + 1) (⟨c, column⟩ :: done) cs

def cells (cs : List Char) : List Cell := cellsFrom 0 [] cs

def isBlank (c : Char) : Bool := c = ' ' || c = '\t'

def isSpace (c : Char) : Bool := isBlank c || c = '\n'

def spaced : List Cell → Bool
  | [] => true
  | c :: _ => isSpace c.char

def isFlowMark (c : Char) : Bool := [',', '[', ']', '\x7b', '\x7d'].contains c

def skipBlank (cs : List Cell) : List Cell := cs.dropWhile fun c => isBlank c.char

def radix? (base : Nat) (isDigit : Char → Bool) (ds : List Char) : Option Int :=
  let value (c : Char) : Nat :=
    if c.isDigit then c.toNat - 48 else if 'a' ≤ c then c.toNat - 87 else c.toNat - 55
  let (negative, ds) := Decimal.sign ds
  let n := ds.foldl (fun n d => n * base + value d) 0
  if ds.isEmpty || !ds.all isDigit then none
  else if negative then (if n ≤ Limit.bits63 then some (-(n : Int)) else none)
  else if n < Limit.bits63 then some n
  else none

def isHex (c : Char) : Bool := c.isDigit || ('a' ≤ c && c ≤ 'f') || ('A' ≤ c && c ≤ 'F')

def int? (s : String) : Option Int :=
  match s.toList with
  | '0' :: 'x' :: ds => radix? 16 isHex ds
  | '0' :: 'o' :: ds => radix? 8 (fun c => '0' ≤ c && c ≤ '7') ds
  | _ => Decimal.signedWord? s

/-- Infinity and what is no number. They are known as numbers, and yet no reader takes them. -/
def isDotted (s : String) : Bool :=
  [".inf", ".Inf", ".INF", "+.inf", "+.Inf", "+.INF", "-.inf", "-.Inf", "-.INF",
    ".nan", ".NaN", ".NAN"].contains s

def plainValue (s : String) : Option Value :=
  match int? s with
  | some i => some (.int i)
  | none =>
    if s = "" || s = "~" || s = "null" then some .null
    else if s = "true" then some (.bool true)
    else if s = "false" then some (.bool false)
    else if isDotted s then none
    else if s.toList.any Char.isDigit then
      match floatingNumber? s with
      | some d => some (.float d)
      | none => some (.text s)
    else some (.text s)

/-- Drops the blanks at the end of what has been read, the last character first. -/
def trimEnd (done : List Char) : List Char := done.dropWhile isBlank

/-- After a line end inside a scalar: the blanks and further line ends before the next character.
One line end is worth a space; of several, each after the first is kept. -/
def fold (cs : List Cell) : List Char × List Cell :=
  let (gap, rest) := cs.span fun c => isSpace c.char
  let ends := (gap.filter fun c => c.char = '\n').length
  (if ends = 0 then [' '] else List.replicate ends '\n', rest)

/-- The rest of a scalar in single quotes, where two of them stand for one. -/
def single : Nat → List Char → Reader String
  | 0, _, _ => none
  | _ + 1, _, [] => none
  | turns + 1, done, c :: cs =>
    if c.char = '\'' then
      match cs with
      | d :: rest =>
        if d.char = '\'' then single turns ('\'' :: done) rest
        else some (String.ofList done.reverse, cs)
      | [] => some (String.ofList done.reverse, [])
    else if c.char = '\n' then
      let (gap, rest) := fold cs
      single turns (gap ++ trimEnd done) rest
    else single turns (c.char :: done) cs

def shortEscape? (c : Char) : Option Char :=
  match c with
  | '0' => some '\x00'
  | 'a' => some '\x07'
  | 'b' => some '\x08'
  | 't' | '\t' => some '\t'
  | 'n' => some '\n'
  | 'v' => some '\x0b'
  | 'f' => some '\x0c'
  | 'r' => some '\r'
  | 'e' => some '\x1b'
  | ' ' => some ' '
  | '"' => some '"'
  | '/' => some '/'
  | '\\' => some '\\'
  | 'N' => some '\u0085'
  | '_' => some '\u00a0'
  | 'L' => some '\u2028'
  | 'P' => some '\u2029'
  | _ => none

def escapeSize? (c : Char) : Option Nat :=
  match c with
  | 'x' => some 2
  | 'u' => some 4
  | 'U' => some 8
  | _ => none

def codePoint? (ds : List Char) (size : Nat) : Option Char :=
  match radix? 16 isHex ds with
  | none => none
  | some i =>
    let n := i.toNat
    if ds.length = size && ds.all isHex && (n < 0xD800 || (0xE000 ≤ n && n ≤ 0x10FFFF)) then
      some (Char.ofNat n)
    else none

def double : Nat → List Char → Reader String
  | 0, _, _ => none
  | _ + 1, _, [] => none
  | turns + 1, done, c :: cs =>
    if c.char = '"' then some (String.ofList done.reverse, cs)
    else if c.char = '\n' then
      let (gap, rest) := fold cs
      double turns (gap ++ trimEnd done) rest
    else if c.char = '\\' then
      match cs with
      | [] => none
      | e :: rest =>
        if e.char = '\n' then double turns done (rest.dropWhile fun c => isSpace c.char)
        else match shortEscape? e.char, escapeSize? e.char with
          | some x, _ => double turns (x :: done) rest
          | none, some size =>
            match codePoint? ((rest.take size).map (·.char)) size with
            | some x => double turns (x :: done) (rest.drop size)
            | none => none
          | none, none => none
    else double turns (c.char :: done) cs

def quoted : Reader String
  | [] => none
  | c :: cs =>
    if c.char = '\'' then single (cs.length + 1) [] cs
    else if c.char = '"' then double (cs.length + 1) [] cs
    else none

def isQuote (c : Char) : Bool := c = '\'' || c = '"'

/-- Whether a plain scalar can start here. -/
def startsPlain (flow : Bool) : List Cell → Bool
  | [] => false
  | c :: rest =>
    if ['-', '?', ':'].contains c.char then
      !spaced rest && !(flow && rest.head?.any fun d => isFlowMark d.char)
    else !isSpace c.char && !isFlowMark c.char &&
      !(['#', '&', '*', '!', '|', '>', '\'', '"', '%', '@', '\x60'].contains c.char)

def endsKey (flow : Bool) : List Cell → Bool
  | [] => false
  | c :: rest =>
    c.char = ':' && (spaced rest || (flow && rest.head?.any fun d => isFlowMark d.char))

/-- One line of a plain scalar, without the blanks at its end; and what follows it. -/
def plainLine (flow : Bool) : List Char → List Cell → List Char × List Cell
  | done, [] => (trimEnd done, [])
  | done, c :: cs =>
    if c.char = '\n' || endsKey flow (c :: cs) || (flow && isFlowMark c.char) ||
        (c.char = '#' && done.head?.all isBlank) then (trimEnd done, c :: cs)
    else plainLine flow (c.char :: done) cs

/-- The mark at the start of a line that begins or ends a document. -/
def isDocumentMark (cs : List Cell) : Bool :=
  let front := (cs.take 3).map (·.char)
  (cs.head?.any fun c => c.column = 0) && (front = ['-', '-', '-'] || front = ['.', '.', '.']) &&
    spaced (cs.drop 3)

/-- A plain scalar, which goes on over lines that are indented beyond `around`. -/
def plain (flow : Bool) (around : Int) : Nat → List Char → Reader String
  | 0, _, _ => none
  | turns + 1, done, cs =>
    let (done, rest) := plainLine flow done cs
    match rest with
    | c :: more =>
      if c.char = '\n' then
        let (gap, next) := fold more
        match next with
        | d :: _ =>
          if around < d.column && d.char != '#' && !isDocumentMark next && !endsKey flow next &&
              !(flow && isFlowMark d.char) then
            plain flow around turns (d.char :: (gap ++ done)) (next.drop 1)
          else some (String.ofList done.reverse, rest)
        | [] => some (String.ofList done.reverse, rest)
      else some (String.ofList done.reverse, rest)
    | [] => some (String.ofList done.reverse, rest)

end TopicQueue.Config.Yaml

import TopicQueue.Config.Environment

namespace TopicQueue.Config.Toml

abbrev Reader (α : Type) := List Char → Option (α × List Char)

def isBlank (c : Char) : Bool := c = ' ' || c = '\t'

/-- Characters that stand in no line: controls other than the tab. -/
def isControl (c : Char) : Bool := (c.toNat < 0x20 && c != '\t') || c.toNat = 0x7F

def isHex (c : Char) : Bool :=
  c.isDigit || ('a' ≤ c && c ≤ 'f') || ('A' ≤ c && c ≤ 'F')

def hexValue (c : Char) : Nat :=
  if c.isDigit then c.toNat - 48 else if 'a' ≤ c then c.toNat - 87 else c.toNat - 55

def codePoint (size : Nat) : Reader Char := fun cs =>
  let ds := cs.take size
  let n := ds.foldl (fun n d => n * 16 + hexValue d) 0
  if ds.length = size && ds.all isHex && (n < 0xD800 || (0xE000 ≤ n && n ≤ 0x10FFFF)) then
    some (Char.ofNat n, cs.drop size)
  else none

def escape : Reader Char
  | 'b' :: cs => some ('\x08', cs)
  | 't' :: cs => some ('\t', cs)
  | 'n' :: cs => some ('\n', cs)
  | 'f' :: cs => some ('\x0c', cs)
  | 'r' :: cs => some ('\r', cs)
  | '"' :: cs => some ('"', cs)
  | '\\' :: cs => some ('\\', cs)
  | 'u' :: cs => codePoint 4 cs
  | 'U' :: cs => codePoint 8 cs
  | _ => none

/-- The rest of a string on one line. Each turn takes a character. -/
def line (quote : Char) : Nat → List Char → Reader String
  | 0, _, _ => none
  | _ + 1, _, [] => none
  | turns + 1, done, c :: cs =>
    if c = quote then some (String.ofList done.reverse, cs)
    else if isControl c then none
    else if quote = '"' && c = '\\' then
      match escape cs with
      | none => none
      | some (e, cs) => line quote turns (e :: done) cs
    else line quote turns (c :: done) cs

def isSpace (c : Char) : Bool := isBlank c || c = '\n' || c = '\r'

/-- After a backslash at the end of a line: all blanks and line ends are passed over. -/
def joined? (cs : List Char) : Option (List Char) :=
  match cs.dropWhile isBlank with
  | '\n' :: rest => some (rest.dropWhile isSpace)
  | '\r' :: '\n' :: rest => some (rest.dropWhile isSpace)
  | _ => none

/-- The rest of a string over several lines. It ends with the last three of at most five quotes. -/
def lines (quote : Char) : Nat → List Char → Reader String
  | 0, _, _ => none
  | _ + 1, _, [] => none
  | turns + 1, done, c :: cs =>
    if c = quote then
      let quotes := (c :: cs).takeWhile (· = quote)
      if 3 ≤ quotes.length then
        let n := min quotes.length 5
        some (String.ofList (List.replicate (n - 3) quote ++ done).reverse, (c :: cs).drop n)
      else lines quote turns (c :: done) cs
    else if c = '\n' then lines quote turns (c :: done) cs
    else if c = '\r' then
      match cs with
      | '\n' :: cs => lines quote turns ('\n' :: done) cs
      | _ => none
    else if isControl c then none
    else if quote = '"' && c = '\\' then
      match joined? cs with
      | some rest => lines quote turns done rest
      | none =>
        match escape cs with
        | none => none
        | some (e, cs) => lines quote turns (e :: done) cs
    else lines quote turns (c :: done) cs

/-- The line end right after an opening triple quote does not count. -/
def afterOpening : List Char → List Char
  | '\n' :: cs => cs
  | '\r' :: '\n' :: cs => cs
  | cs => cs

def string : Reader String
  | '"' :: '"' :: '"' :: cs => lines '"' (cs.length + 1) [] (afterOpening cs)
  | '\'' :: '\'' :: '\'' :: cs => lines '\'' (cs.length + 1) [] (afterOpening cs)
  | '"' :: cs => line '"' (cs.length + 1) [] cs
  | '\'' :: cs => line '\'' (cs.length + 1) [] cs
  | _ => none

/-- Digits with single underscores between them, without the underscores. -/
def plainDigits? (isDigit : Char → Bool) : List Char → Option (List Char)
  | [] => none
  | [c] => if isDigit c then some [c] else none
  | c :: '_' :: cs => if isDigit c then (plainDigits? isDigit cs).map (c :: ·) else none
  | c :: cs => if isDigit c then (plainDigits? isDigit cs).map (c :: ·) else none

def wholePart? (cs : List Char) : Option (List Char) :=
  match plainDigits? Char.isDigit cs with
  | some ('0' :: _ :: _) => none
  | ds => ds

def signedNumber? (negative : Bool) (n : Nat) : Option Value :=
  if negative then (if n ≤ Limit.bits63 then some (.int (-(n : Int))) else none)
  else if n < Limit.bits63 then some (.int n)
  else none

def radix? (base : Nat) (isDigit : Char → Bool) (cs : List Char) : Option Value :=
  (plainDigits? isDigit cs).bind fun ds =>
    signedNumber? false (ds.foldl (fun n d => n * base + hexValue d) 0)

/-- A float: digits, then a fraction or an exponent or both. -/
def float? (negative : Bool) (cs : List Char) : Option Value := do
  let (whole, rest) := cs.span fun c => c.isDigit || c = '_'
  let whole ← wholePart? whole
  let (fraction, rest) ← match rest with
    | '.' :: more =>
      let (ds, rest) := more.span fun c => c.isDigit || c = '_'
      (plainDigits? Char.isDigit ds).map (·, rest)
    | _ => some ([], rest)
  let exponent ← match rest with
    | [] => some 0
    | c :: more =>
      let (down, ds) := Decimal.sign more
      if c = 'e' || c = 'E' then
        (plainDigits? Char.isDigit ds).map fun ds =>
          let n : Int := Decimal.natural ds
          if down then -n else n
      else none
  let d := Double.ofDecimal negative (Decimal.natural (whole ++ fraction))
    (exponent - fraction.length)
  if d = .infinite false then none else some (.float d)

def number? (cs : List Char) : Option Value :=
  match cs with
  | '0' :: 'x' :: ds => radix? 16 isHex ds
  | '0' :: 'o' :: ds => radix? 8 (fun c => '0' ≤ c && c ≤ '7') ds
  | '0' :: 'b' :: ds => radix? 2 (fun c => c = '0' || c = '1') ds
  | _ =>
    let (negative, cs) := Decimal.sign cs
    if cs = "inf".toList then some (.float (.infinite negative))
    else if cs = "nan".toList then some (.float .nan)
    else match wholePart? cs with
      | some ds => signedNumber? negative (Decimal.natural ds)
      | none => float? negative cs

def pair? (limit : Nat) : Reader Nat
  | a :: b :: cs =>
    if a.isDigit && b.isDigit && Decimal.natural [a, b] ≤ limit then
      some (Decimal.natural [a, b], cs)
    else none
  | _ => none

def isLeap (y : Nat) : Bool := y % 4 == 0 && (y % 100 != 0 || y % 400 == 0)

def monthLength (y m : Nat) : Nat :=
  if m = 2 then (if isLeap y then 29 else 28)
  else if m = 4 || m = 6 || m = 9 || m = 11 then 30
  else 31

def date? : Reader (List Char)
  | a :: b :: c :: d :: '-' :: cs => do
    let year := [a, b, c, d]
    if !year.all Char.isDigit then none
    else
      let (month, rest) ← pair? 12 cs
      match rest with
      | '-' :: rest =>
        let (day, rest) ← pair? (monthLength (Decimal.natural year) month) rest
        if month = 0 || day = 0 then none
        else some (year ++ ['-'] ++ cs.take 2 ++ ['-'] ++ (cs.drop 3).take 2, rest)
      | _ => none
  | _ => none

/-- A time of the day; zeros at the end of a fraction of the second are dropped, and so is what
comes after nine places. -/
def time? : Reader (List Char) := fun cs => do
  let (_, rest) ← pair? 23 cs
  match rest with
  | ':' :: rest =>
    let (_, rest) ← pair? 59 rest
    match rest with
    | ':' :: rest =>
      let (_, rest) ← pair? 60 rest
      match rest with
      | '.' :: more =>
        let (ds, rest) := more.span Char.isDigit
        if ds.isEmpty then none
        else
          let ds := ((ds.take 9).reverse.dropWhile (· = '0')).reverse
          some (cs.take 8 ++ (if ds.isEmpty then [] else '.' :: ds), rest)
      | _ => some (cs.take 8, rest)
    | _ => none
  | _ => none

/-- The distance from universal time. -/
def offset? : Reader (List Char)
  | 'Z' :: cs | 'z' :: cs => some (['Z'], cs)
  | c :: cs =>
    if c = '+' || c = '-' then do
      let (_, rest) ← pair? 23 cs
      match rest with
      | ':' :: rest =>
        let (_, rest) ← pair? 59 rest
        some (c :: cs.take 5, rest)
      | _ => none
    else none
  | [] => none

/-- A date, a time, or both with an offset or none. -/
def moment? : Reader (List Char) := fun cs =>
  match date? cs with
  | none => time? cs
  | some (date, rest) =>
    match rest with
    | c :: more =>
      if c = 'T' || c = 't' || (c = ' ' && (more.head?.any Char.isDigit)) then
        match time? more with
        | none => none
        | some (time, rest) =>
          match offset? rest with
          | none => some (date ++ ['T'] ++ time, rest)
          | some (offset, rest) => some (date ++ ['T'] ++ time ++ offset, rest)
      else some (date, rest)
    | [] => some (date, rest)

def isWordChar (c : Char) : Bool := c.isAlphanum || c = '_' || c = '-' || c = '+' || c = '.' || c = ':'

def word : Reader Value := fun cs =>
  match moment? cs with
  | some (m, rest) => if rest.head?.any isWordChar then none else some (.text (String.ofList m), rest)
  | none =>
    let (w, rest) := cs.span isWordChar
    if w = "true".toList then some (.bool true, rest)
    else if w = "false".toList then some (.bool false, rest)
    else (number? w).map (·, rest)

end TopicQueue.Config.Toml

import TopicQueue.Config.Yaml.Scalar
import TopicQueue.Decimal.Shortest

namespace TopicQueue.Config.Yaml

def endLine? (cs : List Cell) : Option (List Cell) :=
  match skipBlank cs with
  | [] => some []
  | c :: rest =>
    if c.char = '\n' then some rest
    else if c.char = '#' && (skipBlank cs).length < cs.length then
      some ((rest.dropWhile fun d => d.char != '\n').drop 1)
    else none

/-- Passes over empty lines and comments. Tabs do not indent. -/
def skipLines : Nat → List Cell → Option (List Cell)
  | 0, cs => some cs
  | turns + 1, cs =>
    let (blanks, rest) := cs.span fun c => isBlank c.char
    match rest with
    | [] => some []
    | c :: more =>
      if c.char = '\n' then skipLines turns more
      else if c.char = '#' then skipLines turns (more.dropWhile fun d => d.char != '\n')
      else if blanks.any fun b => b.char = '\t' then none
      else some rest

def skipAll (cs : List Cell) : Option (List Cell) := skipLines (cs.length + 1) cs

def skipFlow : Nat → List Cell → List Cell
  | 0, cs => cs
  | turns + 1, cs =>
    match cs.dropWhile fun c => isSpace c.char with
    | [] => []
    | c :: rest =>
      if c.char = '#' then skipFlow turns (rest.dropWhile fun d => d.char != '\n') else c :: rest

def skipGap (cs : List Cell) : List Cell := skipFlow (cs.length + 1) cs

def keyName : Value → Option String
  | .text s => some s
  | .int i => some (toString i)
  | .bool b => some (toString b)
  | .float d => some d.text
  | .null | .list _ | .table _ => none

/-- A key on one line, with the colon behind it taken. -/
def key? : Reader String := fun cs =>
  match cs with
  | [] => none
  | c :: _ =>
    if isQuote c.char then
      match quoted cs with
      | none => none
      | some (s, rest) =>
        let taken := cs.take (cs.length - rest.length)
        let rest := skipBlank rest
        if endsKey false rest && !taken.any (·.char = '\n') then some (s, rest.drop 1) else none
    else if startsPlain false cs then
      let (done, rest) := plainLine false [] cs
      if endsKey false rest then
        ((plainValue (String.ofList done.reverse)).bind keyName).map (·, rest.drop 1)
      else none
    else none

def isItem : List Cell → Bool
  | c :: rest => c.char = '-' && spaced rest
  | [] => false

/-- How the line ends at the end of a block of text are kept. -/
inductive Chomp where
  | strip
  | clip
  | keep
  deriving DecidableEq, Repr

/-- The marks after the sign that introduces a block of text: chomping, and an indentation. -/
def blockMarks : Nat → Chomp → Option Nat → Reader (Chomp × Option Nat)
  | 0, _, _, _ => none
  | turns + 1, chomp, indent, cs =>
    match cs with
    | c :: rest =>
      if c.char = '-' then blockMarks turns .strip indent rest
      else if c.char = '+' then blockMarks turns .keep indent rest
      else if c.char.isDigit && c.char != '0' then
        blockMarks turns chomp (some (c.char.toNat - 48)) rest
      else some ((chomp, indent), cs)
    | [] => some ((chomp, indent), [])

/-- The lines of a block of text: each one's own text, without its indentation. -/
def blockLines (around : Int) : Nat → Option Nat → List String → List Cell → List String × List Cell
  | 0, _, done, cs => (done.reverse, cs)
  | turns + 1, indent, done, cs =>
    match cs with
    | [] => (done.reverse, [])
    | _ =>
      let (spaces, rest) := cs.span fun c => c.char = ' '
      match rest with
      | [] => (done.reverse, [])
      | c :: more =>
        let enough := match indent with
          | some n => n ≤ c.column
          | none => around < c.column
        if c.char = '\n' then
          let extra := match indent with
            | some n => spaces.length - n
            | none => 0
          blockLines around turns indent (String.ofList (List.replicate extra ' ') :: done) more
        else if !enough then (done.reverse, cs)
        else
          let n := indent.getD c.column
          let (words, rest) := rest.span fun d => d.char != '\n'
          let line := String.ofList (List.replicate (c.column - n) ' ' ++ words.map (·.char))
          blockLines around turns (some n) (line :: done) (rest.drop 1)

/-- Folds the lines of a block of text: a line end between two lines that are not indented further
is a space, and the empty lines after it stand for themselves. -/
def foldLines : List String → String
  | [] => ""
  | [l] => l
  | l :: m :: rest =>
    let more (s : String) : Bool := s.startsWith " " || s.startsWith "\t"
    if l = "" then "\n" ++ foldLines (m :: rest)
    else if m = "" then
      let empties := (m :: rest).takeWhile (· = "")
      let after := (m :: rest).dropWhile (· = "")
      let ends := String.ofList (List.replicate empties.length '\n')
      if more l || (after.head?.any more) then l ++ "\n" ++ foldLines (m :: rest)
      else l ++ ends ++ foldLines after
    else if more l || more m then l ++ "\n" ++ foldLines (m :: rest)
    else l ++ " " ++ foldLines (m :: rest)
termination_by ls => ls.length
decreasing_by
  all_goals simp_wf
  all_goals
    have h := (List.dropWhile_suffix (l := m :: rest) (· = "")).length_le
    simp at h
    try omega

def block (folded : Bool) (around : Int) : Reader String := fun cs =>
  match blockMarks 3 .clip none cs with
  | none => none
  | some ((chomp, indent), rest) =>
    match endLine? rest with
    | none => none
    | some rest =>
      let base : Option Nat := indent.map fun n => (max around 0).toNat + n
      let (ls, rest) := blockLines around (rest.length + 1) base [] rest
      let empties := (ls.reverse.takeWhile (· = "")).length
      let body := ls.take (ls.length - empties)
      let text := if folded then foldLines body else "\n".intercalate body
      let ending := match chomp with
        | .strip => ""
        | .clip => if body.isEmpty then "" else "\n"
        | .keep => String.ofList (List.replicate (if body.isEmpty then empties else empties + 1) '\n')
      some (text ++ ending, rest)

/-- The entry that a key and a value make, unless the key is there already. -/
def entry? (done : Entries) (k : String) (v : Value) : Option Entries :=
  if (Entries.look done k).isSome then none else some (done ++ [(k, v)])

mutual

/-- A node in brackets. -/
def flow (around : Int) : Nat → Reader Value
  | 0, _ => none
  | turns + 1, cs =>
    match cs with
    | [] => none
    | c :: rest =>
      if c.char = '[' then flowItems around turns [] (skipGap rest)
      else if c.char = '\x7b' then flowEntries around turns [] (skipGap rest)
      else if isQuote c.char then (quoted cs).map fun (s, rest) => (.text s, rest)
      else if startsPlain true cs then
        match plain true around (cs.length + 1) [] cs with
        | none => none
        | some (s, rest) => (plainValue s).map (·, rest)
      else none

/-- The rest of a sequence in brackets. An item may be a pair of key and value. -/
def flowItems (around : Int) : Nat → List Value → Reader Value
  | 0, _, _ => none
  | turns + 1, done, cs =>
    match cs with
    | [] => none
    | c :: rest =>
      if c.char = ']' then some (.list done.reverse, rest)
      else
        match flow around turns cs with
        | none => none
        | some (v, rest) =>
          let rest := skipGap rest
          let pair? : Option (Value × List Cell) :=
            if endsKey true rest then
              match keyName v, flowValue around turns (skipGap (rest.drop 1)) with
              | some k, some (w, rest) => some (.table [(k, w)], rest)
              | _, _ => none
            else some (v, rest)
          match pair? with
          | none => none
          | some (v, rest) =>
            match skipGap rest with
            | d :: rest =>
              if d.char = ',' then flowItems around turns (v :: done) (skipGap rest)
              else if d.char = ']' then some (.list (v :: done).reverse, rest)
              else none
            | [] => none

def flowValue (around : Int) : Nat → Reader Value
  | 0, _ => none
  | turns + 1, cs =>
    match cs with
    | [] => none
    | c :: _ =>
      if [',', ']', '\x7d'].contains c.char then some (.null, cs) else flow around turns cs

/-- The rest of a mapping in brackets. A key may stand alone. -/
def flowEntries (around : Int) : Nat → Entries → Reader Value
  | 0, _, _ => none
  | turns + 1, done, cs =>
    match cs with
    | [] => none
    | c :: rest =>
      if c.char = '\x7d' then some (.table done, rest)
      else
        match flow around turns cs with
        | none => none
        | some (k, rest) =>
          let rest := skipGap rest
          let colon := match rest with
            | d :: _ => d.char = ':' && (endsKey true rest || isQuote c.char)
            | [] => false
          let value? : Option (Value × List Cell) :=
            if colon then flowValue around turns (skipGap (rest.drop 1)) else some (.null, rest)
          match keyName k, value? with
          | some k, some (v, rest) =>
            match entry? done k v, skipGap rest with
            | some done, d :: rest =>
              if d.char = ',' then flowEntries around turns done (skipGap rest)
              else if d.char = '\x7d' then some (.table done, rest)
              else none
            | _, _ => none
          | _, _ => none

end

/-- A node on the line of its key: everything but a mapping or sequence by indentation. -/
def onLine (around : Int) : Reader Value := fun cs =>
  match cs with
  | [] => none
  | c :: rest =>
    if c.char = '|' || c.char = '>' then
      (block (c.char = '>') around rest).map fun (s, rest) => (.text s, rest)
    else if c.char = '[' || c.char = '\x7b' || isQuote c.char then
      match flow around (2 * cs.length + 2) cs with
      | none => none
      | some (v, rest) => (endLine? rest).map (v, ·)
    else if startsPlain false cs then
      match plain false around (cs.length + 1) [] cs with
      | none => none
      | some (s, rest) =>
        match plainValue s, endLine? rest with
        | some v, some rest => some (v, rest)
        | _, _ => none
    else none

mutual

/-- A node by indentation, which has to be deeper than `around`; a sequence under a key may also
stand right below it. -/
def node (around : Int) (underKey : Bool) : Nat → Reader Value
  | 0, _ => none
  | turns + 1, cs =>
    match skipAll cs with
    | none => none
    | some [] => some (.null, [])
    | some (c :: rest) =>
      let cs := c :: rest
      let column : Int := c.column
      if isDocumentMark cs then some (.null, cs)
      else if column < around || (column = around && !(underKey && isItem cs)) then some (.null, cs)
      else if isItem cs then items c.column turns [] cs
      else if (key? cs).isSome then entries c.column turns [] cs
      else onLine around cs

/-- The items of a sequence at a column. -/
def items (column : Nat) : Nat → List Value → Reader Value
  | 0, _, _ => none
  | turns + 1, done, cs =>
    match skipAll cs with
    | none => none
    | some cs =>
      match cs with
      | c :: rest =>
        if c.column = column && isItem cs && !isDocumentMark cs then
          match node column false turns rest with
          | none => none
          | some (v, rest) => items column turns (v :: done) rest
        else if column < c.column && !isDocumentMark cs then none
        else some (.list done.reverse, cs)
      | [] => some (.list done.reverse, [])

/-- The entries of a mapping at a column. -/
def entries (column : Nat) : Nat → Entries → Reader Value
  | 0, _, _ => none
  | turns + 1, done, cs =>
    match skipAll cs with
    | none => none
    | some cs =>
      match cs with
      | c :: _ =>
        if isDocumentMark cs || c.column < column then some (.table done, cs)
        else if column < c.column then none
        else
          match key? cs with
          | none => none
          | some (k, rest) =>
            let value? :=
              match endLine? rest with
              | some below => node column true turns below
              | none => onLine column (skipBlank rest)
            match value? with
            | none => none
            | some (v, rest) =>
              match entry? done k v with
              | none => none
              | some done => entries column turns done rest
      | [] => some (.table done, [])

end

def afterMark (cs : List Cell) : List Cell := cs.drop 3

/-- The only document, if there is one. -/
def document? (cs : List Cell) : Option (Option Value) :=
  match skipAll cs with
  | none => none
  | some [] => some none
  | some cs =>
    let started := isDocumentMark cs
    let cs := if started then afterMark cs else cs
    match node (-1) false (2 * cs.length + 2) cs with
    | none => none
    | some (v, rest) =>
      match skipAll rest with
      | some [] => some (some v)
      | some rest =>
        if isDocumentMark rest && (rest.head?.any (·.char = '.')) then
          match skipAll (afterMark rest) with
          | some [] => some (some v)
          | _ => none
        else none
      | none => none

/-- The entries of a text, which is a mapping or has no document. -/
def parse (cs : List Char) : Option Entries :=
  match document? (cells cs) with
  | some none => some []
  | some (some (.table es)) => some es
  | _ => none

end TopicQueue.Config.Yaml

import TopicQueue.Config.Toml.Scalar

namespace TopicQueue.Config.Toml

/-- How a table came to be. -/
inductive Origin where
  /-- On the way to another table. -/
  | implied
  /-- As the front part of a dotted key. -/
  | dotted
  | header
  deriving DecidableEq, Repr

inductive Node where
  | leaf (value : Value)
  | table (origin : Origin) (entries : List (String × Node))
  /-- An array of tables, of which the last one is open. -/
  | tables (items : List (List (String × Node)))

abbrev Nodes := List (String × Node)

mutual

def Node.value : Node → Value
  | .leaf v => v
  | .table _ es => .table (entryValues es)
  | .tables items => .list (itemValues items)

def entryValues : List (String × Node) → Entries
  | [] => []
  | (k, n) :: rest => (k, n.value) :: entryValues rest

def itemValues : List (List (String × Node)) → List Value
  | [] => []
  | es :: rest => .table (entryValues es) :: itemValues rest

end

namespace Nodes

def look : Nodes → String → Option Node
  | [], _ => none
  | (k, n) :: rest, key => if k = key then some n else look rest key

def set (key : String) (n : Node) : Nodes → Nodes
  | [] => []
  | (k, m) :: rest => if k = key then (k, n) :: rest else (k, m) :: set key n rest

def unsnoc (items : List Nodes) : List Nodes × Nodes := (items.dropLast, items.getLast?.getD [])

/-- Changes the table that headers lead to. -/
def within : List String → (Nodes → Option Nodes) → Nodes → Option Nodes
  | [], f, es => f es
  | k :: path, f, es =>
    match look es k with
    | none => (within path f []).map fun sub => es ++ [(k, .table .implied sub)]
    | some (.table origin sub) => (within path f sub).map fun sub => set k (.table origin sub) es
    | some (.tables items) =>
      let (others, last) := unsnoc items
      (within path f last).map fun last => set k (.tables (others ++ [last])) es
    | some (.leaf _) => none

/-- A table by its header. -/
def define (key : String) (es : Nodes) : Option Nodes :=
  match look es key with
  | none => some (es ++ [(key, .table .header [])])
  | some (.table .implied sub) => some (set key (.table .header sub) es)
  | some _ => none

/-- One more table of an array. -/
def extend (key : String) (es : Nodes) : Option Nodes :=
  match look es key with
  | none => some (es ++ [(key, .tables [[]])])
  | some (.tables items) => some (set key (.tables (items ++ [[]])) es)
  | some _ => none

def add (key : String) (v : Value) : List String → Nodes → Option Nodes
  | [], es => if (look es key).isSome then none else some (es ++ [(key, .leaf v)])
  | k :: path, es =>
    match look es k with
    | none => (add key v path []).map fun sub => es ++ [(k, .table .dotted sub)]
    | some (.table origin sub) =>
      if origin = .header || (path.isEmpty && origin != .dotted) then none
      else (add key v path sub).map fun sub => set k (.table origin sub) es
    | some (.tables items) =>
      let (others, last) := unsnoc items
      if path.isEmpty then none
      else (add key v path last).map fun last => set k (.tables (others ++ [last])) es
    | some (.leaf _) => none

end Nodes

def skipBlank (cs : List Char) : List Char := cs.dropWhile isBlank

def isBareChar (c : Char) : Bool := c.isAlphanum || c = '_' || c = '-'

def simpleKey : Reader String := fun cs =>
  match cs with
  | '"' :: cs => line '"' (cs.length + 1) [] cs
  | '\'' :: cs => line '\'' (cs.length + 1) [] cs
  | _ =>
    match cs.span isBareChar with
    | ([], _) => none
    | (n, rest) => some (String.ofList n, rest)

/-- Names with dots between them: the front ones and the last one. -/
def key : Nat → Reader (List String × String)
  | 0, _ => none
  | turns + 1, cs =>
    match simpleKey (skipBlank cs) with
    | none => none
    | some (n, rest) =>
      match skipBlank rest with
      | '.' :: rest => (key turns rest).map fun ((path, last), rest) => ((n :: path, last), rest)
      | rest => some (([], n), rest)

def comment? (cs : List Char) : Option (List Char) :=
  match cs with
  | '#' :: rest =>
    let (words, rest) := rest.span fun c => c != '\n' && c != '\r'
    if words.any isControl then none else some rest
  | cs => some cs

def lineEnd? : List Char → Option (List Char)
  | '\n' :: cs => some cs
  | '\r' :: '\n' :: cs => some cs
  | _ => none

def skipLines : Nat → List Char → Option (List Char)
  | 0, cs => some cs
  | turns + 1, cs =>
    match comment? (skipBlank cs) with
    | none => none
    | some rest =>
      match lineEnd? rest with
      | some rest => skipLines turns rest
      | none => some rest

def skipAll (cs : List Char) : Option (List Char) := skipLines (cs.length + 1) cs

mutual

/-- A value. Each turn takes a character at least. -/
def value : Nat → Reader Value
  | 0, _ => none
  | turns + 1, cs =>
    match cs with
    | '[' :: rest => items turns [] rest
    | '\x7b' :: rest => inline turns true [] rest
    | c :: _ => if c = '"' || c = '\'' then (string cs).map fun (s, rest) => (.text s, rest) else word cs
    | [] => none

/-- The rest of an array, whose items may stand on lines of their own. -/
def items : Nat → List Value → Reader Value
  | 0, _, _ => none
  | turns + 1, done, cs =>
    match skipAll cs with
    | none => none
    | some (']' :: rest) => some (.list done.reverse, rest)
    | some cs =>
      match value turns cs with
      | none => none
      | some (v, rest) =>
        match skipAll rest with
        | some (',' :: rest) => items turns (v :: done) rest
        | some (']' :: rest) => some (.list (v :: done).reverse, rest)
        | _ => none

def inline : Nat → Bool → Nodes → Reader Value
  | 0, _, _, _ => none
  | turns + 1, first, done, cs =>
    match skipBlank cs with
    | '\x7d' :: rest => if first then some (.table (entryValues done), rest) else none
    | cs =>
      match key (cs.length + 1) cs with
      | some ((path, last), '=' :: rest) =>
        match value turns (skipBlank rest) with
        | none => none
        | some (v, rest) =>
          match done.add last v path with
          | none => none
          | some done =>
            match skipBlank rest with
            | ',' :: rest => inline turns false done rest
            | '\x7d' :: rest => some (.table (entryValues done), rest)
            | _ => none
      | _ => none

end

/-- A document under construction, and the path of the header that is in force. -/
structure Draft where
  root : Nodes := []
  path : List String := []

def header (double : Bool) (d : Draft) : Reader Draft := fun cs =>
  match key (cs.length + 1) cs with
  | none => none
  | some ((path, last), rest) =>
    let rest? := match double, rest with
      | true, ']' :: ']' :: rest => some rest
      | false, ']' :: rest => some rest
      | _, _ => none
    rest?.bind fun rest =>
      (d.root.within path (if double then Nodes.extend last else Nodes.define last)).map fun root =>
        (⟨root, path ++ [last]⟩, rest)

def assignment (d : Draft) : Reader Draft := fun cs =>
  match key (cs.length + 1) cs with
  | some ((path, last), '=' :: rest) =>
    match value (rest.length + 1) (skipBlank rest) with
    | none => none
    | some (v, rest) => (d.root.within d.path (Nodes.add last v path)).map (⟨·, d.path⟩, rest)
  | _ => none

def statement (d : Draft) : Reader Draft
  | '[' :: '[' :: cs => header true d cs
  | '[' :: cs => header false d cs
  | cs => assignment d cs

/-- Statements on lines of their own. -/
def statements : Nat → Draft → List Char → Option Draft
  | 0, _, _ => none
  | turns + 1, d, cs =>
    match skipAll cs with
    | none => none
    | some [] => some d
    | some cs =>
      match statement d cs with
      | none => none
      | some (d, rest) =>
        match comment? (skipBlank rest) with
        | none => none
        | some [] => some d
        | some rest =>
          match lineEnd? rest with
          | none => none
          | some rest => statements turns d rest

def parse (cs : List Char) : Option Entries :=
  (statements (cs.length + 1) {} cs).map fun d => entryValues d.root

end TopicQueue.Config.Toml

import TopicQueue.Bytes

namespace TopicQueue

structure Place where
  /-- It starts at the root of all files, not at the directory that work is done in. -/
  absolute : Bool
  names : List String
  deriving DecidableEq, Repr

namespace Place

/-- Goes along the names of a path: an empty one and `.` stay, `..` goes back. -/
def walk (back : List String) : List String → List String
  | [] => back.reverse
  | n :: rest =>
    if n = "" || n = "." then walk back rest
    else if n = ".." then walk back.tail rest
    else walk (n :: back) rest

def ofPath (path : String) : Place := ⟨path.startsWith "/", walk [] (path.splitOn "/")⟩

def isBelow (p q : Place) : Bool :=
  p.absolute == q.absolute && q.names.isPrefixOf p.names && q.names.length < p.names.length

end Place

/-- Regular files with their contents, under their paths. -/
abbrev Files := List (String × Bytes)

def Files.read (files : Files) (path : String) : Option Bytes :=
  let place := Place.ofPath path
  (files.find? fun f => Place.ofPath f.1 == place).map (·.2)

end TopicQueue

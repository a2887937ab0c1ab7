import TopicQueue.Store.Entry
import TopicQueue.Table

namespace TopicQueue

inductive StoreError where
  | nothingClaimed (topic : String)
  | closed
  | backend (reason : String)
  | codec (flaw : Json.Flaw)
  deriving DecidableEq, Repr

def StoreError.message : StoreError → String
  | .nothingClaimed topic => "no claimed message for topic " ++ topic
  | .closed => "store is closed"
  | .backend reason => "storage backend error: " ++ reason
  | .codec _ => "stored entry could not be decoded: <json>"

/-- Values in the order of their keys. -/
abbrev Tree := List (Nat × Bytes)

namespace Tree

def insert (key : Nat) (value : Bytes) : Tree → Tree
  | [] => [(key, value)]
  | (k, v) :: rest =>
    if key < k then (key, value) :: (k, v) :: rest
    else if key = k then (key, value) :: rest
    else (k, v) :: insert key value rest

def first? (t : Tree) : Option (Nat × Bytes) := t.head?

def remove (key : Nat) (t : Tree) : Tree := t.filter (·.1 != key)

end Tree

structure Store where
  flushOnInsert : Bool := false
  closed : Bool := false
  nextKey : Nat := 0
  trees : Table String Tree := []
  /-- The key of the claimed entry, for the topics that have one. -/
  claims : Table String Nat := []
  deriving Repr

namespace Store

def tree (s : Store) (topic : String) : Tree := (s.trees.look topic).getD []

def claim? (s : Store) (topic : String) : Option Nat := s.claims.look topic

/-- Puts a value behind all others of its topic. -/
def append (s : Store) (topic : String) (value : Bytes) : Store :=
  { s with
    nextKey := s.nextKey + 1
    trees := s.trees.put topic ((s.tree topic).insert s.nextKey value) }

def insert (s : Store) (topic : String) (payload : Bytes) (now : Int) : Except StoreError Store :=
  if s.closed then .error .closed
  else .ok (s.append topic (StoredEntry.encode ⟨payload, now⟩))

/-- Claims the first entry, unless the topic is empty or has a claim already. An entry that does
not decode stays where it is, unclaimed. -/
def fetchNext (s : Store) (topic : String) : Except StoreError (Option Bytes × Store) :=
  if s.closed then .error .closed
  else match s.claim? topic with
    | some _ => .ok (none, s)
    | none =>
      match (s.tree topic).first? with
      | none => .ok (none, s)
      | some (key, value) =>
        match StoredEntry.decode value with
        | .error flaw => .error (.codec flaw)
        | .ok entry => .ok (some entry.payload, { s with claims := s.claims.put topic key })

/-- Removes the claimed entry for good. -/
def commit (s : Store) (topic : String) : Except StoreError Store :=
  if s.closed then .error .closed
  else match s.claim? topic with
    | none => .error (.nothingClaimed topic)
    | some key =>
      .ok { s with
        trees := s.trees.put topic ((s.tree topic).remove key)
        claims := s.claims.remove topic }

/-- Releases the claim. The entry never left the front. -/
def requeue (s : Store) (topic : String) : Except StoreError Store :=
  if s.closed then .error .closed
  else match s.claim? topic with
    | none => .error (.nothingClaimed topic)
    | some _ => .ok { s with claims := s.claims.remove topic }

def close (s : Store) : Store := { s with closed := true }

/-- Entries of a topic, the claimed one included. -/
def size (s : Store) (topic : String) : Except StoreError Nat :=
  if s.closed then .error .closed else .ok (s.tree topic).length

/-- The same files opened anew: entries stay, claims are gone. -/
def reopen (s : Store) (flushOnInsert : Bool) : Store :=
  { s with flushOnInsert, closed := false, claims := [] }

def describe (s : Store) : String :=
  "SledStore \x7b db: \"sled::Db\", flush_on_insert: " ++ toString s.flushOnInsert ++ " \x7d"

end Store

end TopicQueue

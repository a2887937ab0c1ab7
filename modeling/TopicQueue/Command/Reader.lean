import TopicQueue.Command
import TopicQueue.Json.Record

namespace TopicQueue

inductive ReadError where
  /-- The transport failed; the peer is gone. -/
  | lost (reason : String)
  | json (flaw : Json.Flaw)
  | truncated
  | tooLong (limit : Nat)
  | closed
  deriving DecidableEq, Repr

namespace ReadError

/-- What stands for the reader's own words, which nobody compares. -/
def jsonReason : String := "<json>"

def message : ReadError → String
  | .lost reason => "transport read failed: " ++ reason
  | .json _ => "malformed command: " ++ jsonReason
  | .truncated => "request body ended inside a command"
  | .tooLong limit => "command longer than " ++ toString limit ++ " bytes"
  | .closed => "response stream closed"

/-- The client went away, rather than sent something unreadable. -/
def isDisconnect : ReadError → Bool
  | .lost _ | .closed => true
  | _ => false

end ReadError

namespace Command

/-- The longest command, quotes included. -/
def maxBytes : Nat := 1024

/-- Blanks between commands: those of JSON and the form feed. -/
def isSpace (b : UInt8) : Bool := b == 0x20 || b == 0x09 || b == 0x0A || b == 0x0C || b == 0x0D

/-- The next command, if the buffer holds it whole, and the buffer after it. -/
def decode (buffer : Bytes) : Except ReadError (Option Command) × Bytes :=
  let bs := buffer.dropWhile isSpace
  match bs with
  | [] => (.ok none, [])
  | b :: rest =>
    let answer := if b = Json.quote then Json.readText rest else .error (Json.unwanted bs)
    match answer with
    | .ok (s, after) =>
      if maxBytes < bs.length - after.length then (.error (.tooLong maxBytes), bs)
      else (.ok (some (.ofText s)), after)
    | .error .unfinished =>
      if maxBytes < bs.length then (.error (.tooLong maxBytes), bs) else (.ok none, bs)
    | .error flaw => (.error (.json flaw), bs)

/-- The same where no more input comes: what is left has to be blank. -/
def decodeLast (buffer : Bytes) : Except ReadError (Option Command) × Bytes :=
  match decode buffer with
  | (.ok none, rest) => if rest.all isSpace then (.ok none, rest) else (.error .truncated, rest)
  | answer => answer

end Command

end TopicQueue

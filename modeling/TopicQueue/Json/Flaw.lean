namespace TopicQueue.Json

inductive Flaw where
  /-- The input ended inside a value. -/
  | unfinished
  /-- The input is no JSON, or goes on after the value. -/
  | malformed
  /-- The value is of another type, out of range, or lacks a field or repeats one. -/
  | mistyped
  deriving DecidableEq, Repr

def Flaw.category : Flaw → String
  | .unfinished => "eof"
  | .malformed => "syntax"
  | .mistyped => "data"

end TopicQueue.Json

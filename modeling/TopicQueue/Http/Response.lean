import TopicQueue.Frame

namespace TopicQueue

structure Response where
  status : Nat
  contentType : Option String := none
  /-- The methods that the path knows, where another one was asked for. -/
  allow : Option String := none
  body : String := ""
  deriving DecidableEq, Repr

namespace Response

def jsonType : String := "application/json"

def ofError (status : Nat) (e : ClientError) : Response :=
  { status, contentType := some jsonType, body := e.body.render }

def badRequest (e : ClientError) : Response := ofError 400 e

def internal (e : ClientError) : Response := ofError 500 e

end Response

end TopicQueue

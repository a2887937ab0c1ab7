import TopicQueue.Base64
import TopicQueue.Json.Quote
import TopicQueue.Json.Record

namespace TopicQueue

inductive ClientError where
  | invalidTopic
  | readBody
  | publish
  | nextValue
  | ack
  | nack
  | decodingCommand
  | unrecognisedCommand
  deriving DecidableEq, Repr

def ClientError.message : ClientError → String
  | .invalidTopic => "invalid topic value"
  | .readBody => "error reading the request body"
  | .publish => "error publishing to broker"
  | .nextValue => "error getting next value for consumer"
  | .ack => "error ACKing message"
  | .nack => "error NACKing message"
  | .decodingCommand => "error decoding command"
  | .unrecognisedCommand => "unrecognised command received"

/-- What clients read, by which they tell the errors apart. -/
theorem ClientError.message_iff (e : ClientError) (text : String) : e.message = text ↔ (e, text) ∈ [
    (invalidTopic, "invalid topic value"),
    (readBody, "error reading the request body"),
    (publish, "error publishing to broker"),
    (nextValue, "error getting next value for consumer"),
    (ack, "error ACKing message"),
    (nack, "error NACKing message"),
    (decodingCommand, "error decoding command"),
    (unrecognisedCommand, "unrecognised command received")] := by
  cases e <;> simp [message, eq_comm]

theorem ClientError.message_injective : Function.Injective message := by
  intro e e'
  cases e <;> cases e' <;> decide

structure ErrorBody where
  error : String
  deriving DecidableEq, Repr

namespace ErrorBody

def render (b : ErrorBody) : String := "\x7b\"error\":" ++ Json.literal b.error ++ "\x7d"

def fields : List (Json.RecordField (Option String)) :=
  [⟨"error", Option.isSome, fun _ bs => (Json.string bs).map fun (s, rest) => (some s, rest)⟩]

def reader : Json.Reader ErrorBody := Json.record fields none (·.map ErrorBody.mk)

def parse (bs : Bytes) : Except Json.Flaw ErrorBody := Json.whole reader bs

end ErrorBody

def ClientError.body (e : ClientError) : ErrorBody := ⟨e.message⟩

/-- There is nothing to escape in a text of these. -/
theorem ClientError.render_body (e : ClientError) :
    e.body.render = "\x7b\"error\":\"" ++ e.message ++ "\"\x7d" := by
  cases e <;> decide +kernel

inductive Frame where
  | message (payload : Bytes)
  | error (text : String)
  deriving DecidableEq, Repr

namespace Frame

def ofError (e : ClientError) : Frame := .error e.message

def json : Frame → String
  | .message payload => Json.literal (Base64.encode payload)
  | .error text => (ErrorBody.mk text).render

def line (f : Frame) : String := f.json ++ "\n"

end Frame

end TopicQueue

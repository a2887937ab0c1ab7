import TopicQueue.Command.Inlet
import TopicQueue.Http.Response
import TopicQueue.Logging.Level
import TopicQueue.Roster
import TopicQueue.Store.Fault
import TopicQueue.Text.Quoted

namespace TopicQueue

/-- What a broker can answer a consumer besides a result. -/
inductive BrokerError where
  | store (error : StoreError)
  | cancelled
  | nothingClaimed
  | alreadyHolding
  deriving DecidableEq, Repr

def BrokerError.message : BrokerError → String
  | .store e => e.message
  | .cancelled => "request context cancelled"
  | .nothingClaimed => "consumer does not hold a claimed message"
  | .alreadyHolding => "consumer already holds an unacknowledged message"

def BrokerError.isCancelled : BrokerError → Bool
  | .cancelled => true
  | _ => false

/-- Consumers, and the tasks that run for them, go by number. -/
abbrev ConsumerId := Nat

inductive Intake where
  | ended
  | failed (error : ReadError)
  | command (command : Command)
  deriving DecidableEq, Repr

inductive Note where
  -- the store
  /-- An operation was called, and failed if there is an error. -/
  | called (call : StoreCall) (topic : String) (failure : Option StoreError)
  | stored (topic : String) (payload : Bytes)
  | committed (consumer : ConsumerId) (topic : String)
  | requeued (consumer : ConsumerId) (topic : String)
  -- the registry and its wakes
  | registered (consumer : ConsumerId) (topic : String)
  | deregistered (consumer : ConsumerId) (topic : String)
  | unheard (topic : String) (reason : WakeReason)
  | unwanted (topic : String) (reason : WakeReason)
  | woke (consumer : ConsumerId) (topic : String) (reason : WakeReason)
  -- a consumer
  | claimed (consumer : ConsumerId) (topic : String) (payload : Bytes)
  | woken (consumer : ConsumerId) (topic : String)
  | returned (consumer : ConsumerId) (result : Except BrokerError Bytes)
  | releaseRequeued (consumer : ConsumerId) (topic : String)
  | releaseFailed (consumer : ConsumerId) (topic : String) (error : BrokerError)
  -- a session
  | took (consumer : ConsumerId) (intake : Intake)
  | disconnected (error : Option ReadError)
  | undecodable (error : ReadError)
  | obeying (command : Command)
  | settleFailed (command : Command) (error : BrokerError)
  | nextFailed (error : BrokerError)
  | waitCancelled
  | wrote (consumer : ConsumerId) (frame : Frame)
  | wroteMessage (command : Command) (size : Nat)
  | writeFailed
  | returnedInFlight
  | returnFailed (error : BrokerError)
  | finished (consumer : ConsumerId)
  | ended (consumer : ConsumerId)
  -- a request, by the number of its task
  | publishing
  | subscribing
  | invalidTopic
  | bodyUnreadable (reason : String)
  | publishFailed (error : BrokerError)
  | published (size : Nat)
  | answered (request : Nat) (response : Response)
  | streamed (request : Nat) (consumer : ConsumerId)

namespace Note

/-- What stands for a consumer's number, which is drawn at random. -/
def anyId : String := "<id>"

private def field (name value : String) : String := " " ++ name ++ "=" ++ value

private def about (topic : String) : String :=
  field "consumer" anyId ++ field "topic" topic

/-- The log line of a note, if it has one: its level and its words. -/
def line? : Note → Option (Level × String)
  | stored topic _ =>
    some (.debug, "stored entry" ++ field "topic" (Text.quoted topic) ++ field "id" "<n>")
  | registered _ topic => some (.debug, "consumer registered" ++ about (Text.quoted topic))
  | deregistered _ topic => some (.debug, "consumer deregistered" ++ about (Text.quoted topic))
  | unheard topic reason =>
    some (.trace, "no consumers registered, wake dropped" ++ field "topic" (Text.quoted topic) ++
      field "event" reason.text)
  | unwanted topic reason =>
    some (.trace, "no waiting consumer, wake dropped" ++ field "topic" topic ++
      field "event" reason.text)
  | woke _ topic reason => some (.trace, "woke consumer" ++ about topic ++ field "event" reason.text)
  | claimed _ topic _ => some (.debug, "claimed message" ++ about topic)
  | woken _ topic => some (.debug, "woken" ++ about topic)
  | releaseRequeued _ topic =>
    some (.warn, "requeued unacknowledged message on release" ++ about topic)
  | releaseFailed _ topic error =>
    some (.error, "failed to requeue message on release" ++ about topic ++
      field "error" error.message)
  | disconnected none => some (.warn, "client disconnected")
  | disconnected (some error) => some (.warn, "client disconnected" ++ field "error" error.message)
  | undecodable error => some (.error, "failed decoding command" ++ field "error" error.message)
  | obeying .init => some (.debug, "initialising consumer" ++ field "cmd" Command.init.text)
  | obeying .ack => some (.debug, "ACKing message" ++ field "cmd" Command.ack.text)
  | obeying .nack => some (.debug, "NACKing message" ++ field "cmd" Command.nack.text)
  | obeying (.unknown text) => some (.warn, "unrecognised command received" ++ field "cmd" text)
  | settleFailed command error =>
    some (.error, "failed to settle message" ++ field "cmd" command.text ++
      field "error" error.message)
  | nextFailed error =>
    some (.error, "failed to get next value for topic" ++ field "error" error.message)
  | waitCancelled => some (.info, "client disconnected while waiting for message")
  | wroteMessage command size =>
    some (.debug, "written message to client" ++ field "cmd" command.text ++
      field "bytes" (toString size))
  | writeFailed =>
    some (.warn, "failed writing frame to client" ++ field "error" ReadError.closed.message)
  | returnedInFlight => some (.info, "returned in-flight message to the queue")
  | returnFailed error => some (.error, "failed to nack" ++ field "error" error.message)
  | finished _ => some (.debug, "subscription finished" ++ field "consumer" anyId)
  | publishing => some (.info, "publishing to topic")
  | subscribing => some (.info, "subscribing to topic")
  | invalidTopic => some (.debug, "invalid topic in path")
  | bodyUnreadable reason => some (.error, "failed reading request body" ++ field "error" reason)
  | publishFailed error =>
    some (.error, "failed to publish to broker" ++ field "error" error.message)
  | published size =>
    some (.debug, "successfully published to topic" ++ field "bytes" (toString size))
  | called .. | committed .. | requeued .. | returned .. | took .. | wrote .. | ended _ |
    answered .. | streamed .. => none

end Note

/-- The request on whose behalf something happens. Its topic is not known at first. -/
structure RequestSpan where
  handler : String
  topic : Option String
  deriving DecidableEq, Repr

def RequestSpan.text (s : RequestSpan) : String :=
  let topic := match s.topic with
    | none => ""
    | some t => " topic=" ++ Text.quoted t
  "request\x7brequest_id=" ++ Note.anyId ++ " handler=" ++ Text.quoted s.handler ++ topic ++ "\x7d"

structure Journal.Entry where
  span : Option RequestSpan
  note : Note

abbrev Journal := List Journal.Entry

def Journal.Entry.line? (e : Journal.Entry) : Option String :=
  e.note.line?.map fun (level, words) =>
    let span := match e.span with
      | none => ""
      | some s => s.text ++ ": "
    level.text ++ " " ++ span ++ words

end TopicQueue

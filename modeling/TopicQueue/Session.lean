import TopicQueue.Broker.Consumer

namespace TopicQueue

inductive Position where
  | reading
  /-- The answer to this command waits for a message. -/
  | awaiting (command : Command)
  deriving DecidableEq, Repr

structure Session where
  inlet : Inlet
  position : Position := .reading
  /-- Nothing that is written arrives any more. -/
  deaf : Bool := false
  span : Option RequestSpan := none

namespace Session

/-- Writes a frame; not so to a client that cannot be reached. -/
def write (deaf : Bool) (b : Broker) (id : ConsumerId) (f : Frame) : Bool × Broker :=
  if deaf then (false, b.note .writeFailed) else (true, b.note (.wrote id f))

def putBack (b : Broker) (id : ConsumerId) : Broker :=
  match b.settle id .nack with
  | (.ok (), b) => b.note .returnedInFlight
  | (.error .nothingClaimed, b) => b
  | (.error e, b) => b.note (.returnFailed e)

/-- Writes a frame after which the session goes on, if it arrives. -/
def answer (deaf : Bool) (b : Broker) (id : ConsumerId) (f : Frame) : Bool × Broker :=
  match write deaf b id f with
  | (true, b) => (true, b)
  | (false, b) => (false, putBack b id)

/-- Answers a command with what its call for a message gave. Whether the session goes on comes
with it. -/
def conclude (deaf : Bool) (b : Broker) (id : ConsumerId) (command : Command) :
    Except BrokerError Bytes → Bool × Broker
  | .ok payload =>
    match answer deaf b id (.message payload) with
    | (true, b) => (true, b.note (.wroteMessage command payload.length))
    | (false, b) => (false, b)
  | .error .cancelled => (false, b.note .waitCancelled)
  | .error e => (false, (write deaf (b.note (.nextFailed e)) id (.ofError .nextValue)).2)

/-- What a command does to the message at hand, and the error that a failure is answered with. -/
def verdict? : Command → Option (Verdict × ClientError)
  | .ack => some (.ack, .ack)
  | .nack => some (.nack, .nack)
  | .init | .unknown _ => none

inductive Turn where
  | goOn
  | wait
  | stop
  deriving DecidableEq, Repr

def demand (deaf : Bool) (b : Broker) (id : ConsumerId) (command : Command) : Turn × Broker :=
  match b.begin id with
  | (none, b) => (.wait, b)
  | (some result, b) =>
    match conclude deaf b id command result with
    | (true, b) => (.goOn, b)
    | (false, b) => (.stop, b)

def obey (deaf : Bool) (b : Broker) (id : ConsumerId) (command : Command) : Turn × Broker :=
  let b := b.note (.obeying command)
  match command with
  | .unknown _ =>
    match answer deaf b id (.ofError .unrecognisedCommand) with
    | (true, b) => (.goOn, b)
    | (false, b) => (.stop, b)
  | _ =>
    match verdict? command with
    | none => demand deaf b id command
    | some (verdict, error) =>
      match b.settle id verdict with
      | (.ok (), b) => demand deaf b id command
      | (.error e, b) =>
        (.stop, (write deaf (b.note (.settleFailed command e)) id (.ofError error)).2)

def disconnect (b : Broker) (id : ConsumerId) (error : Option ReadError) : Broker :=
  putBack (b.note (.disconnected error)) id

/-- The input failed: the client is gone, or sent what nobody can read. -/
def refuse (deaf : Bool) (b : Broker) (id : ConsumerId) (error : ReadError) : Broker :=
  if error.isDisconnect then disconnect b id (some error)
  else (write deaf (b.note (.undecodable error)) id (.ofError .decodingCommand)).2

def close (b : Broker) (id : ConsumerId) : Broker :=
  ((b.note (.finished id)).release id).note (.ended id)

def isCancelled (b : Broker) (id : ConsumerId) : Bool :=
  match b.consumer? id with
  | none => false
  | some c => c.cancelled

/-- Reads and answers commands until none is left, a message has to be waited for, or the session
is over. Cancellation comes before any input. -/
def serve (s : Session) (id : ConsumerId) : Nat → Inlet → Broker → Option Session × Broker
  | 0, inlet, b => (some { s with inlet, position := .reading }, b)
  | turns + 1, inlet, b =>
    if isCancelled b id then (none, close (disconnect b id none) id)
    else
      match inlet.next with
      | (.pending, inlet) => (some { s with inlet, position := .reading }, b)
      | (.ended, _) => (none, close (disconnect (b.note (.took id .ended)) id none) id)
      | (.failed e, _) => (none, close (refuse s.deaf (b.note (.took id (.failed e))) id e) id)
      | (.command c, inlet) =>
        match obey s.deaf (b.note (.took id (.command c))) id c with
        | (.goOn, b) => serve s id turns inlet b
        | (.wait, b) => (some { s with inlet, position := .awaiting c }, b)
        | (.stop, b) => (none, close b id)

/-- Runs a session's task. Every turn but the last takes a command from the input. -/
def run (s : Session) (b : Broker) (id : ConsumerId) : Option Session × Broker :=
  match s.position with
  | .reading => serve s id (s.inlet.unread + 1) s.inlet b
  | .awaiting command =>
    match b.resume id with
    | (none, b) => (some s, b)
    | (some result, b) =>
      match conclude s.deaf b id command result with
      | (true, b) => serve s id (s.inlet.unread + 1) s.inlet b
      | (false, b) => (none, close b id)

end Session

end TopicQueue

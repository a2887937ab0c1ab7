import TopicQueue.Http.Route
import TopicQueue.Service

namespace TopicQueue.Http

inductive Stage where
  | arrived
  | collecting (topic : String)
  | streaming (consumer : ConsumerId)
  /-- Answered, or its client is gone. -/
  | done
  deriving DecidableEq, Repr

structure Request where
  task : Nat
  route : Route
  /-- What has come of its body, until somebody else reads it. -/
  body : List Chunk
  bodyOpen : Bool
  stage : Stage := .arrived
  attended : Bool := true

structure Server where
  service : Service := {}
  maxPayload : Nat
  requests : Table String Request := []
  /-- The sessions that a shutdown cancels, the last one first. -/
  children : List ConsumerId := []
  stopped : Bool := false

namespace Server

def broker (s : Server) : Broker := s.service.broker

def setBroker (s : Server) (b : Broker) : Server := { s with service := { s.service with broker := b } }

def note (s : Server) (n : Note) : Server := s.setBroker (s.broker.note n)

def setSpan (s : Server) (span : Option RequestSpan) : Server := s.setBroker { s.broker with span }

def tooLong : String := "length limit exceeded"

/-- The payload that chunks make up, as far as they have come. The first chunk that fails or goes
over the limit decides. -/
def gather (limit : Nat) : Bytes → List Chunk → Except String Bytes
  | got, [] => .ok got
  | _, .lost reason :: _ => .error reason
  | got, .data octets :: rest =>
    if limit < got.length + octets.length then .error tooLong else gather limit (got ++ octets) rest

/-- Answers a request. -/
def answer (s : Server) (name : String) (r : Request) (response : Response) : Server :=
  { s.note (.answered r.task response) with
    requests := s.requests.put name { r with stage := .done } }

def publish (s : Server) (name : String) (r : Request) (topic : String) : Server :=
  match gather s.maxPayload [] r.body with
  | .error reason => (s.note (.bodyUnreadable reason)).answer name r (.internal .readBody)
  | .ok payload =>
    if r.bodyOpen then { s with requests := s.requests.put name { r with stage := .collecting topic } }
    else match s.broker.publish topic payload with
      | (.error e, b) => ((s.setBroker b).note (.publishFailed e)).answer name r (.internal .publish)
      | (.ok (), b) => ((s.setBroker b).note (.published payload.length)).answer name r { status := 201 }

/-- Starts a session on a request's body. -/
def subscribe (s : Server) (name : String) (r : Request) (topic : String) (span : RequestSpan) :
    Server :=
  let (id, service) := s.service.openSession topic (.chunks [] r.body !r.bodyOpen) (some span)
  let service := if s.stopped then service.cancelSession id else service
  { s with
    service := { service with broker := service.broker.note (.streamed r.task id) }
    requests := s.requests.put name { r with stage := .streaming id, body := [] }
    children := s.children ++ [id] }

def handle (s : Server) (name : String) (r : Request) : Server :=
  match r.route with
  | .notFound => s.answer name r { status := 404 }
  | .methodNotAllowed => s.answer name r { status := 405, allow := some Route.method }
  | .handle handler none =>
    let s := (s.setSpan (some ⟨handler.text, none⟩)).note .invalidTopic
    (s.setSpan none).answer name r (.badRequest .invalidTopic)
  | .handle .publish (some topic) =>
    let s := s.setSpan (some ⟨Handler.publish.text, some topic⟩)
    ((s.note .publishing).publish name r topic).setSpan none
  | .handle .subscribe (some topic) =>
    let span : RequestSpan := ⟨Handler.subscribe.text, some topic⟩
    (((s.setSpan (some span)).note .subscribing).setSpan none).subscribe name r topic span

def runRequest (s : Server) (name : String) (r : Request) : Server :=
  match r.stage with
  | .arrived => s.handle name r
  | .collecting topic =>
    ((s.setSpan (some ⟨Handler.publish.text, some topic⟩)).publish name r topic).setSpan none
  | .streaming _ | .done => s

/-- Takes a session out of those that a shutdown cancels; the last one takes its place. -/
def removeChild (children : List ConsumerId) (id : ConsumerId) : List ConsumerId :=
  match children.getLast? with
  | none => []
  | some last => children.dropLast.map fun c => if c = id then last else c

def run (s : Server) (id : Nat) : Server :=
  match s.requests.find? (·.2.task == id) with
  | some (name, r) => s.runRequest name r
  | none =>
    let service := s.service.run id
    { s with
      service
      children :=
        if id ∈ s.children ∧ (service.sessions.look id).isNone then removeChild s.children id
        else s.children }

def runMany : Nat → Server → Server
  | 0, s => s
  | turns + 1, s =>
    match s.service.dequeue with
    | none => s
    | some (id, service) => runMany turns ({ s with service }.run id)

/-- A request that is handled may start a session with its body, or publish once. -/
def weight (s : Server) : Nat :=
  s.service.weight + tally (fun p =>
    match p.2.stage with
    | .arrived | .collecting _ => (Inlet.chunks [] p.2.body false).unread + 4
    | .streaming _ | .done => 0) s.requests

def drain (s : Server) : Server := runMany s.weight s

end Server

end TopicQueue.Http

import TopicQueue.Http.Server
import TopicQueue.Scene.Report

namespace TopicQueue.Http

inductive Action where
  /-- A request line, what has come of the body, and whether more may come. -/
  | request (name verb target : String) (body : List Bytes) (bodyOpen : Bool)
  | send (name : String) (octets : Bytes)
  | fail (name : String)
  | close (name : String)
  | drop (name : String)
  | shutdown
  | closeStore
  | fault (call : StoreCall) (fault : Fault)
  /-- Nothing; what is not understood comes to this. -/
  | idle
  deriving DecidableEq, Repr

structure Step where
  action : Action
  defer : Bool := false
  deriving DecidableEq, Repr

inductive Answer where
  | done
  | gone
  | badRequestLine
  | refused
  | failed (error : BrokerError)
  deriving DecidableEq, Repr

namespace Server

def enqueue (s : Server) (task : Nat) : Server := s.setBroker (s.broker.enqueue task)

/-- The client of a request goes away, and with it whatever it was waiting for. -/
def leave (s : Server) (name : String) : Server :=
  match s.requests.look name with
  | none => s
  | some r =>
    let s := { s with requests := s.requests.put name { r with stage := .done, attended := false } }
    match r.stage with
    | .arrived | .collecting _ =>
      s.setBroker { s.broker with ready := s.broker.ready.filter (· != r.task) }
    | .streaming id => { s with service := (s.service.deafen id).cancelSession id }
    | .done => s

/-- The chunks of a request's body go to whoever reads them. -/
def push (s : Server) (name : String) (chunk : Chunk) : Answer × Server :=
  match s.requests.look name with
  | none => (.gone, s)
  | some r =>
    if !r.bodyOpen then (.gone, s)
    else match r.stage with
      | .arrived | .collecting _ =>
        let s := { s with requests := s.requests.put name { r with body := r.body ++ [chunk] } }
        (.done, s.enqueue r.task)
      | .streaming id =>
        if (s.service.sessions.look id).isNone then (.gone, s)
        else (.done, { s with service := s.service.feed id (·.pushChunk chunk) })
      | .done => (.gone, s)

def close (s : Server) (name : String) : Answer × Server :=
  match s.requests.look name with
  | none => (.gone, s)
  | some r =>
    if !r.bodyOpen then (.gone, s)
    else
      let s := { s with requests := s.requests.put name { r with bodyOpen := false } }
      match r.stage with
      | .arrived | .collecting _ => (.done, s.enqueue r.task)
      | .streaming id => (.done, { s with service := s.service.feed id Inlet.close })
      | .done => (.done, s)

/-- A new request. One of the same name is given up. -/
def arrive (s : Server) (name : String) (route : Route) (body : List Bytes) (bodyOpen : Bool) :
    Server :=
  let s := s.leave name
  let task := s.broker.nextId
  let s := s.setBroker { s.broker with nextId := task + 1 }
  { s.enqueue task with
    requests := s.requests.put name { task, route, body := body.map .data, bodyOpen } }

/-- Cancels every session, and every one to come. -/
def shutdown (s : Server) : Server :=
  { s with
    service := s.children.reverse.foldl Service.cancelSession s.service
    children := []
    stopped := true }

def perform (s : Server) : Action → Answer × Server
  | .request name verb target body bodyOpen =>
    match Route.of? verb target with
    | none => (.badRequestLine, s)
    | some route => (.done, s.arrive name route body bodyOpen)
  | .send name octets => s.push name (.data octets)
  | .fail name => s.push name (.lost Scene.transportReason)
  | .close name => s.close name
  | .drop name => (.done, s.leave name)
  | .shutdown => (.done, s.shutdown)
  | .closeStore =>
    let (r, b) := s.broker.shutdown
    (match r with | .ok () => .done | .error e => .failed e, s.setBroker b)
  | .fault call fault => (.done, s.setBroker { s.broker with faults := s.broker.faults.put call fault })
  | .idle => (.refused, s)

def step (s : Server) (t : Step) : Answer × Server :=
  let (answer, s) := s.perform t.action
  (answer, if t.defer then s else s.drain)

inductive Event where
  | head (status : Nat) (contentType allow : Option String)
  | chunk (text : String)
  | ended
  deriving DecidableEq, Repr

/-- The head of a subscription's answer. Its body comes frame by frame. -/
def streamHead : Event := .head 200 (some Response.jsonType) none

def eventsOf (r : Response) : List Event :=
  [.head r.status r.contentType r.allow] ++ (if r.body = "" then [] else [.chunk r.body]) ++ [.ended]

def client? (s : Server) (p : Request → Bool) : Option String :=
  (s.requests.find? fun (_, r) => r.attended && p r).map (·.1)

def event? (s : Server) (n : Note) : Option (String × List Event) :=
  match n with
  | .answered task response => (s.client? (·.task == task)).map (·, eventsOf response)
  | .streamed task _ => (s.client? (·.task == task)).map (·, [streamHead])
  | .wrote id frame => (s.client? (·.stage == .streaming id)).map (·, [.chunk frame.line])
  | .ended id => (s.client? (·.stage == .streaming id)).map (·, [.ended])
  | _ => none

def events (s : Server) (j : Journal) : List (String × Event) :=
  j.flatMap fun e =>
    match s.event? e.note with
    | none => []
    | some (name, events) => events.map (name, ·)

end Server

end TopicQueue.Http

import TopicQueue.Service

namespace TopicQueue

/-- A plain consumer under its name. -/
structure Caller where
  id : ConsumerId
  /-- It has asked for a message before. -/
  asked : Bool := false
  deriving DecidableEq, Repr

/-- The input side of a session under its name. It stays when the session has ended. -/
structure Client where
  id : ConsumerId
  chunked : Bool
  hungUp : Bool := false
  deriving DecidableEq, Repr

structure Scene where
  service : Service := {}
  callers : Table String Caller := []
  clients : Table String Client := []

inductive Action where
  | publish (topic : String) (payload : Bytes)
  | notify (topic : String) (reason : WakeReason)
  | shutdown
  | subscribe (topic name : String)
  | next (name : String) (cancelled : Bool)
  | settle (name : String) (verdict : Verdict)
  | cancel (name : String)
  | abort (name : String)
  | drop (name : String)
  | session (topic name : String) (chunked : Bool)
  | command (name : String) (command : Command)
  | bytes (name : String) (octets : Bytes)
  | fail (name : String) (error : ReadError)
  | hangUp (name : String)
  | deafen (name : String)
  | fault (call : StoreCall) (fault : Fault)
  /-- Calls the store itself, past the broker. -/
  | store (call : StoreCall) (topic : String) (payload : Bytes)
  /-- Nothing; what is not understood comes to this. -/
  | idle
  deriving DecidableEq, Repr

structure Step where
  action : Action
  defer : Bool := false
  deriving DecidableEq, Repr

inductive Answer where
  | done
  /-- Nobody reads what was sent. -/
  | gone
  /-- A call is pending already. -/
  | busy
  | refused
  | aborted (pending : Bool)
  | subscribed (topic description : String)
  | fetched (payload : Option Bytes)
  | failed (error : BrokerError)
  deriving DecidableEq, Repr

namespace Answer

def ofResult : Except BrokerError Unit → Answer
  | .ok () => .done
  | .error e => .failed e

end Answer

namespace Scene

def broker (s : Scene) : Broker := s.service.broker

def setBroker (s : Scene) (b : Broker) : Scene := { s with service := { s.service with broker := b } }

def transportReason : String := "gone"

/-- A call for a message that has not returned. -/
def pending (s : Scene) (id : ConsumerId) : Bool :=
  match s.broker.consumer? id with
  | none => false
  | some c => c.wait != .idle

/-- Puts something into a session's input, while somebody reads it. -/
def send (s : Scene) (client : Client) (change : Inlet → Inlet) : Answer × Scene :=
  if client.hungUp || (s.service.sessions.look client.id).isNone then (.gone, s)
  else (.done, { s with service := s.service.feed client.id change })

/-- A call of the store that bypasses the broker and its faults. -/
def callStore (s : Scene) (call : StoreCall) (topic : String) (payload : Bytes) : Answer × Scene :=
  let b := s.broker
  let unit (r : Except StoreError Store) (b' : Broker → Broker) : Answer × Scene :=
    match r with
    | .error e => (.failed (.store e), s)
    | .ok store => (.done, s.setBroker (b' { b with store }))
  match call with
  | .insert => unit (b.store.insert topic payload b.clock) (·.note (.stored topic payload))
  | .fetchNext =>
    match b.store.fetchNext topic with
    | .error e => (.failed (.store e), s)
    | .ok (payload, store) => (.fetched payload, s.setBroker { b with store })
  | .commit => unit (b.store.commit topic) id
  | .requeue => unit (b.store.requeue topic) id
  | .close => unit (.ok b.store.close) id

def perform (s : Scene) : Action → Answer × Scene
  | .publish topic payload =>
    let (r, b) := s.broker.publish topic payload
    (.ofResult r, s.setBroker b)
  | .notify topic reason => (.done, s.setBroker (s.broker.notify topic reason))
  | .shutdown =>
    let (r, b) := s.broker.shutdown
    (.ofResult r, s.setBroker b)
  | .subscribe topic name =>
    let (id, b) := s.broker.subscribe topic
    (.subscribed topic (Consumer.describe { topic }),
      { s.setBroker b with callers := s.callers.put name { id } })
  | .next name cancelled =>
    match s.callers.look name with
    | none => (.refused, s)
    | some caller =>
      if s.pending caller.id then (.busy, s)
      else (.done, { s.setBroker (s.broker.ask caller.id cancelled) with
        callers := s.callers.put name { caller with asked := true } })
  | .settle name verdict =>
    match s.callers.look name with
    | none => (.refused, s)
    | some caller =>
      let (r, b) := s.broker.settle caller.id verdict
      (.ofResult r, s.setBroker b)
  | .cancel name =>
    match s.callers.look name with
    | some caller =>
      if caller.asked then (.done, s.setBroker (s.broker.cancel caller.id)) else (.refused, s)
    | none =>
      match s.clients.look name with
      | none => (.refused, s)
      | some client => (.done, { s with service := s.service.cancelSession client.id })
  | .abort name =>
    match s.callers.look name with
    | none => (.refused, s)
    | some caller =>
      (.aborted (s.pending caller.id), s.setBroker (s.broker.abandon caller.id))
  | .drop name =>
    match s.callers.look name with
    | none => (.refused, s)
    | some caller =>
      (.done, { s.setBroker ((s.broker.abandon caller.id).release caller.id) with
        callers := s.callers.remove name })
  | .session topic name chunked =>
    let inlet := if chunked then Inlet.chunks [] [] false else Inlet.commands [] false
    let (id, service) := s.service.openSession topic inlet none
    (.done, { s with service, clients := s.clients.put name { id, chunked } })
  | .command name command =>
    match s.clients.look name with
    | none => (.refused, s)
    | some client =>
      if client.chunked then (.refused, s) else s.send client (·.pushCommand (.ok command))
  | .bytes name octets =>
    match s.clients.look name with
    | none => (.refused, s)
    | some client =>
      if client.chunked then s.send client (·.pushChunk (.data octets)) else (.refused, s)
  | .fail name error =>
    match s.clients.look name with
    | none => (.refused, s)
    | some client =>
      if client.chunked then s.send client (·.pushChunk (.lost transportReason))
      else s.send client (·.pushCommand (.error error))
  | .hangUp name =>
    match s.clients.look name with
    | none => (.refused, s)
    | some client =>
      if client.hungUp then (.gone, s)
      else (.done, { s with
        service := s.service.feed client.id Inlet.close
        clients := s.clients.put name { client with hungUp := true } })
  | .deafen name =>
    match s.clients.look name with
    | none => (.refused, s)
    | some client => (.done, { s with service := s.service.deafen client.id })
  | .fault call fault =>
    (.done, s.setBroker { s.broker with faults := s.broker.faults.put call fault })
  | .store call topic payload => s.callStore call topic payload
  | .idle => (.refused, s)

def step (s : Scene) (t : Step) : Answer × Scene :=
  let (answer, s) := s.perform t.action
  (answer, if t.defer then s else { s with service := s.service.drain })

end Scene

end TopicQueue

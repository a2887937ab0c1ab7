import TopicQueue.Session

namespace TopicQueue

structure Service where
  broker : Broker := {}
  sessions : Table ConsumerId Session := []

namespace Service

def openSession (s : Service) (topic : String) (inlet : Inlet) (span : Option RequestSpan) :
    ConsumerId × Service :=
  let (id, broker) := s.broker.subscribe topic
  (id, { s with broker := broker.enqueue id, sessions := s.sessions.put id { inlet, span } })

/-- Changes the input of a session, which gets to see it if it is waiting for input. -/
def feed (s : Service) (id : ConsumerId) (change : Inlet → Inlet) : Service :=
  match s.sessions.look id with
  | none => s
  | some session =>
    { s with
      sessions := s.sessions.put id { session with inlet := change session.inlet }
      broker := if session.position = .reading then s.broker.enqueue id else s.broker }

/-- From now on nothing that the session writes arrives. -/
def deafen (s : Service) (id : ConsumerId) : Service :=
  match s.sessions.look id with
  | none => s
  | some session => { s with sessions := s.sessions.put id { session with deaf := true } }

/-- Cancels a session. -/
def cancelSession (s : Service) (id : ConsumerId) : Service :=
  match s.sessions.look id with
  | none => s
  | some session =>
    let broker := s.broker.cancel id
    { s with broker := if session.position = .reading then broker.enqueue id else broker }

def run (s : Service) (id : ConsumerId) : Service :=
  match s.sessions.look id with
  | none => { s with broker := s.broker.runNext id }
  | some session =>
    let (left, broker) := session.run { s.broker with span := session.span } id
    { s with
      broker := { broker with span := none }
      sessions := match left with
        | none => s.sessions.remove id
        | some session => s.sessions.put id session }

def dequeue (s : Service) : Option (ConsumerId × Service) :=
  match s.broker.ready with
  | [] => none
  | id :: rest => some (id, { s with broker := { s.broker with ready := rest } })

def runMany : Nat → Service → Service
  | 0, s => s
  | turns + 1, s =>
    match s.dequeue with
    | none => s
    | some (id, s) => runMany turns (s.run id)

/-- Plain consumers' calls that have not returned. -/
def pendingCalls (s : Service) : Nat :=
  (s.broker.consumers.filter fun p => p.2.wait ≠ .idle ∧ (s.sessions.look p.1).isNone).length

/-- A task that runs takes itself off the queue. It can wake one other for each command that it
reads, and one more when it ends. -/
def weight (s : Service) : Nat :=
  s.broker.ready.length + 2 * s.pendingCalls +
    tally (fun p => p.2.inlet.unread + 2) s.sessions

def drain (s : Service) : Service := runMany s.weight s

end Service

end TopicQueue

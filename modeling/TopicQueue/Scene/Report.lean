import TopicQueue.Scene

namespace TopicQueue

inductive Output where
  | returned (result : Except BrokerError Bytes)
  | frame (line : String)
  | ended

inductive Status where
  | waiting
  | holding
  | idle
  deriving DecidableEq, Repr

def Status.text : Status → String
  | .waiting => "waiting"
  | .holding => "holding"
  | .idle => "idle"

def Note.output? : Note → Option (ConsumerId × Output)
  | .returned id result => some (id, .returned result)
  | .wrote id frame => some (id, .frame frame.line)
  | .ended id => some (id, .ended)
  | _ => none

def Journal.since (later earlier : Journal) : Journal :=
  (later.take (later.length - earlier.length)).reverse

def Journal.lines (j : Journal) : List String := j.filterMap Journal.Entry.line?

def Action.topic? : Action → Option String
  | .publish topic _ | .notify topic _ | .subscribe topic _ | .session topic _ _
  | .store _ topic _ => some topic
  | _ => none

namespace Scene

def nameOf? (s : Scene) (id : ConsumerId) : Option String :=
  match s.callers.find? (·.2.id == id) with
  | some (name, _) => some name
  | none => (s.clients.find? (·.2.id == id)).map (·.1)

/-- The outputs of a part of the journal, each with its name. -/
def outputs (s : Scene) (j : Journal) : List (String × Output) :=
  j.filterMap fun e => do
    let (id, output) ← e.note.output?
    let name ← s.nameOf? id
    return (name, output)

def status (s : Scene) (caller : Caller) : Status :=
  match s.broker.consumer? caller.id with
  | none => .idle
  | some c => if c.wait != .idle then .waiting else if c.holding then .holding else .idle

/-- Entries, unless the store is closed, and registered consumers of a topic. -/
def topicState (b : Broker) (topic : String) : Option Nat × Nat :=
  (match b.store.size topic with | .ok n => some n | .error _ => none, b.consumerCount topic)

def statuses (s : Scene) : List (String × Status) :=
  s.callers.map fun (name, caller) => (name, s.status caller)

def running (s : Scene) : List String :=
  (s.clients.filterMap fun (name, client) =>
    if (s.service.sessions.look client.id).isSome then some name else none).mergeSort (· ≤ ·)

end Scene

end TopicQueue

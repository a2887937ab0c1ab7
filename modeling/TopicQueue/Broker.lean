import TopicQueue.Journal

namespace TopicQueue

/-- Where a consumer's call for a message stands. -/
inductive Wait where
  | idle
  | asked
  /-- Asleep, because nothing could be claimed. -/
  | parked
  | woken
  deriving DecidableEq, Repr

structure Consumer where
  topic : String
  /-- It has a message that is neither acked nor nacked. -/
  holding : Bool := false
  /-- It asks to be woken. Whoever wakes it takes the flag away, so that one wait takes one wake. -/
  waiting : Bool := false
  /-- A wake that found nobody asleep, or that nobody used, is kept for the next wait. -/
  permit : Bool := false
  cancelled : Bool := false
  wait : Wait := .idle
  deriving DecidableEq, Repr

structure Broker where
  store : Store := {}
  faults : Faults := []
  topics : Table String (Roster ConsumerId) := []
  consumers : Table ConsumerId Consumer := []
  nextId : ConsumerId := 0
  /-- Tasks that are to run, in this order. A task is in the queue at most once. -/
  ready : List ConsumerId := []
  /-- What happened, the latest first. -/
  journal : Journal := []
  span : Option RequestSpan := none
  clock : Int := 0

namespace Broker

def note (b : Broker) (n : Note) : Broker := { b with journal := ⟨b.span, n⟩ :: b.journal }

def consumer? (b : Broker) (id : ConsumerId) : Option Consumer := b.consumers.look id

def setConsumer (b : Broker) (id : ConsumerId) (c : Consumer) : Broker :=
  { b with consumers := b.consumers.put id c }

def roster? (b : Broker) (topic : String) : Option (Roster ConsumerId) := b.topics.look topic

def consumerCount (b : Broker) (topic : String) : Nat :=
  match b.roster? topic with
  | none => 0
  | some r => r.members.length

def isWaiting (b : Broker) (id : ConsumerId) : Bool :=
  match b.consumer? id with
  | none => false
  | some c => c.waiting

def enqueue (b : Broker) (id : ConsumerId) : Broker :=
  if id ∈ b.ready then b else { b with ready := b.ready ++ [id] }

def wake (b : Broker) (id : ConsumerId) : Broker :=
  match b.consumer? id with
  | none => b
  | some c =>
    if c.wait = .parked then (b.setConsumer id { c with waiting := false, wait := .woken }).enqueue id
    else b.setConsumer id { c with waiting := false, permit := true }

/-- Wakes the consumer that registered first among those of the topic that wait. -/
def notify (b : Broker) (topic : String) (reason : WakeReason) : Broker :=
  match b.roster? topic with
  | none => b.note (.unheard topic reason)
  | some roster =>
    match roster.firstWaiting? b.isWaiting with
    | none => b.note (.unwanted topic reason)
    | some id => (b.wake id).note (.woke id topic reason)

/-- A call of the store, which an armed fault may fail. -/
def call {α : Type} (b : Broker) (call : StoreCall) (topic : String)
    (act : Store → Except StoreError (α × Store)) : Except StoreError α × Broker :=
  let (fault, faults) := b.faults.trip call
  let answer := match fault with
    | some kind => Except.error (kind.error topic)
    | none => act b.store
  match answer with
  | .error e => (.error e, { b with faults }.note (.called call topic (some e)))
  | .ok (a, store) => (.ok a, { b with faults, store }.note (.called call topic none))

/-- Appends to the topic and wakes one consumer. A store error is returned as it is. -/
def publish (b : Broker) (topic : String) (payload : Bytes) : Except BrokerError Unit × Broker :=
  match b.call .insert topic fun s => (s.insert topic payload b.clock).map ((), ·) with
  | (.error e, b) => (.error (.store e), b)
  | (.ok (), b) => (.ok (), (b.note (.stored topic payload)).notify topic .publish)

/-- Registers a new consumer. A topic needs no other making. -/
def subscribe (b : Broker) (topic : String) : ConsumerId × Broker :=
  let id := b.nextId
  let roster := (b.roster? topic).getD { topic }
  let b := { b with
    nextId := id + 1
    consumers := b.consumers.put id { topic }
    topics := b.topics.put topic (roster.enrol id) }
  (id, b.note (.registered id topic))

/-- Takes a consumer out of the registry, and its topic with the last one. -/
def unsubscribe (b : Broker) (topic : String) (id : ConsumerId) : Broker :=
  let topics := match b.roster? topic with
    | none => b.topics
    | some roster =>
      let roster := roster.strike id
      if roster.isEmpty then b.topics.remove topic else b.topics.put topic roster
  { b with topics }.note (.deregistered id topic)

def shutdown (b : Broker) : Except BrokerError Unit × Broker :=
  match b.call .close "" fun s => .ok ((), s.close) with
  | (.error e, b) => (.error (.store e), b)
  | (.ok (), b) => (.ok (), b)

def describe (b : Broker) : String :=
  "Broker \x7b topics: " ++ toString b.topics.length ++ " \x7d"

end Broker

end TopicQueue

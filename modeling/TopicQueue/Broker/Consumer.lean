import TopicQueue.Broker

namespace TopicQueue

inductive Verdict where
  | ack
  | nack
  deriving DecidableEq, Repr

def Verdict.reason : Verdict → WakeReason
  | .ack => .ack
  | .nack => .nack

namespace Broker

/-- Ends a wait. If the flag is gone, a wake came that is of no use here any more. -/
def leave (b : Broker) (id : ConsumerId) : Broker :=
  match b.consumer? id with
  | none => b
  | some c =>
    let b := b.setConsumer id { c with waiting := false, wait := .idle }
    if c.waiting then b else b.notify c.topic .handoff

/-- One look at the topic. The flag is up before the store is read, so that no entry which comes
later goes unheard. No result means that there is nothing to claim. -/
def look (b : Broker) (id : ConsumerId) (c : Consumer) :
    Option (Except BrokerError Bytes) × Broker :=
  let c := { c with waiting := true, permit := false }
  let b := b.setConsumer id c
  if c.cancelled then (some (.error .cancelled), b.leave id)
  else
    match b.call .fetchNext c.topic (·.fetchNext c.topic) with
    | (.error e, b) => (some (.error (.store e)), b.leave id)
    | (.ok none, b) => (none, b)
    | (.ok (some payload), b) =>
      let b := b.setConsumer id { c with holding := true }
      (some (.ok payload), (b.note (.claimed id c.topic payload)).leave id)

def park (b : Broker) (id : ConsumerId) : Broker :=
  match b.consumer? id with
  | none => b
  | some c => b.setConsumer id { c with wait := .parked }

/-- Looks at the topic, and falls asleep if there is nothing. A kept wake stands for one more
look. -/
def seek (b : Broker) (id : ConsumerId) : Option (Except BrokerError Bytes) × Broker :=
  match b.consumer? id with
  | none => (none, b)
  | some c =>
    match b.look id c with
    | (some result, b) => (some result, b)
    | (none, b) =>
      if c.permit then
        match (b.note (.woken id c.topic)).look id c with
        | (some result, b) => (some result, b)
        | (none, b) => (none, b.park id)
      else (none, b.park id)

def begin (b : Broker) (id : ConsumerId) : Option (Except BrokerError Bytes) × Broker :=
  match b.consumer? id with
  | none => (none, b)
  | some c =>
    if c.holding then (some (.error .alreadyHolding), b.setConsumer id { c with wait := .idle })
    else b.seek id

/-- Goes on with a call that has been asleep. A wake that cancellation overtakes is kept, and is
also handed on. -/
def resume (b : Broker) (id : ConsumerId) : Option (Except BrokerError Bytes) × Broker :=
  match b.consumer? id with
  | none => (none, b)
  | some c =>
    if c.cancelled then
      let b := if c.wait = .woken then b.setConsumer id { c with permit := true } else b
      (some (.error .cancelled), b.leave id)
    else if c.wait = .woken then (b.note (.woken id c.topic)).seek id
    else (none, b)

def ask (b : Broker) (id : ConsumerId) (cancelled : Bool) : Broker :=
  match b.consumer? id with
  | none => b
  | some c => (b.setConsumer id { c with cancelled, wait := .asked }).enqueue id

def runNext (b : Broker) (id : ConsumerId) : Broker :=
  match b.consumer? id with
  | none => b
  | some c =>
    let (result, b) := match c.wait with
      | .idle => (none, b)
      | .asked => b.begin id
      | .parked | .woken => b.resume id
    match result with
    | none => b
    | some r => b.note (.returned id r)

/-- Cancels a consumer's call; one that is asleep gets to see it. -/
def cancel (b : Broker) (id : ConsumerId) : Broker :=
  match b.consumer? id with
  | none => b
  | some c =>
    let b := b.setConsumer id { c with cancelled := true }
    if c.wait = .parked then b.enqueue id else b

def abandon (b : Broker) (id : ConsumerId) : Broker :=
  match b.consumer? id with
  | none => b
  | some c =>
    let b := { b with ready := b.ready.filter (· != id) }
    match c.wait with
    | .idle => b
    | .asked => b.setConsumer id { c with wait := .idle }
    | .parked => b.leave id
    | .woken => (b.setConsumer id { c with permit := true }).leave id

/-- Commits or requeues the message at hand. The first entry can be claimed again then, so somebody
who waits for it can go on. -/
def settle (b : Broker) (id : ConsumerId) (v : Verdict) : Except BrokerError Unit × Broker :=
  match b.consumer? id with
  | none => (.error .nothingClaimed, b)
  | some c =>
    if !c.holding then (.error .nothingClaimed, b)
    else
      let answer := match v with
        | .ack => b.call .commit c.topic fun s => (s.commit c.topic).map ((), ·)
        | .nack => b.call .requeue c.topic fun s => (s.requeue c.topic).map ((), ·)
      match answer with
      | (.error e, b) => (.error (.store e), b)
      | (.ok (), b) =>
        let b := b.setConsumer id { c with holding := false }
        let b := b.note (match v with | .ack => .committed id c.topic | .nack => .requeued id c.topic)
        (.ok (), b.notify c.topic v.reason)

/-- The end of a consumer, which puts back what it holds. -/
def release (b : Broker) (id : ConsumerId) : Broker :=
  match b.consumer? id with
  | none => b
  | some c =>
    let b :=
      if c.holding then
        match b.settle id .nack with
        | (.ok (), b) => b.note (.releaseRequeued id c.topic)
        | (.error e, b) => b.note (.releaseFailed id c.topic e)
      else b
    let b := b.unsubscribe c.topic id
    { b with consumers := b.consumers.remove id }

end Broker

namespace Consumer

def describe (c : Consumer) : String :=
  "Consumer \x7b id: " ++ Note.anyId ++ ", topic: " ++ Text.quoted c.topic ++ ", holding: " ++
    toString c.holding ++ " \x7d"

end Consumer

end TopicQueue

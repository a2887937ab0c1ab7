namespace TopicQueue

/-- Why a topic's waiting consumer is woken: an entry came, the claim was released by an ack or a
nack, or a wake is passed on by a consumer that no longer needed it. -/
inductive WakeReason where
  | publish
  | ack
  | nack
  | handoff
  deriving DecidableEq, Repr

def WakeReason.text : WakeReason → String
  | .publish => "publish"
  | .ack => "ack"
  | .nack => "nack"
  | .handoff => "handoff"

structure Roster (ι : Type) where
  topic : String
  members : List ι := []
  deriving Repr

namespace Roster

variable {ι : Type}

/-- Registers a consumer behind all others. -/
def enrol (r : Roster ι) (id : ι) : Roster ι := { r with members := r.members ++ [id] }

def strike [BEq ι] (r : Roster ι) (id : ι) : Roster ι :=
  { r with members := r.members.filter (· != id) }

def firstWaiting? (r : Roster ι) (waits : ι → Bool) : Option ι := r.members.find? waits

def isEmpty (r : Roster ι) : Bool := r.members.isEmpty

end Roster

end TopicQueue

import TopicQueue.Store

namespace TopicQueue

inductive StoreCall where
  | insert
  | fetchNext
  | commit
  | requeue
  | close
  deriving DecidableEq, Repr

inductive FaultKind where
  | closed
  | nothingClaimed
  | codec
  deriving DecidableEq, Repr

def FaultKind.error (topic : String) : FaultKind → StoreError
  | .closed => .closed
  | .nothingClaimed => .nothingClaimed topic
  | .codec => .codec .mistyped

structure Fault where
  kind : FaultKind
  /-- Calls still let through. -/
  skip : Nat
  /-- Calls still to fail after those. -/
  times : Nat
  deriving DecidableEq, Repr

abbrev Faults := Table StoreCall Fault

namespace Faults

/-- One call of an operation: whether it fails, and the faults left. -/
def trip (f : Faults) (call : StoreCall) : Option FaultKind × Faults :=
  match f.look call with
  | none => (none, f)
  | some fault =>
    if 0 < fault.skip then (none, f.put call { fault with skip := fault.skip - 1 })
    else if 0 < fault.times then (some fault.kind, f.put call { fault with times := fault.times - 1 })
    else (none, f)

end Faults

end TopicQueue

import TopicQueue.Scene

namespace TopicQueue

/-- The name of the session whose input is meant. -/
def Action.input? : Action → Option String
  | .command name _ | .bytes name _ | .fail name _ | .hangUp name => some name
  | _ => none

namespace Scene

/-- When nothing comes of an action. -/
def Refuses (s : Scene) : Action → Prop
  | .next name _ => ∀ caller, s.callers.look name = some caller → s.pending caller.id = true
  | .settle name _ | .abort name | .drop name => s.callers.look name = none
  | .cancel name => ∀ caller, s.callers.look name = some caller → caller.asked = false
  | .deafen name => s.clients.look name = none
  | .command .. | .bytes .. | .fail .. | .hangUp .. | .idle => True
  | _ => False

/-- What comes of an action. -/
inductive Performed (s : Scene) : Action → Scene → Prop where
  | published (topic : String) (payload : Bytes) :
      Performed s (.publish topic payload) (s.setBroker (s.broker.publish topic payload).2)
  | notified (topic : String) (reason : WakeReason) :
      Performed s (.notify topic reason) (s.setBroker (s.broker.notify topic reason))
  | shutDown : Performed s .shutdown (s.setBroker s.broker.shutdown.2)
  | subscribed (topic name : String) : Performed s (.subscribe topic name)
      { s.setBroker (s.broker.subscribe topic).2 with
        callers := s.callers.put name { id := s.broker.nextId } }
  | asked {name : String} {caller : Caller} (cancelled : Bool)
      (hc : s.callers.look name = some caller) (hp : ¬ s.pending caller.id = true) :
      Performed s (.next name cancelled) { s.setBroker (s.broker.ask caller.id cancelled) with
        callers := s.callers.put name { caller with asked := true } }
  | settled {name : String} {caller : Caller} (verdict : Verdict)
      (hc : s.callers.look name = some caller) :
      Performed s (.settle name verdict) (s.setBroker (s.broker.settle caller.id verdict).2)
  | cancelled {name : String} {caller : Caller} (hc : s.callers.look name = some caller) :
      Performed s (.cancel name) (s.setBroker (s.broker.cancel caller.id))
  | stopped {name : String} {client : Client} (hfree : s.callers.look name = none)
      (hc : s.clients.look name = some client) :
      Performed s (.cancel name) { s with service := s.service.cancelSession client.id }
  | aborted {name : String} {caller : Caller} (hc : s.callers.look name = some caller) :
      Performed s (.abort name) (s.setBroker (s.broker.abandon caller.id))
  | dropped {name : String} {caller : Caller} (hc : s.callers.look name = some caller) :
      Performed s (.drop name)
        { s.setBroker ((s.broker.abandon caller.id).release caller.id) with
          callers := s.callers.remove name }
  | opened (topic name : String) (chunked : Bool) : Performed s (.session topic name chunked)
      { s with
        service := (s.service.openSession topic
          (if chunked then .chunks [] [] false else .commands [] false) none).2
        clients := s.clients.put name { id := s.broker.nextId, chunked } }
  | fed {a : Action} {name : String} {client : Client} (change : Inlet → Inlet)
      (ha : a.input? = some name) (hc : s.clients.look name = some client) :
      Performed s a { s with service := s.service.feed client.id change }
  | hungUp {name : String} {client : Client} (hc : s.clients.look name = some client) :
      Performed s (.hangUp name) { s with
        service := s.service.feed client.id Inlet.close
        clients := s.clients.put name { client with hungUp := true } }
  | deafened {name : String} {client : Client} (hc : s.clients.look name = some client) :
      Performed s (.deafen name) { s with service := s.service.deafen client.id }
  | armed (call : StoreCall) (fault : Fault) : Performed s (.fault call fault)
      (s.setBroker { s.broker with faults := s.broker.faults.put call fault })
  | stored (call : StoreCall) (topic : String) (payload : Bytes) :
      Performed s (.store call topic payload) (s.callStore call topic payload).2
  | nothing {a : Action} (h : s.Refuses a) : Performed s a s

theorem performed_send {s : Scene} {a : Action} {name : String} {client : Client}
    (ha : a.input? = some name) (hc : s.clients.look name = some client) (change : Inlet → Inlet) :
    Performed s a (s.send client change).2 := by
  unfold send
  split
  · refine .nothing ?_
    cases a <;> trivial
  · exact .fed change ha hc

theorem performed (s : Scene) (a : Action) : Performed s a (s.perform a).2 := by
  cases a with
  | publish topic payload => exact .published topic payload
  | notify topic reason => exact .notified topic reason
  | shutdown => exact .shutDown
  | subscribe topic name => exact .subscribed topic name
  | next name cancelled =>
    simp only [perform]
    split
    · rename_i hc
      exact .nothing (by simp [Refuses, hc])
    · rename_i caller hc
      split
      · rename_i hp
        exact .nothing (by simpa [Refuses, hc] using hp)
      · rename_i hp
        exact .asked cancelled hc hp
  | cancel name =>
    simp only [perform]
    split
    · rename_i caller hc
      split
      · exact .cancelled hc
      · rename_i hasked
        exact .nothing (by simpa [Refuses, hc] using hasked)
    · rename_i hnone
      split
      · exact .nothing (by simp [Refuses, hnone])
      · rename_i client hc
        exact .stopped hnone hc
  | settle | abort | drop | deafen =>
    simp only [perform]
    split
    · rename_i hc
      exact .nothing hc
    · rename_i hc
      constructor
      exact hc
  | session topic name chunked => exact .opened topic name chunked
  | command | bytes | fail =>
    simp only [perform]
    split
    · exact .nothing trivial
    · rename_i client hc
      split <;> first | exact performed_send rfl hc _ | exact .nothing trivial
  | hangUp name =>
    simp only [perform]
    split
    · exact .nothing trivial
    · rename_i client hc
      split
      · exact .nothing trivial
      · exact .hungUp hc
  | fault call fault => exact .armed call fault
  | store call topic payload => exact .stored call topic payload
  | idle => exact .nothing trivial

end Scene

end TopicQueue

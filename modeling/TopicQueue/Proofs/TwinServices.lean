import TopicQueue.Proofs.CongruentScenes
import TopicQueue.Proofs.Twins

namespace TopicQueue

/-- The brokers are the same to all who use them, and the sessions are the same. -/
structure Service.Twin (lax : Bool) (s s' : Service) : Prop where
  broker : Broker.Twin lax s.broker s'.broker
  sessions : s'.sessions = s.sessions

namespace Scene
open Broker

/-- The services are the same to all who use them, and go by the same names. -/
structure Twin (lax : Bool) (s s' : Scene) : Prop where
  service : Service.Twin lax s.service s'.service
  callers : s'.callers = s.callers
  clients : s'.clients = s.clients

/-- The same answer, and scenes that nobody can tell apart. -/
def Twins (lax : Bool) (r r' : Answer × Scene) : Prop := r'.1 = r.1 ∧ Twin lax r.2 r'.2

variable {lax : Bool} {s s' : Scene}

theorem related_twin : Related (Broker.Twin lax) s s' ↔ Twin lax s s' :=
  ⟨fun h => ⟨⟨h.service.broker, h.service.sessions⟩, h.callers, h.clients⟩,
    fun h => ⟨⟨h.service.broker, h.service.sessions⟩, h.callers, h.clients⟩⟩

theorem twin_arms {a : Action} (ha : lax = true → ∀ fault, a ≠ .fault .fetchNext fault)
    (call : StoreCall) (fault : Fault) (he : a = .fault call fault) :
    Arms (Broker.Twin lax) call fault :=
  Broker.Twin.arms (fun hl hcall => ha hl fault (hcall ▸ he)) fault

namespace Twin

/-- Whatever is done next is done to both, unless it makes looks fail where wakes may be kept on one
side only. -/
theorem step (h : Twin lax s s') {t : Step}
    (ha : lax = true → ∀ fault, t.action ≠ .fault .fetchNext fault) :
    Twins lax (s.step t) (s'.step t) :=
  ((related_twin.mpr h).step (Broker.Twin.congruence lax) (Broker.Twin.looks lax)
    (Broker.Twin.returns lax) (twin_arms ha)).imp_right related_twin.mp

theorem atTime (h : Twin lax s s') (time : Int64) : Twin lax (s.atTime time) (s'.atTime time) :=
  related_twin.mp ((related_twin.mpr h).atTime (Broker.Twin.congruence lax) time)

theorem runTimed (h : Twin lax s s') {steps : List (Int64 × Step)}
    (ha : lax = true → ∀ e ∈ steps, ∀ fault, e.2.action ≠ .fault .fetchNext fault) :
    Twin lax (s.runTimed steps) (s'.runTimed steps) :=
  related_twin.mp ((related_twin.mpr h).runTimed (Broker.Twin.congruence lax)
    (Broker.Twin.looks lax) (Broker.Twin.returns lax) fun e he => twin_arms fun hl => ha hl e he)

end Twin

end Scene

end TopicQueue

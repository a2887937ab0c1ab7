import TopicQueue.Proofs.Congruences
import TopicQueue.Proofs.Isolation

namespace TopicQueue

namespace Service
open Broker

/-- The brokers are related, and the sessions are the same. -/
structure Related (R : Broker → Broker → Prop) (s s' : Service) : Prop where
  broker : R s.broker s'.broker
  sessions : s'.sessions = s.sessions

namespace Related

variable {R S : Broker → Broker → Prop} {s s' : Service} {id : ConsumerId}

theorem mono (h : Related R s s') (hRS : ∀ {b b'}, R b b' → S b b') : Related S s s' :=
  ⟨hRS h.broker, h.sessions⟩

theorem dequeue (h : Related R s s') (k : Congruence R) :
    s.dequeue = none ∧ s'.dequeue = none ∨ ∃ id t t', s.dequeue = some (id, t) ∧
      s'.dequeue = some (id, t') ∧ Related R t t' := by
  have hready := (k.similar h.broker).ready
  cases hr : s.broker.ready with
  | nil =>
    refine .inl ⟨?_, ?_⟩
    · simp only [Service.dequeue, hr]
    · simp only [Service.dequeue, hready, hr]
  | cons id rest =>
    refine .inr ⟨id, { s with broker := { s.broker with ready := rest } },
      { s' with broker := { s'.broker with ready := rest } }, ?_, ?_,
      k.setReady h.broker rest, h.sessions⟩
    · simp only [Service.dequeue, hr]
    · simp only [Service.dequeue, hready, hr]

/-- The task of a session. -/
theorem runSession (h : Related R s s') (k : Congruence R) (hlook : LooksAlike R id)
    {session : Session} (hs : s.sessions.look id = some session) :
    Related R (s.run id) (s'.run id) := by
  have hs' : s'.sessions.look id = some session := (congrArg (Table.look · id) h.sessions).trans hs
  obtain ⟨left, b, b', he, he', hran⟩ :=
    ((k.likeness hlook).run (k.setSpan h.broker session.span) session).cases
  rw [run_session hs he, run_session hs' he', h.sessions]
  exact ⟨k.setSpan hran none, rfl⟩

theorem run (h : Related R s s') (k : Congruence R) (hlook : LooksAlike R id)
    (hret : Returns R id) : Related R (s.run id) (s'.run id) := by
  cases hs : s.sessions.look id with
  | some session => exact h.runSession k hlook hs
  | none =>
    simp only [Service.run, hs, h.sessions]
    exact ⟨k.runNext hlook hret h.broker, rfl⟩

theorem runMany (h : Related R s s') (k : Congruence R) (hlook : ∀ id, LooksAlike R id)
    (hret : ∀ id, Returns R id) (turns : Nat) : Related R (s.runMany turns) (s'.runMany turns) := by
  induction turns generalizing s s' with
  | zero => exact h
  | succ turns ih =>
    rcases h.dequeue k with ⟨he, he'⟩ | ⟨id, t, t', he, he', htaken⟩
    · simp only [Service.runMany, he, he']
      exact h
    · simp only [Service.runMany, he, he']
      exact ih (htaken.run k (hlook id) (hret id))

theorem drain (h : Related R s s') (k : Congruence R) (hlook : ∀ id, LooksAlike R id)
    (hret : ∀ id, Returns R id) : Related R s.drain s'.drain := by
  rw [← runMany_enough (Nat.le_max_left s.weight s'.weight),
    ← runMany_enough (Nat.le_max_right s.weight s'.weight)]
  exact h.runMany k hlook hret _

theorem openSession (h : Related R s s') (k : Congruence R) (topic : String) (inlet : Inlet)
    (span : Option RequestSpan) :
    (s'.openSession topic inlet span).1 = (s.openSession topic inlet span).1 ∧
      Related R (s.openSession topic inlet span).2 (s'.openSession topic inlet span).2 := by
  obtain ⟨id, b, b', he, he', hjoined⟩ := (k.subscribe h.broker topic).cases
  simp only [Service.openSession, he, he', h.sessions]
  exact ⟨trivial, k.enqueue hjoined id, rfl⟩

theorem feed (h : Related R s s') (k : Congruence R) (id : ConsumerId) (change : Inlet → Inlet) :
    Related R (s.feed id change) (s'.feed id change) := by
  unfold Service.feed
  rw [h.sessions]
  split
  · exact h
  · refine ⟨?_, rfl⟩
    dsimp only
    split
    · exact k.enqueue h.broker id
    · exact h.broker

theorem deafen (h : Related R s s') (id : ConsumerId) : Related R (s.deafen id) (s'.deafen id) := by
  unfold Service.deafen
  rw [h.sessions]
  split
  · exact h
  · exact ⟨h.broker, rfl⟩

theorem cancelSession (h : Related R s s') (k : Congruence R) (id : ConsumerId) :
    Related R (s.cancelSession id) (s'.cancelSession id) := by
  unfold Service.cancelSession
  rw [h.sessions]
  split
  · exact h
  · refine ⟨?_, rfl⟩
    dsimp only
    split
    · exact k.enqueue (k.cancel h.broker id) id
    · exact k.cancel h.broker id

end Related

end Service

namespace Scene
open Broker

/-- The services are related, and go by the same names. -/
structure Related (R : Broker → Broker → Prop) (s s' : Scene) : Prop where
  service : Service.Related R s.service s'.service
  callers : s'.callers = s.callers
  clients : s'.clients = s.clients

/-- The same answer, and related scenes. -/
def Agree (R : Broker → Broker → Prop) (r r' : Answer × Scene) : Prop :=
  r'.1 = r.1 ∧ Related R r.2 r'.2

namespace Related

variable {R S : Broker → Broker → Prop} {s s' : Scene} {b b' : Broker}

theorem mono (h : Related R s s') (hRS : ∀ {b b'}, R b b' → S b b') : Related S s s' :=
  ⟨h.service.mono hRS, h.callers, h.clients⟩

theorem setBroker (h : Related R s s') (hb : R b b') :
    Related R (s.setBroker b) (s'.setBroker b') :=
  ⟨⟨hb, h.service.sessions⟩, h.callers, h.clients⟩

theorem setService {service service' : Service} (h : Related R s s')
    (hs : Service.Related R service service') :
    Related R { s with service } { s' with service := service' } := ⟨hs, h.callers, h.clients⟩

/-- What a call of the broker answers is what the step answers. -/
theorem setAnswer {α : Type} {r r' : α × Broker} (h : Related R s s') (hr : Broker.Alike R r r')
    (answer : α → Answer) :
    Agree R (answer r.1, s.setBroker r.2) (answer r'.1, s'.setBroker r'.2) := by
  obtain ⟨a, hb⟩ := hr
  exact ⟨rfl, h.setBroker hb⟩

theorem pending (h : Related R s s') (k : Congruence R) (id : ConsumerId) :
    s'.pending id = s.pending id := by
  unfold Scene.pending
  rcases (k.similar h.service.broker).consumers id with ⟨hc, hc'⟩ | ⟨c, permit, hc, hc'⟩ <;>
    rw [Scene.broker, Scene.broker, hc, hc']

theorem send (h : Related R s s') (k : Congruence R) (client : Client) (change : Inlet → Inlet) :
    Agree R (s.send client change) (s'.send client change) := by
  unfold Scene.send
  rw [h.service.sessions]
  split
  · exact ⟨rfl, h⟩
  · exact ⟨rfl, h.setService (h.service.feed k client.id change)⟩

/-- The broker has no part in it, and so it comes to the same. -/
theorem callStore (h : Related R s s') (k : Congruence R) (call : StoreCall) (topic : String)
    (payload : Bytes) :
    Agree R (s.callStore call topic payload) (s'.callStore call topic payload) := by
  have hb : R s.broker s'.broker := h.service.broker
  have hsim := k.similar hb
  have hput : ∀ store, Related R (s.setBroker { s.broker with store })
      (s'.setBroker { s'.broker with store }) := fun store => h.setBroker (k.setStore hb store)
  cases call with
  | insert =>
    have hsame : s'.broker.store.insert topic payload s'.broker.clock =
        s.broker.store.insert topic payload s.broker.clock := by rw [hsim.store, hsim.clock]
    simp only [Scene.callStore, hsame]
    cases s.broker.store.insert topic payload s.broker.clock with
    | error e => exact ⟨rfl, h⟩
    | ok store =>
      have hstored := k.note (k.setStore hb store) (n := .stored topic payload) rfl
      exact ⟨rfl, h.setBroker hstored⟩
  | fetchNext =>
    simp only [Scene.callStore, hsim.store]
    cases s.broker.store.fetchNext topic with
    | error e => exact ⟨rfl, h⟩
    | ok r => exact ⟨rfl, hput r.2⟩
  | commit =>
    simp only [Scene.callStore, hsim.store]
    cases s.broker.store.commit topic with
    | error e => exact ⟨rfl, h⟩
    | ok store => exact ⟨rfl, hput store⟩
  | requeue =>
    simp only [Scene.callStore, hsim.store]
    cases s.broker.store.requeue topic with
    | error e => exact ⟨rfl, h⟩
    | ok store => exact ⟨rfl, hput store⟩
  | close =>
    simp only [Scene.callStore, hsim.store]
    exact ⟨rfl, hput _⟩

theorem perform_subscribe (h : Related R s s') (k : Congruence R) (topic name : String) :
    Agree R (s.perform (.subscribe topic name)) (s'.perform (.subscribe topic name)) := by
  obtain ⟨id, b, b', he, he', hjoined⟩ := (k.subscribe h.service.broker topic).cases
  simp only [Scene.perform, broker, he, he', h.callers]
  exact ⟨rfl, (h.setBroker hjoined).service, rfl, h.clients⟩

theorem perform_next (h : Related R s s') (k : Congruence R) (name : String) (cancelled : Bool) :
    Agree R (s.perform (.next name cancelled)) (s'.perform (.next name cancelled)) := by
  simp only [Scene.perform, h.callers, h.pending k]
  cases s.callers.look name with
  | none => exact ⟨rfl, h⟩
  | some caller =>
    dsimp only
    split
    · exact ⟨rfl, h⟩
    · have hasked := k.ask h.service.broker caller.id cancelled
      exact ⟨rfl, (h.setBroker hasked).service, rfl, h.clients⟩

theorem perform_settle (h : Related R s s') (k : Congruence R) (name : String) (v : Verdict) :
    Agree R (s.perform (.settle name v)) (s'.perform (.settle name v)) := by
  simp only [Scene.perform, h.callers]
  cases s.callers.look name with
  | none => exact ⟨rfl, h⟩
  | some caller => exact h.setAnswer (k.settle h.service.broker caller.id v) .ofResult

theorem perform_cancel (h : Related R s s') (k : Congruence R) (name : String) :
    Agree R (s.perform (.cancel name)) (s'.perform (.cancel name)) := by
  simp only [Scene.perform, h.callers, h.clients]
  cases s.callers.look name with
  | some caller =>
    dsimp only
    split
    · exact ⟨rfl, h.setBroker (k.cancel h.service.broker caller.id)⟩
    · exact ⟨rfl, h⟩
  | none =>
    cases s.clients.look name with
    | none => exact ⟨rfl, h⟩
    | some client => exact ⟨rfl, h.service.cancelSession k client.id, rfl, rfl⟩

theorem perform_abort (h : Related R s s') (k : Congruence R) (name : String) :
    Agree R (s.perform (.abort name)) (s'.perform (.abort name)) := by
  simp only [Scene.perform, h.callers]
  cases s.callers.look name with
  | none => exact ⟨rfl, h⟩
  | some caller =>
    have hleft := k.abandon h.service.broker caller.id
    exact ⟨congrArg Answer.aborted (h.pending k caller.id), h.setBroker hleft⟩

theorem perform_drop (h : Related R s s') (k : Congruence R) (name : String) :
    Agree R (s.perform (.drop name)) (s'.perform (.drop name)) := by
  simp only [Scene.perform, h.callers]
  cases s.callers.look name with
  | none => exact ⟨rfl, h⟩
  | some caller =>
    have hgone := k.release (k.abandon h.service.broker caller.id) caller.id
    exact ⟨rfl, (h.setBroker hgone).service, rfl, h.clients⟩

theorem perform_session (h : Related R s s') (k : Congruence R) (topic name : String)
    (chunked : Bool) : Agree R (s.perform (.session topic name chunked))
      (s'.perform (.session topic name chunked)) := by
  obtain ⟨hid, hopened⟩ := h.service.openSession k topic
    (if chunked then Inlet.chunks [] [] false else Inlet.commands [] false) none
  simp only [Scene.perform, h.clients, hid]
  exact ⟨rfl, hopened, h.callers, rfl⟩

theorem perform_input (h : Related R s s') (k : Congruence R) {a : Action} {name : String}
    (ha : a.input? = some name) : Agree R (s.perform a) (s'.perform a) := by
  cases a with
  | command name | bytes name | fail name =>
    simp only [Scene.perform, h.clients]
    cases s.clients.look name with
    | none => exact ⟨rfl, h⟩
    | some client =>
      dsimp only
      split <;> first | exact ⟨rfl, h⟩ | exact h.send k client _
  | hangUp name =>
    simp only [Scene.perform, h.clients]
    cases s.clients.look name with
    | none => exact ⟨rfl, h⟩
    | some client =>
      have hfed := h.service.feed k client.id Inlet.close
      dsimp only
      split
      · exact ⟨rfl, h⟩
      · exact ⟨rfl, (h.setService hfed).service, h.callers, rfl⟩
  | _ => cases ha

theorem perform_deafen (h : Related R s s') (name : String) :
    Agree R (s.perform (.deafen name)) (s'.perform (.deafen name)) := by
  simp only [Scene.perform, h.clients]
  cases s.clients.look name with
  | none => exact ⟨rfl, h⟩
  | some client => exact ⟨rfl, h.service.deafen client.id, h.callers, rfl⟩

/-- Whatever is done next is done to both, unless it arms a fault that tells them apart. -/
theorem perform (h : Related R s s') (k : Congruence R) {a : Action}
    (ha : ∀ call fault, a = .fault call fault → Arms R call fault) :
    Agree R (s.perform a) (s'.perform a) := by
  have hb : R s.broker s'.broker := h.service.broker
  cases a with
  | publish topic payload => exact h.setAnswer (k.publish hb topic payload) .ofResult
  | notify topic reason => exact ⟨rfl, h.setBroker (k.notify hb topic reason)⟩
  | shutdown => exact h.setAnswer (k.shutdown hb) .ofResult
  | subscribe topic name => exact h.perform_subscribe k topic name
  | next name cancelled => exact h.perform_next k name cancelled
  | settle name v => exact h.perform_settle k name v
  | cancel name => exact h.perform_cancel k name
  | abort name => exact h.perform_abort k name
  | drop name => exact h.perform_drop k name
  | session topic name chunked => exact h.perform_session k topic name chunked
  | command | bytes | fail | hangUp => exact h.perform_input k rfl
  | deafen name => exact h.perform_deafen name
  | fault call fault => exact ⟨rfl, h.setBroker (ha call fault rfl hb)⟩
  | store call topic payload => exact h.callStore k call topic payload
  | idle => exact ⟨rfl, h⟩

/-- The tasks of both run to the same end, if any run at all. -/
theorem step (h : Related R s s') (k : Congruence R) (hlook : ∀ id, LooksAlike R id)
    (hret : ∀ id, Returns R id) {t : Step}
    (ha : ∀ call fault, t.action = .fault call fault → Arms R call fault) :
    Agree R (s.step t) (s'.step t) := by
  obtain ⟨hanswer, hleft⟩ := h.perform k ha
  refine ⟨hanswer, ?_⟩
  unfold Scene.step
  dsimp only
  split
  · exact hleft
  · exact hleft.setService (hleft.service.drain k hlook hret)

theorem atTime (h : Related R s s') (k : Congruence R) (time : Int64) :
    Related R (s.atTime time) (s'.atTime time) :=
  h.setBroker (k.setClock h.service.broker time.toInt)

theorem runTimed (h : Related R s s') (k : Congruence R) (hlook : ∀ id, LooksAlike R id)
    (hret : ∀ id, Returns R id) {steps : List (Int64 × Step)}
    (ha : ∀ e ∈ steps, ∀ call fault, e.2.action = .fault call fault → Arms R call fault) :
    Related R (s.runTimed steps) (s'.runTimed steps) := by
  induction steps generalizing s s' with
  | nil => exact h
  | cons e steps ih =>
    have hnext := (h.atTime k e.1).step k hlook hret (ha e List.mem_cons_self)
    exact ih hnext.2 fun e he => ha e (List.mem_cons_of_mem _ he)

end Related

end Scene

end TopicQueue

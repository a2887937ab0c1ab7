import TopicQueue.Proofs.Deeds
import TopicQueue.Proofs.Drains
import TopicQueue.Proofs.Registry

namespace TopicQueue

namespace Broker

def registry (b : Broker) : Registry :=
  ⟨b.topics, fun id => (b.consumer? id).map (·.topic), b.nextId⟩

variable {b b' : Broker} {id other : ConsumerId} {c c' : Consumer}

theorem registry_ext (ht : b'.topics = b.topics) (hn : b'.nextId = b.nextId)
    (hc : ∀ id, b'.registry.topicOf id = b.registry.topicOf id) : b'.registry = b.registry := by
  have hfun : b'.registry.topicOf = b.registry.topicOf := funext hc
  simp only [registry] at hfun ⊢
  rw [ht, hn, hfun]

theorem topicOf_eq (h : b.consumer? id = some c) : b.registry.topicOf id = some c.topic := by
  simp [registry, h]

/-- The topic of a consumer is in the ledger. -/
theorem topicOf_ledger (b : Broker) (id : ConsumerId) :
    b.registry.topicOf id = (b.ledger.holder id).map (·.1) := by
  simp only [registry, ledger, Option.map_map]
  rfl

theorem topicOf_of_ledger (h : b'.ledger = b.ledger) (id : ConsumerId) :
    b'.registry.topicOf id = b.registry.topicOf id := by
  rw [topicOf_ledger, topicOf_ledger, h]

theorem Spared.topicOf (h : Spared id b b') : b'.registry.topicOf id = b.registry.topicOf id := by
  rcases h with he | ⟨c, hc, -, he⟩
  · simp only [registry, he]
  · rw [topicOf_eq hc, topicOf_eq he]
    unfold Consumer.roused
    split <;> rfl

/-- Nobody joins or leaves, and this consumer keeps its topic. -/
theorem registry_steady (hs : Steady id b b') (hspared : ∀ other, other ≠ id → Spared other b b')
    (hown : b'.registry.topicOf id = b.registry.topicOf id) : b'.registry = b.registry := by
  refine registry_ext hs.topics hs.nextId fun other => ?_
  by_cases hne : other = id
  · rw [hne, hown]
  · exact (hspared other hne).topicOf

theorem registry_spared (hs : ∀ id, Steady id b b') (hspared : ∀ id, Spared id b b') :
    b'.registry = b.registry :=
  registry_steady (hs 0) (fun other _ => hspared other) (hspared 0).topicOf

theorem registry_note (b : Broker) (n : Note) : (b.note n).registry = b.registry := rfl

theorem registry_enqueue (b : Broker) (id : ConsumerId) : (b.enqueue id).registry = b.registry := by
  unfold enqueue
  split <;> rfl

theorem registry_publish (b : Broker) (topic : String) (payload : Bytes) :
    (b.publish topic payload).2.registry = b.registry :=
  registry_spared (fun _ => steady_publish b topic payload) (spared_publish b topic payload)

theorem registry_notify (b : Broker) (topic : String) (reason : WakeReason) :
    (b.notify topic reason).registry = b.registry :=
  registry_spared (fun _ => steady_notify b topic reason) (spared_notify b topic reason)

theorem registry_shutdown (b : Broker) : b.shutdown.2.registry = b.registry :=
  registry_spared (fun _ => steady_shutdown b) (spared_shutdown b)

theorem registry_ask (b : Broker) (id : ConsumerId) (cancelled : Bool) :
    (b.ask id cancelled).registry = b.registry :=
  registry_steady (steady_ask b id cancelled) (fun _ hne => spared_ask hne cancelled)
    (topicOf_of_ledger (ledger_ask b id cancelled) id)

theorem registry_cancel (b : Broker) (id : ConsumerId) : (b.cancel id).registry = b.registry :=
  registry_steady (steady_cancel b id) (fun _ hne => spared_cancel hne)
    (topicOf_of_ledger (ledger_cancel b id) id)

theorem registry_abandon (b : Broker) (id : ConsumerId) : (b.abandon id).registry = b.registry :=
  registry_steady (steady_abandon b id) (fun _ hne => spared_abandon hne)
    (topicOf_of_ledger (ledger_abandon b id) id)

theorem registry_settle (b : Broker) (id : ConsumerId) (v : Verdict) :
    (b.settle id v).2.registry = b.registry := by
  cases hc : b.consumer? id with
  | none => simp [settle, hc]
  | some c =>
    cases hh : c.holding with
    | false => rw [settle_idle hc hh]
    | true =>
      refine registry_steady (steady_settle b id v) (fun _ hne => spared_settle hne v) ?_
      rcases settle_cases hc hh v with ⟨e, f, he⟩ | ⟨s, f, -, he⟩
      · rw [he]
        rfl
      · rw [he, registry_notify, topicOf_eq (consumer?_became_self ..), topicOf_eq hc]

theorem Sought.topicOf {r : Option (Except BrokerError Bytes) × Broker}
    (h : Sought b id c c.asleep r) : r.2.registry.topicOf id = some c.topic := by
  cases h <;> rw [topicOf_eq (consumer?_became_self ..)] <;> rfl

theorem registry_begin (b : Broker) (id : ConsumerId) : (b.begin id).2.registry = b.registry := by
  refine registry_steady (steady_begin b id) (fun _ hne => spared_begin hne) ?_
  cases hc : b.consumer? id with
  | none => simp [begin, hc]
  | some c =>
    rw [topicOf_eq hc]
    rcases begin_cases hc with ⟨-, he⟩ | ⟨-, hs⟩
    · rw [he, topicOf_eq (consumer?_setConsumer_self ..)]
    · exact hs.topicOf

theorem registry_resume (b : Broker) (id : ConsumerId) : (b.resume id).2.registry = b.registry := by
  refine registry_steady (steady_resume b id) (fun _ hne => spared_resume hne) ?_
  cases hc : b.consumer? id with
  | none => simp [resume, hc]
  | some c =>
    cases hcancel : c.cancelled with
    | true =>
      rw [resume_cancelled hc hcancel, topicOf_of_ledger (ledger_leave _ id)]
      split
      · rw [topicOf_eq (consumer?_setConsumer_self ..), topicOf_eq hc]
      · rfl
    | false =>
      by_cases hw : c.wait = .woken
      · rw [topicOf_eq hc, (resume_woken hc hcancel hw).topicOf]
      · rw [resume_asleep hc hcancel hw]

theorem registry_runNext (b : Broker) (id : ConsumerId) :
    (b.runNext id).registry = b.registry := by
  rcases b.runNext_cases id with he | ⟨b', hb', he⟩
  · rw [he]
  · have hcalled : b'.registry = b.registry := by
      rcases hb' with rfl | rfl
      · exact registry_begin b id
      · exact registry_resume b id
    rcases he with he | ⟨a, he⟩
    · rw [he, hcalled]
    · rw [he, registry_note, hcalled]

theorem registry_subscribe (b : Broker) (topic : String) :
    (b.subscribe topic).2.registry = b.registry.join topic := by
  have htopicOf : (b.subscribe topic).2.registry.topicOf =
      Function.update b.registry.topicOf b.nextId (some topic) := by
    funext other
    rw [Function.update_apply]
    simp only [registry, consumer?_subscribe]
    split <;> rfl
  simp only [registry] at htopicOf ⊢
  rw [htopicOf]
  rfl

theorem registry_forget (b : Broker) (id : ConsumerId) (topic : String) :
    (b.forget id topic).registry =
      { b.registry with
        topics := Registry.struck b.topics topic id
        topicOf := Function.update b.registry.topicOf id none } := by
  have htopicOf : (b.forget id topic).registry.topicOf =
      Function.update b.registry.topicOf id none := by
    funext other
    rw [Function.update_apply]
    simp only [registry, consumer?_forget_eq]
    split <;> rfl
  simp only [registry] at htopicOf ⊢
  rw [htopicOf]
  rfl

/-- A consumer that is released leaves, whatever becomes of what it holds. -/
theorem registry_release (b : Broker) (id : ConsumerId) :
    (b.release id).registry = b.registry.leave id := by
  cases hc : b.consumer? id with
  | none =>
    have hnone : b.registry.topicOf id = none := by simp [registry, hc]
    rw [Registry.leave_none hnone]
    simp [release, hc]
  | some c =>
    obtain ⟨b₁, he, hs, hspared⟩ := release_forgets hc
    have hothers : Function.update b₁.registry.topicOf id none =
        Function.update b.registry.topicOf id none := by
      funext other
      rw [Function.update_apply, Function.update_apply]
      split
      · rfl
      · rename_i hne
        exact (hspared other hne).topicOf
    rw [he, registry_forget, Registry.leave_some (topicOf_eq hc), hothers, hs.topics]
    simp only [registry, hs.nextId]

end Broker

namespace Session
open Broker

variable {id : ConsumerId} {deaf : Bool} {p p' : Point}

theorem Act.from_gone (h : Act id deaf p p') (hp : p.stage = .gone) :
    p'.stage = .gone ∧ p'.broker.registry = p.broker.registry := by
  cases h with
  | aside => exact ⟨hp, rfl⟩
  | _ => cases hp

/-- A session's consumer leaves with the act that ends the session. -/
theorem Act.registry (h : Act id deaf p p') (hp : p.stage ≠ .gone) :
    p'.stage ≠ .gone ∧ p'.broker.registry = p.broker.registry ∨
    p'.stage = .gone ∧ p'.broker.registry = p.broker.registry.leave id := by
  cases h with
  | closed => exact .inr ⟨rfl, registry_release _ id⟩
  | aside => exact .inl ⟨hp, rfl⟩
  | failed => exact .inl ⟨ofFailure_not_gone _, rfl⟩
  | cancelled | pending | ended | read | unknown | init | arrived | lost | said | unsaid =>
    exact .inl ⟨nofun, rfl⟩
  | @settled _ b _ _ v _ _ hs | @unsettled _ b _ _ v _ _ _ hs =>
    have hsettle := registry_settle b id v
    rw [hs] at hsettle
    exact .inl ⟨nofun, hsettle⟩
  | putBack => exact .inl ⟨nofun, registry_settle _ id .nack⟩
  | @begun _ b _ _ _ hs =>
    have hbegin := registry_begin b id
    rw [hs] at hbegin
    exact .inl ⟨ofResult_not_gone _, hbegin⟩
  | @asleep _ b _ _ hs =>
    have hbegin := registry_begin b id
    rw [hs] at hbegin
    exact .inl ⟨nofun, hbegin⟩
  | @resumed _ b _ _ _ hs =>
    have hresume := registry_resume b id
    rw [hs] at hresume
    exact .inl ⟨ofResult_not_gone _, hresume⟩
  | @still _ b _ _ hs =>
    have hresume := registry_resume b id
    rw [hs] at hresume
    exact .inl ⟨nofun, hresume⟩

theorem Acts.registry (h : Acts id deaf p p') (hp : p.stage ≠ .gone) :
    p'.stage ≠ .gone ∧ p'.broker.registry = p.broker.registry ∨
    p'.stage = .gone ∧ p'.broker.registry = p.broker.registry.leave id := by
  induction h with
  | refl => exact .inl ⟨hp, rfl⟩
  | tail _ hact ih =>
    rcases ih with ⟨hstage, he⟩ | ⟨hgone, he⟩
    · rw [← he]
      exact hact.registry hstage
    · obtain ⟨hgone', he'⟩ := hact.from_gone hgone
      exact .inr ⟨hgone', he'.trans he⟩

/-- A run takes the consumer out of the registry if it is the session's last, and else nobody. -/
theorem Ran.registry {s : Session} {r : Option Session × Broker} (h : Ran s id p r)
    (hp : p.stage ≠ .gone) :
    r.2.registry = if r.1.isSome then p.broker.registry else p.broker.registry.leave id := by
  cases h with
  | paused inlet position h =>
    rcases h.registry hp with ⟨-, he⟩ | ⟨hgone, -⟩
    · exact he
    · exact absurd hgone (stage_not_gone _)
  | gone inlet h =>
    rcases h.registry hp with ⟨hstage, -⟩ | ⟨-, he⟩
    · exact absurd rfl hstage
    · exact he

end Session

namespace Service
open Broker

variable {s : Service} {id : ConsumerId}

/-- A run of this task ends a session. -/
def ends (s : Service) (id : ConsumerId) : Bool :=
  (s.sessions.look id).isSome && ((s.run id).sessions.look id).isNone

theorem registry_run (s : Service) (id : ConsumerId) :
    (s.run id).broker.registry =
      if s.ends id then s.broker.registry.leave id else s.broker.registry := by
  cases hs : s.sessions.look id with
  | none =>
    have hrun : s.run id = { s with broker := s.broker.runNext id } := by simp [run, hs]
    have hends : s.ends id = false := by simp [ends, hs]
    rw [hends, hrun]
    exact registry_runNext s.broker id
  | some session =>
    have hran := (session.run_ran { s.broker with span := session.span } id).registry
      (Session.stage_not_gone session)
    cases hr : session.run { s.broker with span := session.span } id with
    | mk left b =>
      rw [hr] at hran
      cases left with
      | none =>
        have hends : s.ends id = true := by simp [ends, hs, run_session hs hr]
        rw [hends, run_session hs hr]
        exact hran
      | some left =>
        have hends : s.ends id = false := by simp [ends, hs, run_session hs hr]
        rw [hends, run_session hs hr]
        exact hran

theorem registry_feed (s : Service) (id : ConsumerId) (change : Inlet → Inlet) :
    (s.feed id change).broker.registry = s.broker.registry := by
  unfold feed
  split
  · rfl
  · dsimp only
    split
    · exact registry_enqueue s.broker id
    · rfl

theorem registry_cancelSession (s : Service) (id : ConsumerId) :
    (s.cancelSession id).broker.registry = s.broker.registry := by
  unfold cancelSession
  split
  · rfl
  · dsimp only
    split
    · exact (registry_enqueue _ id).trans (registry_cancel s.broker id)
    · exact registry_cancel s.broker id

end Service

namespace Scene
open Broker

variable {s : Scene} {live : Table ConsumerId String}

/-- Who lives after a step of a scene in which these lived. -/
def alive (s : Scene) (live : Table ConsumerId String) : Action → Table ConsumerId String
  | .subscribe topic _ | .session topic _ _ => live ++ [(s.broker.nextId, topic)]
  | .drop name =>
    match s.callers.look name with
    | none => live
    | some caller => live.remove caller.id
  | _ => live

/-- Who lives in a scene, in the order in which they joined, each for its topic: a consumer joins
under a name and lives until that name is dropped, or it joins to serve a session and lives until
the session is over. -/
inductive Lives : Scene → Table ConsumerId String → Prop where
  | start (flushOnInsert : Bool) :
      Lives { service := { broker := { store := { flushOnInsert } } } } []
  | tick {s : Scene} {live} (h : Lives s live) (t : Int64) :
      Lives (s.setBroker { s.broker with clock := t.toInt }) live
  | act {s : Scene} {live} (h : Lives s live) {a : Action} (ha : a.isOwn = true) :
      Lives (s.perform a).2 (s.alive live a)
  | task {s : Scene} {live} {id : ConsumerId} {service : Service} (h : Lives s live)
      (hd : s.service.dequeue = some (id, service)) :
      Lives { s with service := service.run id } (if service.ends id then live.remove id else live)

theorem Lives.reachable (h : s.Lives live) : s.Reachable := by
  induction h with
  | start flushOnInsert => exact .start flushOnInsert
  | tick _ t ih => exact ih.tick t
  | act _ ha ih => exact ih.act ha
  | task _ hd ih => exact ih.task hd

theorem Reachable.lives (h : s.Reachable) : ∃ live, s.Lives live := by
  induction h with
  | start flushOnInsert => exact ⟨_, .start flushOnInsert⟩
  | tick _ t ih =>
    obtain ⟨live, hl⟩ := ih
    exact ⟨live, hl.tick t⟩
  | act _ ha ih =>
    obtain ⟨live, hl⟩ := ih
    exact ⟨_, hl.act ha⟩
  | task _ hd ih =>
    obtain ⟨live, hl⟩ := ih
    exact ⟨_, hl.task hd⟩

/-- A step changes the registry with those who live. -/
theorem Performed.registered {a : Action} {s' : Scene} (h : Performed s a s') (ha : a.isOwn = true)
    (hof : s.broker.registry.Of live) : s'.broker.registry.Of (s.alive live a) := by
  have hsame : ∀ {b : Broker}, b.registry = s.broker.registry → b.registry.Of live := by
    intro b he
    rw [he]
    exact hof
  cases h with
  | published topic payload => exact hsame (registry_publish s.broker topic payload)
  | notified topic reason => exact hsame (registry_notify s.broker topic reason)
  | shutDown => exact hsame (registry_shutdown s.broker)
  | armed => exact hsame rfl
  | subscribed topic =>
    have hjoin := hof.join topic
    rw [← registry_subscribe] at hjoin
    exact hjoin
  | asked cancelled => exact hsame (registry_ask s.broker _ cancelled)
  | settled verdict => exact hsame (registry_settle s.broker _ verdict)
  | cancelled => exact hsame (registry_cancel s.broker _)
  | aborted => exact hsame (registry_abandon s.broker _)
  | @dropped _ caller hc =>
    have hleave := hof.leave caller.id
    rw [← registry_abandon s.broker caller.id, ← registry_release] at hleave
    simp only [alive, hc]
    exact hleave
  | opened topic =>
    have hjoin := hof.join topic
    rw [← registry_subscribe, ← registry_enqueue _ s.broker.nextId] at hjoin
    exact hjoin
  | @fed a _ client change hinput =>
    have hlive : s.alive live a = live := by cases a <;> first | rfl | cases hinput
    rw [hlive]
    exact hsame (Service.registry_feed s.service client.id change)
  | @hungUp _ client => exact hsame (Service.registry_feed s.service client.id Inlet.close)
  | @stopped _ client => exact hsame (Service.registry_cancelSession s.service client.id)
  | @deafened _ client =>
    exact hsame (congrArg Broker.registry (Service.deafen_broker s.service client.id))
  | stored => cases ha
  | nothing hrefused =>
    cases a with
    | drop name =>
      have hnone : s.callers.look name = none := hrefused
      simpa only [alive, hnone] using hof
    | subscribe | session => cases hrefused
    | _ => exact hof

theorem Lives.registry (h : s.Lives live) : s.broker.registry.Of live := by
  induction h with
  | start flushOnInsert => exact Registry.of_nobody
  | tick _ t ih => exact ih
  | act _ ha ih => exact (performed _ _).registered ha ih
  | @task s live id service h hd ih =>
    obtain ⟨rest, -, hbroker, -⟩ := Service.dequeue_some hd
    have hsame : service.broker.registry = s.broker.registry := by
      rw [hbroker]
      rfl
    change (service.run id).broker.registry.Of _
    rw [Service.registry_run, hsame]
    split
    · exact ih.leave id
    · exact ih

/-- The consumer that a name stands for. -/
def callerId? (s : Scene) (name : String) : Option ConsumerId :=
  (s.callers.look name).map (·.id)

/-- A name is given by a subscription and taken away by a drop. -/
theorem Performed.callerId? {a : Action} {s' : Scene} (h : Performed s a s') (name : String) :
    s'.callerId? name = match a with
      | .subscribe _ new => if name = new then some s.broker.nextId else s.callerId? name
      | .drop old => if name = old then none else s.callerId? name
      | _ => s.callerId? name := by
  cases h with
  | subscribed =>
    simp only [Scene.callerId?, Table.look_put]
    split <;> rfl
  | @asked old _ _ hc =>
    simp only [Scene.callerId?, Table.look_put]
    split
    · rename_i ho
      rw [ho, hc]
      rfl
    · rfl
  | dropped =>
    simp only [Scene.callerId?, Table.look_remove]
    split <;> rfl
  | @fed a _ _ _ hinput => cases a <;> first | rfl | cases hinput
  | stored call topic payload =>
    simp only [callStore]
    cases call <;> dsimp only <;> (try split) <;> rfl
  | nothing hrefused =>
    cases a with
    | drop old =>
      have hnone : s.callers.look old = none := hrefused
      dsimp only
      split
      · rename_i ho
        rw [ho, Scene.callerId?, hnone]
        rfl
      · rfl
    | subscribe => cases hrefused
    | _ => rfl
  | _ => rfl

/-- Whoever has a name lives, and no two have the same consumer. -/
structure NamesOf (s : Scene) (live : Table ConsumerId String) : Prop where
  lives : ∀ name id, s.callerId? name = some id → id ∈ live.map (·.1)
  distinct : ∀ name name' id, s.callerId? name = some id → s.callerId? name' = some id →
    name' = name

theorem NamesOf.same {s' : Scene} (h : s.NamesOf live)
    (hs : ∀ name, s'.callerId? name = s.callerId? name) : s'.NamesOf live := by
  refine ⟨fun name id hid => h.lives name id (hs name ▸ hid), fun name name' id hid hid' => ?_⟩
  exact h.distinct name name' id (hs name ▸ hid) (hs name' ▸ hid')

theorem mem_remove {other id : ConsumerId} :
    other ∈ (live.remove id).map (·.1) ↔ other ∈ live.map (·.1) ∧ other ≠ id := by
  rw [← not_iff_not, ← Table.look_eq_none, Table.look_remove, not_and_or, ← Table.look_eq_none]
  by_cases h : other = id <;> simp [h]

/-- A step takes a name away with its consumer. -/
theorem Lives.perform_named (hl : s.Lives live) (h : s.NamesOf live) (a : Action) :
    (s.perform a).2.NamesOf (s.alive live a) := by
  have hperform := (s.performed a).callerId?
  have hfresh : ∀ name, s.callerId? name ≠ some s.broker.nextId := by
    intro name hid
    exact Nat.lt_irrefl _ (hl.registry.fresh _ (h.lives name _ hid))
  cases a with
  | subscribe topic new =>
    constructor
    case lives =>
      intro name id hid
      rw [hperform] at hid
      rw [alive, List.map_append, List.mem_append]
      dsimp only at hid
      split at hid
      · cases hid
        exact .inr (List.mem_singleton_self _)
      · exact .inl (h.lives name id hid)
    case distinct =>
      intro name name' id hid hid'
      rw [hperform] at hid hid'
      dsimp only at hid hid'
      split at hid <;> split at hid'
      · rename_i hn hn'
        rw [hn, hn']
      · cases hid
        exact absurd hid' (hfresh name')
      · cases hid'
        exact absurd hid (hfresh name)
      · exact h.distinct name name' id hid hid'
  | session topic new chunked =>
    refine ⟨fun name id hid => ?_, (h.same hperform).distinct⟩
    rw [alive, List.map_append, List.mem_append]
    exact .inl (h.lives name id (hperform name ▸ hid))
  | drop old =>
    have hkept : ∀ name id, ((s.perform (.drop old)).2.callerId? name) = some id →
        name ≠ old ∧ s.callerId? name = some id := by
      intro name id hid
      rw [hperform] at hid
      dsimp only at hid
      split at hid
      · cases hid
      · rename_i hne
        exact ⟨hne, hid⟩
    refine ⟨fun name id hid => ?_, fun name name' id hid hid' => ?_⟩
    · obtain ⟨hne, hid⟩ := hkept name id hid
      have hm := h.lives name id hid
      simp only [alive]
      split
      · exact hm
      · rename_i caller hc
        refine mem_remove.mpr ⟨hm, ?_⟩
        rintro rfl
        refine hne (h.distinct old name caller.id ?_ hid)
        rw [callerId?, hc]
        rfl
    · exact h.distinct name name' id (hkept name id hid).2 (hkept name' id hid').2
  | publish | notify | shutdown | fault | next | settle | cancel | abort | command | bytes | fail |
    hangUp | deafen | store | idle => exact h.same hperform

theorem Lives.named (h : s.Lives live) : s.NamesOf live := by
  induction h with
  | start flushOnInsert => exact ⟨nofun, nofun⟩
  | tick _ t ih => exact ih.same fun _ => rfl
  | act hl _ ih => exact hl.perform_named ih _
  | @task s live id service hl hd ih =>
    obtain ⟨rest, -, -, hsessions⟩ := Service.dequeue_some hd
    refine ⟨fun name other hother => ?_, ih.distinct⟩
    have hm := ih.lives name other hother
    split
    · rename_i hends
      -- What ends is a session, and no name stands for its consumer.
      refine mem_remove.mpr ⟨hm, ?_⟩
      rintro rfl
      obtain ⟨caller, hc, hid⟩ := Option.map_eq_some_iff.mp hother
      have hplain := (hl.reachable.orderly.callers name caller hc).1
      rw [hid, ← hsessions] at hplain
      simp [Service.ends, hplain] at hends
    · exact hm

/-- What the registry and the flags of a scene come to, when these live in it. -/
structure Registered (s : Scene) (live : Table ConsumerId String) : Prop where
  /-- Later consumers have higher numbers, and no two have the same. -/
  ascending : live.Pairwise fun p q => p.1 < q.1
  /-- A topic has a roster if somebody lives for it, of all who do, in the order of joining. -/
  rosters : ∀ topic, s.broker.roster? topic = Registry.rosterOf live topic
  once : ∀ topic, (Registry.subscribers live topic).Pairwise (· < ·)
  count : ∀ topic, s.broker.consumerCount topic = (Registry.subscribers live topic).length
  topics : s.broker.topics.length = (live.map (·.2)).dedup.length
  /-- Those who live are the broker's consumers; those with a name and those that serve a session
  are among them. -/
  consumers : ∀ id, (s.broker.consumer? id).map (·.topic) = live.look id
  callers : ∀ name caller, s.callers.look name = some caller → caller.id ∈ live.map (·.1)
  sessions : ∀ id session, s.service.sessions.look id = some session → id ∈ live.map (·.1)
  /-- A session waits for a message while its consumer's call has not returned. -/
  awaiting : ∀ id session c, s.service.sessions.look id = some session →
    s.broker.consumer? id = some c → (session.position = .reading ↔ c.wait = .idle)
  /-- A flag is up while a call sleeps that has not been woken. -/
  flagged : ∀ id c, s.broker.consumer? id = some c → c.waiting = true → c.wait = .parked
  /-- A call that sleeps with its flag down has been woken, and its task is in the queue. -/
  woken : ∀ id c, s.broker.consumer? id = some c → c.wait = .parked ∨ c.wait = .woken →
    c.waiting = false → c.wait = .woken ∧ id ∈ s.broker.ready
  /-- Whoever holds a message does not sleep. -/
  empty : ∀ id c, s.broker.consumer? id = some c → c.holding = true →
    c.wait ≠ .parked ∧ c.wait ≠ .woken

theorem subscribers_ascending (h : live.Pairwise fun p q => p.1 < q.1) (topic : String) :
    (Registry.subscribers live topic).Pairwise (· < ·) :=
  List.pairwise_map.mpr (h.filter _)

theorem Reachable.position_iff (hs : s.Reachable) {id : ConsumerId} {session : Session}
    {c : Consumer} (hid : s.service.sessions.look id = some session)
    (hc : s.broker.consumer? id = some c) : session.position = .reading ↔ c.wait = .idle := by
  have hstands := hs.orderly.service.stands id session hid
  unfold Session.Stands at hstands
  split at hstands
  · rename_i hp
    exact ⟨fun _ => hstands.idle c hc, fun _ => hp⟩
  · rename_i command hp
    obtain ⟨d, hd, hw⟩ := hstands
    cases hd.symm.trans hc
    rw [hp]
    rcases hw with hw | hw <;> simp [hw]

theorem Lives.registered (h : s.Lives live) : s.Registered live := by
  have hs := h.reachable
  have hof := h.registry
  obtain ⟨hattended, -⟩ := hs.watched
  have hknown : ∀ {id c}, s.broker.consumer? id = some c → id ∈ live.map (·.1) := by
    intro id c hc
    by_contra hm
    rw [← Table.look_eq_none, ← hof.known, topicOf_eq hc] at hm
    cases hm
  have hrosters : ∀ topic, s.broker.roster? topic = Registry.rosterOf live topic := hof.rosters
  constructor
  case ascending => exact hof.ascending
  case rosters => exact hrosters
  case once => exact subscribers_ascending hof.ascending
  case count =>
    intro topic
    unfold consumerCount
    rw [hrosters, Registry.rosterOf]
    by_cases hnobody : Registry.subscribers live topic = [] <;> simp [hnobody]
  case topics => exact hof.length_topics
  case consumers => exact hof.known
  case callers =>
    intro name caller hc
    exact h.named.lives name caller.id (by rw [callerId?, hc]; rfl)
  case sessions =>
    intro id session hid
    have hstands := hs.orderly.service.stands id session hid
    unfold Session.Stands at hstands
    split at hstands <;>
    · obtain ⟨c, hc, -⟩ := hstands
      exact hknown hc
  case awaiting => exact fun id session c hid hc => hs.position_iff hid hc
  case flagged => exact fun id c hc hup => (hattended.flagged id c hc).mp hup
  case woken =>
    intro id c hc hw hdown
    have hwoken : c.wait = .woken := by
      refine hw.resolve_left fun hp => ?_
      rw [(hattended.flagged id c hc).mpr hp] at hdown
      cases hdown
    refine ⟨hwoken, (hattended.queued id c hc (.inr hwoken)).resolve_right fun hnone => ?_⟩
    cases hnone
  case empty =>
    intro id c hc hh
    have hempty := hs.ordered.empty id c hc
    rw [hh] at hempty
    refine ⟨fun hw => ?_, fun hw => ?_⟩
    · cases hempty (.inl hw)
    · cases hempty (.inr hw)

/-- At any time the registry is of just those who live, and flags are up only while they are
wanted: whatever has been done to consumers and sessions, whatever has failed, and between any two
tasks. -/
theorem living_registered (hs : s.Reachable) :
    (∃ live, s.Lives live) ∧ ∀ live, s.Lives live → s.Registered live :=
  ⟨hs.lives, fun _ h => h.registered⟩

/-- Of two consumers that slept for a topic the first has been woken and the second dropped, beside
a session that is over and one that is not. -/
def comeAndGone : List Step :=
  [⟨.subscribe "t" "c", false⟩, ⟨.subscribe "t" "d", false⟩, ⟨.session "u" "r" false, false⟩,
   ⟨.session "t" "s" false, false⟩, ⟨.next "c" false, false⟩, ⟨.next "d" false, false⟩,
   ⟨.hangUp "r", false⟩, ⟨.drop "d", false⟩, ⟨.publish "t" [1], true⟩]

theorem comeAndGone_registered : ∃ live, (after comeAndGone).Lives live ∧
    Registry.subscribers live "t" = [0, 3] ∧ Registry.subscribers live "u" = [] ∧
    (after comeAndGone).broker.ready = [0] ∧
    (after comeAndGone).broker.consumer? 0 = some { topic := "t", wait := .woken } := by
  have hs : (after comeAndGone).Reachable := reachable_after (by decide)
  obtain ⟨⟨live, hl⟩, hregistered⟩ := living_registered hs
  have hroster := (hregistered live hl).rosters
  have ht : ((after comeAndGone).broker.roster? "t").map (·.members) = some [0, 3] := by
    decide +kernel
  have hu : ((after comeAndGone).broker.roster? "u").map (·.members) = none := by decide +kernel
  rw [hroster, Registry.rosterOf] at ht hu
  refine ⟨live, hl, ?_, ?_, by decide +kernel, by decide +kernel⟩
  · split at ht
    · cases ht
    · exact Option.some.inj ht
  · split at hu
    · assumption
    · cases hu

end Scene

end TopicQueue

import TopicQueue.Proofs.Deeds
import TopicQueue.Proofs.Waits

namespace TopicQueue

@[simp] theorem Consumer.roused_topic (c : Consumer) : c.roused.topic = c.topic := by
  unfold roused
  split <;> rfl

@[simp] theorem Consumer.roused_holding (c : Consumer) : c.roused.holding = c.holding := by
  unfold roused
  split <;> rfl

namespace Broker

/-- A consumer has done nothing, and has what it had. -/
structure Spares (id : ConsumerId) (b b' : Broker) : Prop where
  deeds : b'.deeds id = b.deeds id
  holder : b'.ledger.holder id = b.ledger.holder id

variable {b b' b'' : Broker} {id other : ConsumerId} {c : Consumer}

theorem Spares.refl (id : ConsumerId) (b : Broker) : Spares id b b := ⟨rfl, rfl⟩

theorem Spares.trans (h : Spares id b b') (h' : Spares id b' b'') : Spares id b b'' :=
  ⟨h'.deeds.trans h.deeds, h'.holder.trans h.holder⟩

theorem holder_none : b.ledger.holder id = none ↔ b.consumer? id = none := by
  simp [ledger]

theorem Spared.holder (h : Spared id b b') : b'.ledger.holder id = b.ledger.holder id := by
  rcases h with he | ⟨c, hc, -, he⟩
  · simp [ledger, he]
  · simp [ledger, he, hc]

theorem Silent.spares (h : b.Silent b') (hs : Spared id b b') : Spares id b b' :=
  ⟨h.deeds id, hs.holder⟩

theorem Silent.spares_ledger (h : b.Silent b') (hl : b'.ledger = b.ledger) : Spares id b b' :=
  ⟨h.deeds id, by rw [hl]⟩

theorem Adds.spares (h : Adds other b b') (hne : id ≠ other) (hs : Spared id b b') :
    Spares id b b' :=
  ⟨h.deeds_other hne, hs.holder⟩

/-- Whoever is not there can do nothing. -/
theorem spares_settle (h : id ≠ other ∨ b.ledger.holder id = none) (v : Verdict) :
    Spares id b (b.settle other v).2 := by
  by_cases hne : id = other
  · have hnone := holder_none.mp (h.resolve_left (not_not.mpr hne))
    rw [← hne]
    simpa [settle, hnone] using Spares.refl id b
  · exact (adds_settle b other v).spares hne (spared_settle hne v)

theorem spares_release (h : id ≠ other ∨ b.ledger.holder id = none) :
    Spares id b (b.release other) := by
  by_cases hne : id = other
  · have hnone := holder_none.mp (h.resolve_left (not_not.mpr hne))
    rw [← hne]
    simpa [release, hnone] using Spares.refl id b
  · exact (adds_release b other).spares hne (spared_release hne)

theorem spares_abandon (b : Broker) (other : ConsumerId) : Spares id b (b.abandon other) :=
  (silent_abandon b other).spares_ledger (ledger_abandon b other)

theorem spares_enqueue (b : Broker) (other : ConsumerId) : Spares id b (b.enqueue other) :=
  (silent_enqueue b other).spares_ledger (ledger_enqueue b other)

theorem spares_subscribe (hne : id ≠ b.nextId) (topic : String) :
    Spares id b (b.subscribe topic).2 := by
  refine (silent_subscribe b topic).spares (.of_eq ?_)
  simp [subscribe, consumer?, note, Table.look_put, hne]

theorem spares_runNext (h : id ≠ other ∨ b.ledger.holder id = none) :
    Spares id b (b.runNext other) := by
  by_cases hne : id = other
  · have hnone := holder_none.mp (h.resolve_left (not_not.mpr hne))
    rw [← hne]
    simpa [runNext, hnone] using Spares.refl id b
  · refine (adds_runNext b other).spares hne ?_
    rcases b.runNext_cases other with he | ⟨b', hb', he⟩
    · exact .of_eq (by rw [he])
    · have hcalled : Spared id b b' := by
        rcases hb' with rfl | rfl
        · exact spared_begin hne
        · exact spared_resume hne
      rcases he with he | ⟨a, he⟩
      · rwa [he]
      · rw [he]
        exact hcalled

end Broker

namespace Session
open Broker

variable {id other : ConsumerId} {deaf : Bool} {p p' : Point}

/-- A session's acts are its consumer's and nobody else's. -/
theorem Act.spares (h : Act other deaf p p') (hne : id ≠ other) : Spares id p.broker p'.broker := by
  have hnote : ∀ {b : Broker} {n : Note}, n.doer? = some other → Spares id b (b.note n) := by
    intro b n hd
    refine ⟨History.deeds_cons_of_ne ?_ b.notes, rfl⟩
    simp [hd, Ne.symm hne]
  cases h with
  | aside n hn => exact (silent_note (Note.doer?_aside hn)).spares (.of_eq rfl)
  | ended | failed | read | arrived | said => exact hnote rfl
  | cancelled | pending | unknown | init | lost | unsaid => exact .refl id _
  | @settled _ b _ _ v _ _ hs | @unsettled _ b _ _ v _ _ _ hs =>
    have hsettle : Spares id b (b.settle other v).2 := spares_settle (.inl hne) v
    rwa [hs] at hsettle
  | putBack => exact spares_settle (.inl hne) .nack
  | @begun _ b b' _ _ hs | @asleep _ b b' _ hs =>
    have hadds := adds_begin b other
    have hspared : Spared id b (b.begin other).2 := spared_begin hne
    rw [hs] at hadds hspared
    exact hadds.spares hne hspared
  | @resumed _ b b' _ _ hs | @still _ b b' _ hs =>
    have hadds := adds_resume b other
    have hspared : Spared id b (b.resume other).2 := spared_resume hne
    rw [hs] at hadds hspared
    exact hadds.spares hne hspared
  | closed =>
    exact (spares_release (.inl hne)).trans
      ((silent_note rfl).spares (.of_eq rfl))

theorem Acts.spares (h : Acts other deaf p p') (hne : id ≠ other) :
    Spares id p.broker p'.broker := by
  induction h with
  | refl => exact .refl id _
  | tail _ hact ih => exact ih.trans (hact.spares hne)

theorem Ran.spares {s : Session} {r : Option Session × Broker} (h : Ran s other p r)
    (hne : id ≠ other) : Spares id p.broker r.2 := by
  cases h with
  | paused inlet position h => exact h.spares hne
  | gone inlet h => exact h.spares hne

end Session

namespace Service
open Broker

variable {s : Service} {id other : ConsumerId}

theorem feed_spares (s : Service) (other : ConsumerId) (change : Inlet → Inlet) :
    Spares id s.broker (s.feed other change).broker := by
  unfold feed
  split
  · exact .refl id _
  · dsimp only
    split
    · exact spares_enqueue _ _
    · exact .refl id _

theorem cancelSession_spares (s : Service) (other : ConsumerId) :
    Spares id s.broker (s.cancelSession other).broker := by
  unfold cancelSession
  split
  · exact .refl id _
  · have hcancel : Spares id s.broker (s.broker.cancel other) :=
      (silent_cancel _ other).spares_ledger (ledger_cancel _ other)
    dsimp only
    split
    · exact hcancel.trans (spares_enqueue _ _)
    · exact hcancel

/-- Somebody else's task has run, or that of one who is not there. -/
theorem run_spares (h : id ≠ other ∨ s.broker.ledger.holder id = none ∧ s.sessions.look id = none) :
    Spares id s.broker (s.run other).broker := by
  cases ho : s.sessions.look other with
  | none =>
    have hrun : s.run other = { s with broker := s.broker.runNext other } := by simp [run, ho]
    rw [hrun]
    exact spares_runNext (h.imp_right And.left)
  | some session =>
    have hne : id ≠ other := by
      rintro rfl
      rcases h with h | ⟨-, h⟩
      · exact h rfl
      · rw [h] at ho
        cases ho
    have hspares := (session.run_ran { s.broker with span := session.span } other).spares hne
    cases hr : session.run { s.broker with span := session.span } other with
    | mk left b =>
      rw [hr] at hspares
      rw [run_session ho hr]
      exact ⟨hspares.deeds, hspares.holder⟩

theorem run_sessions_other (hne : id ≠ other) :
    (s.run other).sessions.look id = s.sessions.look id := by
  unfold run
  split
  · rfl
  · dsimp only
    split
    · exact Table.look_remove_of_ne _ hne
    · exact Table.look_put_of_ne _ _ hne

/-- No run starts a session. -/
theorem run_sessions_none (h : s.sessions.look id = none) (other : ConsumerId) :
    (s.run other).sessions.look id = none := by
  by_cases hne : id = other
  · rw [← hne]
    simp [run, h]
  · rw [run_sessions_other hne, h]

/-- The next task is taken off the queue, and nothing else happens. -/
theorem dequeue_some {s' : Service} (h : s.dequeue = some (id, s')) :
    ∃ rest, s.broker.ready = id :: rest ∧ s'.broker = { s.broker with ready := rest } ∧
      s'.sessions = s.sessions := by
  unfold dequeue at h
  split at h
  · cases h
  · rename_i next rest hready
    cases h
    exact ⟨rest, hready, rfl, rfl⟩

theorem task_spares {s' : Service} (hd : s.dequeue = some (other, s'))
    (h : id ≠ other ∨ s.broker.ledger.holder id = none ∧ s.sessions.look id = none) :
    Spares id s.broker (s'.run other).broker := by
  obtain ⟨rest, -, hbroker, hsessions⟩ := dequeue_some hd
  have hspares : Spares id s'.broker (s'.run other).broker := by
    refine run_spares ?_
    rw [hbroker, hsessions]
    exact h
  rw [hbroker] at hspares
  exact ⟨hspares.deeds, hspares.holder⟩

theorem task_sessions_other {s' : Service} (hd : s.dequeue = some (other, s')) (hne : id ≠ other) :
    (s'.run other).sessions.look id = s.sessions.look id := by
  obtain ⟨rest, -, -, hsessions⟩ := dequeue_some hd
  rw [run_sessions_other hne, hsessions]

theorem task_sessions_none {s' : Service} (hd : s.dequeue = some (other, s'))
    (h : s.sessions.look id = none) : (s'.run other).sessions.look id = none := by
  obtain ⟨rest, -, -, hsessions⟩ := dequeue_some hd
  exact run_sessions_none (hsessions ▸ h) other

/-- What a change of a session's input or of its hearing leaves as it is. -/
theorem position_put {session : Session} (ho : s.sessions.look other = some session)
    (session' : Session) (hp : session'.position = session.position) (id : ConsumerId) :
    (Table.look (s.sessions.put other session') id).map (·.position) =
      (s.sessions.look id).map (·.position) := by
  rw [Table.look_put]
  split
  · rename_i he
    rw [he, ho, Option.map_some, Option.map_some, hp]
  · rfl

theorem feed_position (s : Service) (other : ConsumerId) (change : Inlet → Inlet)
    (id : ConsumerId) :
    ((s.feed other change).sessions.look id).map (·.position) =
      (s.sessions.look id).map (·.position) := by
  unfold feed
  split
  · rfl
  · rename_i session ho
    exact position_put ho { session with inlet := change session.inlet } rfl id

theorem deafen_position (s : Service) (other : ConsumerId) (id : ConsumerId) :
    ((s.deafen other).sessions.look id).map (·.position) =
      (s.sessions.look id).map (·.position) := by
  unfold deafen
  split
  · rfl
  · rename_i session ho
    exact position_put ho { session with deaf := true } rfl id

end Service

namespace Scene
open Broker

variable {s s' s'' : Scene} {id : ConsumerId}

/-- What is asked of a scene from outside is not asked of a session's consumer, or of one that is
not there. -/
theorem Performed.spares {a : Action} (h : Performed s a s') (ha : a.isOwn = true)
    (hid : id < s.broker.nextId ∨ s'.broker.nextId ≤ id)
    (hfree : s.broker.ledger.holder id = none ∨
      ∀ name caller, s.callers.look name = some caller → id ≠ caller.id) :
    Spares id s.broker s'.broker := by
  have hcaller : ∀ {name caller}, s.callers.look name = some caller →
      id ≠ caller.id ∨ s.broker.ledger.holder id = none :=
    fun hc => hfree.symm.imp_left fun h => h _ _ hc
  have hsame : ∀ b : Broker, b.notes = s.broker.notes → b.ledger = s.broker.ledger →
      Spares id s.broker b := fun b hn hl => (silent_of_eq hn).spares_ledger hl
  cases h with
  | published topic payload => exact (silent_publish _ topic payload).spares (spared_publish ..)
  | notified topic reason =>
    exact (silent_notify _ topic reason).spares_ledger (ledger_notify _ topic reason)
  | shutDown => exact (silent_shutdown _).spares (spared_shutdown _ id)
  | subscribed topic => exact spares_subscribe (hid.elim Nat.ne_of_lt Nat.ne_of_gt) topic
  | asked cancelled => exact (silent_ask _ _ cancelled).spares_ledger (ledger_ask _ _ cancelled)
  | settled verdict hc => exact spares_settle (hcaller hc) verdict
  | cancelled => exact (silent_cancel _ _).spares_ledger (ledger_cancel _ _)
  | aborted => exact spares_abandon _ _
  | @dropped _ caller hc =>
    refine (spares_abandon s.broker caller.id).trans (spares_release ?_)
    rw [ledger_abandon]
    exact hcaller hc
  | opened topic =>
    have hid : id < s.broker.nextId ∨
        ((s.broker.subscribe topic).2.enqueue s.broker.nextId).nextId ≤ id := hid
    have hnext : ((s.broker.subscribe topic).2.enqueue s.broker.nextId).nextId =
        s.broker.nextId + 1 := enqueue_nextId ..
    rw [hnext] at hid
    exact (spares_subscribe (hid.elim Nat.ne_of_lt Nat.ne_of_gt) topic).trans (spares_enqueue _ _)
  | fed | hungUp => exact Service.feed_spares ..
  | stopped => exact Service.cancelSession_spares ..
  | deafened =>
    exact hsame _ (congrArg notes (Service.deafen_broker ..))
      (congrArg ledger (Service.deafen_broker ..))
  | armed => exact hsame _ rfl rfl
  | stored => cases ha
  | nothing => exact .refl id _

/-- Nor does it begin or end a session, but that it starts new ones. -/
theorem Performed.position {a : Action} (h : Performed s a s') (id : ConsumerId) :
    (s'.service.sessions.look id).map (·.position) =
      (s.service.sessions.look id).map (·.position) ∨
    ∃ topic, id = s.broker.nextId ∧
      s'.broker = (s.broker.subscribe topic).2.enqueue s.broker.nextId ∧
      (s'.service.sessions.look id).map (·.position) = some .reading := by
  cases h with
  | opened topic =>
    by_cases hid : id = s.broker.nextId
    · refine .inr ⟨topic, hid, rfl, ?_⟩
      rw [hid]
      exact congrArg _ (Table.look_put_self ..)
    · exact .inl (congrArg _ (Table.look_put_of_ne _ _ hid))
  | stopped => exact .inl (by rw [Service.cancelSession_sessions])
  | fed | hungUp => exact .inl (Service.feed_position ..)
  | deafened => exact .inl (Service.deafen_position ..)
  | stored call =>
    left
    simp only [callStore]
    cases call <;> dsimp only <;> (try split) <;> rfl
  | _ => exact .inl rfl

/-- What a scene can come to at once. -/
inductive Passes : Scene → Scene → Prop where
  | tick (s : Scene) (t : Int64) : Passes s (s.setBroker { s.broker with clock := t.toInt })
  | act {s : Scene} {a : Action} (ha : a.isOwn = true) : Passes s (s.perform a).2
  | task {s : Scene} {id : ConsumerId} {service : Service}
      (hd : s.service.dequeue = some (id, service)) : Passes s { s with service := service.run id }

/-- What a scene can come to. -/
abbrev Later : Scene → Scene → Prop := Relation.ReflTransGen Passes

theorem Reachable.passes (h : s.Reachable) (hp : Passes s s') : s'.Reachable := by
  cases hp with
  | tick t => exact h.tick t
  | act ha => exact h.act ha
  | task hd => exact h.task hd

theorem Reachable.passes_reaches (h : s.Reachable) (hp : Passes s s') :
    Reaches ⟨s.broker, none⟩ ⟨s'.broker, none⟩ := by
  cases hp with
  | tick t => exact .single ⟨0, .tick t⟩
  | act ha => exact ((performed _ _).moves ha).reaches
  | task hd => exact (h.orderly.task hd).reaches

theorem Reachable.later (h : s.Reachable) (hl : Later s s') : s'.Reachable := by
  induction hl with
  | refl => exact h
  | tail _ hp ih => exact ih.passes hp

theorem later_drained (s : Scene) (turns : Nat) :
    Later s { s with service := s.service.runMany turns } := by
  induction turns generalizing s with
  | zero => exact .refl
  | succ turns ih =>
    simp only [Service.runMany]
    split
    · exact .refl
    · rename_i id service hd
      exact .head (.task hd) (ih { s with service := service.run id })

theorem later_step {t : Step} (ha : t.action.isOwn = true) : Later s (s.step t).2 := by
  unfold step
  dsimp only
  split
  · exact .single (.act ha)
  · exact .head (.act ha) (later_drained _ _)

theorem later_steps {steps : List Step} (ha : ∀ t ∈ steps, t.action.isOwn = true) :
    Later s (steps.foldl (fun s t => (s.step t).2) s) := by
  induction steps generalizing s with
  | nil => exact .refl
  | cons t steps ih =>
    exact (later_step (ha t List.mem_cons_self)).trans
      (ih fun t' ht' => ha t' (List.mem_cons_of_mem t ht'))

end Scene

end TopicQueue

import TopicQueue.Proofs.Actions
import TopicQueue.Proofs.SessionCalls

namespace TopicQueue

namespace Ledger

/-- Numbers that are still to be given belong to nobody. -/
def Fresh (l : Ledger) : Prop := ∀ id, l.nextId ≤ id → l.holder id = none

variable {l l' : Ledger}

theorem Step.nextId_le (h : Step l l') : l.nextId ≤ l'.nextId := by
  cases h <;> first | exact Nat.le_refl _ | exact Nat.le_succ _

theorem Step.fresh (h : Step l l') (hf : l.Fresh) : l'.Fresh := by
  -- One that is known to the ledger has a number below the next.
  have hknown : ∀ {id other v}, l.holder id = some v → l.nextId ≤ other → other ≠ id := by
    rintro id other v hid ho rfl
    rw [hf other ho] at hid
    cases hid
  cases h with
  | stored h => exact hf
  | refused call topic e => exact hf
  | claimed hid h => exact fun other ho => by simp [hknown hid ho, hf other ho]
  | settled v hid h => exact fun other ho => by simp [hknown hid ho, hf other ho]
  | closed => exact hf
  | joined topic =>
    intro other ho
    have hne : other ≠ l.nextId := Nat.ne_of_gt ho
    simp [hne, hf other (Nat.le_of_succ_le ho)]
  | left hid h => exact fun other ho => by simp [hknown hid ho, hf other ho]
  | ticked t => exact hf

theorem Steps.nextId_le (h : Steps l l') : l.nextId ≤ l'.nextId := by
  induction h with
  | refl => exact Nat.le_refl _
  | tail _ hstep ih => exact Nat.le_trans ih hstep.nextId_le

theorem Steps.fresh (h : Steps l l') (hf : l.Fresh) : l'.Fresh := by
  induction h with
  | refl => exact hf
  | tail _ hstep ih => exact hstep.fresh ih

/-- Whoever is known has a number that has been given. -/
theorem Fresh.lt {b : Broker} (hf : b.ledger.Fresh) {id : ConsumerId} {c : Consumer}
    (h : b.consumer? id = some c) : id < b.nextId := by
  by_contra hge
  have hnone := hf id (Nat.le_of_not_lt hge)
  rw [Broker.holder_eq h] at hnone
  cases hnone

end Ledger

namespace Broker

variable {b b' : Broker} {id other : ConsumerId} {c : Consumer}

/-- A consumer whose task has run as far as it goes: without a call, or asleep in one. -/
def Still (b : Broker) (id : ConsumerId) : Prop :=
  ∀ c, b.consumer? id = some c → c.wait = .idle ∨ c.wait = .parked

theorem Resting.still (h : b.Resting id) : b.Still id :=
  fun c hc => .inl (h.idle c hc)

theorem Asleep.still (h : b.Asleep id) : b.Still id := by
  obtain ⟨c, hc, hparked⟩ := h
  intro c' hc'
  rw [hc] at hc'
  cases hc'
  exact .inr hparked

theorem Rests.still {r : Option (Except BrokerError Bytes) × Broker} (h : Rests id r) :
    r.2.Still id := by
  obtain ⟨r, b'⟩ := r
  cases r with
  | some a => exact Resting.still h
  | none => exact Asleep.still h

theorem still_begin (h : b.consumer? id = some c) : (b.begin id).2.Still id := by
  rcases begin_cases h with ⟨-, he⟩ | ⟨-, hs⟩
  · rw [he]
    intro c' hc'
    rw [consumer?_setConsumer_self] at hc'
    cases hc'
    exact .inl rfl
  · exact hs.rests.still

/-- A call that has been given up is none any more. -/
theorem idle_abandon (b : Broker) (id : ConsumerId) :
    ∀ c, (b.abandon id).consumer? id = some c → c.wait = .idle := by
  intro c' hc'
  unfold abandon at hc'
  split at hc'
  · rename_i hc
    rw [hc] at hc'
    cases hc'
  · rename_i c hc
    dsimp only at hc'
    split at hc'
    · rename_i hw
      have hsame : b.consumer? id = some c' := hc'
      rw [hc] at hsame
      cases hsame
      exact hw
    · rw [consumer?_setConsumer_self] at hc'
      cases hc'
      rfl
    · exact (resting_leave (b := { b with ready := b.ready.filter (· != id) }) hc).idle c' hc'
    · exact (resting_leave (consumer?_setConsumer_self ..)).idle c' hc'

/-- What a task notes of the result of its call. -/
theorem returned_leads {r : Option (Except BrokerError Bytes) × Broker}
    (hl : Leads id ⟨b, some id⟩ ⟨r.2, some id⟩) (hs : r.2.Still id) :
    Leads id ⟨b, some id⟩ ⟨(match r.1 with
      | none => r.2
      | some a => r.2.note (.returned id a)), some id⟩ ∧
    (match r.1 with
      | none => r.2
      | some a => r.2.note (.returned id a)).Still id := by
  obtain ⟨r, b'⟩ := r
  cases r with
  | some a => exact ⟨hl.tail (.note _ rfl), hs⟩
  | none => exact ⟨hl, hs⟩

/-- The task of a plain consumer carries its call on until that returns or sleeps. -/
theorem runNext_leads (b : Broker) (id : ConsumerId) :
    Leads id ⟨b, some id⟩ ⟨b.runNext id, some id⟩ ∧ (b.runNext id).Still id := by
  cases h : b.consumer? id with
  | none =>
    have hsame : b.runNext id = b := by simp [runNext, h]
    rw [hsame]
    refine ⟨.refl, fun c hc => ?_⟩
    rw [h] at hc
    cases hc
  | some c =>
    have hsame : ∀ c', b.consumer? id = some c' → c' = c := by
      intro c' hc'
      rw [h] at hc'
      exact (Option.some.inj hc').symm
    unfold runNext
    rw [h]
    dsimp only
    cases hw : c.wait with
    | idle => exact ⟨.refl, fun c' hc' => .inl (hsame c' hc' ▸ hw)⟩
    | asked =>
      have hcall : Call id ⟨b, some id⟩ ⟨(b.begin id).2, some id⟩ :=
        .begin fun c' hc' => .inr (hsame c' hc' ▸ hw)
      exact returned_leads (.single hcall) (still_begin h)
    | parked =>
      have hcall : Call id ⟨b, some id⟩ ⟨(b.resume id).2, some id⟩ :=
        .resume fun c' hc' => .inl (hsame c' hc' ▸ hw)
      exact returned_leads (.single hcall) (rests_resume h (.inl hw)).still
    | woken =>
      have hcall : Call id ⟨b, some id⟩ ⟨(b.resume id).2, some id⟩ :=
        .resume fun c' hc' => .inr (hsame c' hc' ▸ hw)
      exact returned_leads (.single hcall) (rests_resume h (.inr hw)).still

end Broker

namespace Session
open Broker

variable {b b' : Broker} {id other : ConsumerId} {s : Session}

theorem Leaves.still {r : Option Session × Broker} (h : Leaves id r) : r.2.Still id := by
  obtain ⟨left, b'⟩ := r
  cases left with
  | none =>
    intro c hc
    rw [show b'.consumer? id = none from h] at hc
    cases hc
  | some s =>
    simp only [Leaves] at h
    split at h
    · exact Resting.still h
    · exact Asleep.still h

theorem Leaves.stands (h : Leaves id (some s, b)) : s.Stands b id := by
  unfold Stands
  simp only [Leaves] at h
  split at h
  · exact h
  · obtain ⟨c, hc, hparked⟩ := h
    exact ⟨c, hc, .inl hparked⟩

/-- A session stands as before when somebody else has woken its consumer. -/
theorem Stands.spared (h : s.Stands b id) (hs : Spared id b b') : s.Stands b' id := by
  unfold Stands at *
  rcases hs with he | ⟨c, hc, hw, he⟩
  · unfold Resting at *
    rwa [he]
  · split at h
    · obtain ⟨c', hc', -, hw'⟩ := h
      rw [hc] at hc'
      cases hc'
      rw [hw] at hw'
      cases hw'
    · obtain ⟨c', hc', hparked⟩ := h
      rw [hc] at hc'
      cases hc'
      refine ⟨c.roused, he, .inr ?_⟩
      unfold Consumer.roused
      rcases hparked with hp | hp <;> simp [hp]

theorem Stands.cancel (h : s.Stands b id) : s.Stands (b.cancel id) id := by
  have hcancel : ∀ c, b.consumer? id = some c →
      (b.cancel id).consumer? id = some { c with cancelled := true } := by
    intro c hc
    simp only [Broker.cancel, hc]
    split <;> simp
  unfold Stands at *
  split at h
  · obtain ⟨c, hc, hidle, hw⟩ := h
    exact ⟨_, hcancel c hc, hidle, hw⟩
  · obtain ⟨c, hc, hparked⟩ := h
    exact ⟨_, hcancel c hc, hparked⟩

theorem Stands.lt (h : s.Stands b id) (hf : b.ledger.Fresh) : id < b.nextId := by
  unfold Stands at h
  split at h <;> obtain ⟨c, hc, -⟩ := h <;> exact hf.lt hc

theorem Stands.leads {m m' : Moment} (h : s.Stands m.broker other) (hf : m.broker.ledger.Fresh)
    (hl : Leads id m m') (hne : other ≠ id) : s.Stands m'.broker other := by
  induction hl with
  | refl => exact h
  | tail hl hcall ih =>
    have hlt := ih.lt ((Leads.reaches hl).steps.fresh hf)
    exact ih.spared (hcall.spared hne (Nat.ne_of_lt hlt))

end Session

namespace Service
open Broker

/-- Every session that runs has a consumer, which stands where its position says. -/
structure Orderly (s : Service) : Prop where
  fresh : s.broker.ledger.Fresh
  stands : ∀ id session, s.sessions.look id = some session → session.Stands s.broker id

variable {s : Service} {id : ConsumerId} {b : Broker} {r r' : Option ConsumerId}

theorem Orderly.next_free (h : s.Orderly) : s.sessions.look s.broker.nextId = none := by
  cases hs : s.sessions.look s.broker.nextId with
  | none => rfl
  | some session => exact absurd ((h.stands _ session hs).lt h.fresh) (Nat.lt_irrefl _)

/-- Calls of one consumer leave all sessions in order but its own. -/
theorem Orderly.leads (h : s.Orderly) {sessions : Table ConsumerId Session}
    (hl : Leads id ⟨s.broker, r⟩ ⟨b, r'⟩)
    (hothers : ∀ other, other ≠ id → sessions.look other = s.sessions.look other)
    (hown : ∀ session, sessions.look id = some session → session.Stands b id) :
    Orderly ⟨b, sessions⟩ := by
  refine ⟨(Leads.reaches hl).steps.fresh h.fresh, ?_⟩
  intro other session hs
  by_cases hne : other = id
  · rw [hne] at hs ⊢
    exact hown session hs
  · rw [hothers other hne] at hs
    exact (h.stands other session hs).leads h.fresh hl hne

/-- Calls of a consumer that serves no session. -/
theorem Orderly.leads_free (h : s.Orderly) (hl : Leads id ⟨s.broker, r⟩ ⟨b, r'⟩)
    (hid : s.sessions.look id = none) : Orderly { s with broker := b } := by
  refine h.leads hl (fun _ _ => rfl) ?_
  intro session hs
  rw [hid] at hs
  cases hs

theorem openSession_leads (s : Service) (topic : String) (inlet : Inlet)
    (span : Option RequestSpan) :
    Leads s.broker.nextId ⟨s.broker, none⟩ ⟨(s.openSession topic inlet span).2.broker, none⟩ :=
  .tail (.single (.subscribe topic)) (.enqueue _)

theorem Orderly.openSession (h : s.Orderly) (topic : String) (inlet : Inlet)
    (span : Option RequestSpan) : (s.openSession topic inlet span).2.Orderly := by
  refine h.leads (openSession_leads s topic inlet span) ?_ ?_
  · intro other hne
    exact Table.look_put_of_ne _ _ hne
  · intro session hs
    have hput : Table.look (s.sessions.put s.broker.nextId { inlet, span }) s.broker.nextId =
        some session := hs
    rw [Table.look_put_self] at hput
    cases hput
    exact ⟨{ topic }, (consumer?_enqueue ..).trans (Table.look_put_self ..), rfl, rfl⟩

theorem feed_leads (s : Service) (id : ConsumerId) (change : Inlet → Inlet) :
    Leads s.broker.nextId ⟨s.broker, none⟩ ⟨(s.feed id change).broker, none⟩ := by
  unfold feed
  split
  · exact .refl
  · dsimp only
    split
    · exact .single (.enqueue id)
    · exact .refl

theorem Orderly.feed (h : s.Orderly) (id : ConsumerId) (change : Inlet → Inlet) :
    (s.feed id change).Orderly := by
  have hleft := h.leads_free (feed_leads s id change) h.next_free
  refine ⟨hleft.fresh, ?_⟩
  intro other session hs
  cases hid : s.sessions.look id with
  | none =>
    have hsame : s.feed id change = s := by simp [Service.feed, hid]
    rw [hsame] at hs ⊢
    exact h.stands other session hs
  | some fed =>
    have hsessions : (s.feed id change).sessions =
        s.sessions.put id { fed with inlet := change fed.inlet } := by simp [Service.feed, hid]
    rw [hsessions, Table.look_put] at hs
    split at hs
    · rename_i ho
      cases hs
      exact hleft.stands other fed (ho ▸ hid)
    · exact hleft.stands other session hs

theorem deafen_broker (s : Service) (id : ConsumerId) : (s.deafen id).broker = s.broker := by
  unfold deafen
  split <;> rfl

theorem Orderly.deafen (h : s.Orderly) (id : ConsumerId) : (s.deafen id).Orderly := by
  refine ⟨(deafen_broker s id).symm ▸ h.fresh, ?_⟩
  intro other session hs
  rw [deafen_broker]
  cases hid : s.sessions.look id with
  | none =>
    have hsame : s.deafen id = s := by simp [Service.deafen, hid]
    rw [hsame] at hs
    exact h.stands other session hs
  | some deafened =>
    have hsessions : (s.deafen id).sessions = s.sessions.put id { deafened with deaf := true } := by
      simp [Service.deafen, hid]
    rw [hsessions, Table.look_put] at hs
    split at hs
    · rename_i ho
      cases hs
      exact h.stands other deafened (ho ▸ hid)
    · exact h.stands other session hs

theorem cancelSession_leads (s : Service) (id : ConsumerId) :
    Leads id ⟨s.broker, none⟩ ⟨(s.cancelSession id).broker, none⟩ := by
  unfold cancelSession
  split
  · exact .refl
  · dsimp only
    split
    · exact .tail (.single .cancel) (.enqueue id)
    · exact .single .cancel

theorem cancelSession_sessions (s : Service) (id : ConsumerId) :
    (s.cancelSession id).sessions = s.sessions := by
  unfold cancelSession
  split <;> rfl

theorem Orderly.cancelSession (h : s.Orderly) (id : ConsumerId) : (s.cancelSession id).Orderly := by
  have hleft : Orderly ⟨(s.cancelSession id).broker, s.sessions⟩ := by
    refine h.leads (cancelSession_leads s id) (fun _ _ => rfl) ?_
    intro session hs
    refine (h.stands id session hs).cancel.spared (.of_eq ?_)
    simp only [Service.cancelSession, hs]
    split <;> simp
  rwa [← cancelSession_sessions s id] at hleft

theorem run_session {session : Session} {left : Option Session}
    (hid : s.sessions.look id = some session)
    (hr : session.run { s.broker with span := session.span } id = (left, b)) :
    s.run id = ⟨{ b with span := none },
      left.elim (s.sessions.remove id) (s.sessions.put id)⟩ := by
  cases left <;> simp [run, hid, hr]

/-- A run of a task leaves its consumer without a call or asleep, and is over. -/
theorem Orderly.run_leads (h : s.Orderly) (id : ConsumerId) :
    Leads id ⟨s.broker, some id⟩ ⟨(s.run id).broker, none⟩ ∧ (s.run id).Orderly := by
  cases hid : s.sessions.look id with
  | none =>
    have hrun : s.run id = { s with broker := s.broker.runNext id } := by simp [run, hid]
    obtain ⟨hl, hstill⟩ := s.broker.runNext_leads id
    rw [hrun]
    exact ⟨hl.tail (.rest hstill), h.leads_free hl hid⟩
  | some session =>
    have hsession := Session.run_leads (b := { s.broker with span := session.span })
      (h.stands id session hid)
    cases hr : session.run { s.broker with span := session.span } id with
    | mk left b =>
      rw [hr] at hsession
      obtain ⟨hl, hleaves⟩ := hsession
      have hcalls : Leads id ⟨s.broker, some id⟩ ⟨{ b with span := none }, none⟩ :=
        ((Relation.ReflTransGen.head (.span session.span) hl).tail (.span none)).tail
          (.rest hleaves.still)
      rw [run_session hid hr]
      refine ⟨hcalls, h.leads hcalls ?_ ?_⟩
      · intro other hne
        cases left with
        | none => exact Table.look_remove_of_ne _ hne
        | some session' => exact Table.look_put_of_ne _ _ hne
      · intro session' hs
        cases left with
        | none =>
          rw [Option.elim_none, Table.look_remove_self] at hs
          cases hs
        | some left =>
          rw [Option.elim_some, Table.look_put_self] at hs
          cases hs
          exact hleaves.stands

theorem Orderly.dequeued {s' : Service} (h : s.Orderly) (hd : s.dequeue = some (id, s')) :
    s'.Orderly := by
  unfold dequeue at hd
  split at hd
  · cases hd
  · cases hd
    exact ⟨h.fresh, h.stands⟩

/-- A session's run that ends it takes its consumer away. -/
theorem Orderly.run_gone {session : Session} (h : s.Orderly) (hid : s.sessions.look id = some session)
    (hended : (s.run id).sessions.look id = none) : (s.run id).broker.consumer? id = none := by
  have hrun := Session.run_leads (b := { s.broker with span := session.span })
    (h.stands id session hid)
  cases hr : session.run { s.broker with span := session.span } id with
  | mk left b =>
    rw [hr] at hrun
    rw [run_session hid hr] at hended ⊢
    cases left with
    | none => exact hrun.2
    | some left => simp at hended

end Service

/-- Steps of the scene itself; the others call the store past the broker. -/
def Action.isOwn : Action → Bool
  | .store .. => false
  | _ => true

namespace Scene
open Broker

/-- Plain consumers and sessions do not mix, and sessions are in order. -/
structure Orderly (s : Scene) : Prop where
  service : s.service.Orderly
  callers : ∀ name caller, s.callers.look name = some caller →
    s.service.sessions.look caller.id = none ∧ caller.id < s.broker.nextId

/-- What a scene can come to from another: its broker by calls, and in order if it was. -/
structure Moves (s s' : Scene) : Prop where
  reaches : Reaches ⟨s.broker, none⟩ ⟨s'.broker, none⟩
  orderly : s.Orderly → s'.Orderly

variable {s s' : Scene}

theorem Moves.refl (s : Scene) : Moves s s := ⟨.refl, fun h => h⟩

/-- Callers stay callers while no session starts or ends. -/
theorem Orderly.callers_kept (ho : s.Orderly) {b : Broker}
    (h : Reaches ⟨s.broker, none⟩ ⟨b, none⟩) {name : String} {caller : Caller}
    (hc : s.callers.look name = some caller) :
    s.service.sessions.look caller.id = none ∧ caller.id < b.nextId := by
  obtain ⟨hfree, hlt⟩ := ho.callers name caller hc
  exact ⟨hfree, Nat.lt_of_lt_of_le hlt h.steps.nextId_le⟩

theorem moves_setBroker {id : ConsumerId} {b : Broker} (h : Leads id ⟨s.broker, none⟩ ⟨b, none⟩)
    (hid : s.Orderly → s.service.sessions.look id = none) : Moves s (s.setBroker b) where
  reaches := h.reaches
  orderly ho := ⟨ho.service.leads_free h (hid ho), fun _ _ hc => ho.callers_kept h.reaches hc⟩

/-- A call that comes from nobody in particular. -/
theorem moves_call {b : Broker} (h : ∀ id, Call id ⟨s.broker, none⟩ ⟨b, none⟩) :
    Moves s (s.setBroker b) :=
  moves_setBroker (.single (h s.broker.nextId)) fun ho => ho.service.next_free

theorem moves_caller {b : Broker} {name : String} {caller : Caller}
    (hc : s.callers.look name = some caller)
    (h : Leads caller.id ⟨s.broker, none⟩ ⟨b, none⟩) : Moves s (s.setBroker b) :=
  moves_setBroker h fun ho => (ho.callers name caller hc).1

/-- Names may change while they stand for no session. -/
theorem Orderly.rename (ho : s.Orderly) {callers : Table String Caller}
    (h : ∀ name caller, callers.look name = some caller →
      s.service.sessions.look caller.id = none ∧ caller.id < s.broker.nextId) :
    Orderly { s with callers } :=
  ⟨ho.service, h⟩

theorem moves_service {service : Service} (h : Reaches ⟨s.broker, none⟩ ⟨service.broker, none⟩)
    (ho : s.service.Orderly → service.Orderly)
    (hsessions : ∀ id, id < s.broker.nextId → s.service.sessions.look id = none →
      service.sessions.look id = none) (clients : Table String Client) :
    Moves s { s with service, clients } where
  reaches := h
  orderly hs := by
    refine ⟨ho hs.service, ?_⟩
    intro name caller hc
    obtain ⟨hfree, hlt⟩ := hs.callers name caller hc
    exact ⟨hsessions _ hlt hfree, Nat.lt_of_lt_of_le hlt h.steps.nextId_le⟩

/-- A change of what is there adds nothing. -/
theorem look_put_free {t : Table ConsumerId Session} {id other : ConsumerId} {session : Session}
    (h : t.look id = some session) (ho : t.look other = none) (session' : Session) :
    (t.put id session').look other = none := by
  rw [Table.look_put, if_neg, ho]
  rintro rfl
  rw [h] at ho
  cases ho

theorem moves_feed (s : Scene) (id : ConsumerId) (change : Inlet → Inlet)
    (clients : Table String Client) :
    Moves s { s with service := s.service.feed id change, clients } := by
  refine moves_service (Service.feed_leads s.service id change).reaches (·.feed id change) ?_ clients
  intro other _ ho
  unfold Service.feed
  split
  · exact ho
  · rename_i session hs
    exact look_put_free hs ho _

theorem idle_of_not_pending {id : ConsumerId} (h : ¬ s.pending id = true) :
    ∀ c, s.broker.consumer? id = some c → c.wait = .idle := by
  intro c hc
  simpa [pending, hc] using h

theorem moves_subscribe (s : Scene) (topic name : String) :
    Moves s { s.setBroker (s.broker.subscribe topic).2 with
      callers := s.callers.put name { id := s.broker.nextId } } := by
  have hl : Leads s.broker.nextId ⟨s.broker, none⟩ ⟨(s.broker.subscribe topic).2, none⟩ :=
    .single (.subscribe topic)
  refine ⟨hl.reaches, fun ho => ⟨ho.service.leads_free hl ho.service.next_free, ?_⟩⟩
  intro other caller hc
  have hput : Table.look (s.callers.put name { id := s.broker.nextId }) other = some caller := hc
  rw [Table.look_put] at hput
  split at hput
  · cases hput
    exact ⟨ho.service.next_free, Nat.lt_succ_self _⟩
  · exact ho.callers_kept hl.reaches hput

theorem moves_ask {name : String} {caller : Caller} (cancelled : Bool)
    (hc : s.callers.look name = some caller) (hp : ¬ s.pending caller.id = true) :
    Moves s { s.setBroker (s.broker.ask caller.id cancelled) with
      callers := s.callers.put name { caller with asked := true } } := by
  have hmoves : Moves s (s.setBroker (s.broker.ask caller.id cancelled)) :=
    moves_caller hc (.single (.ask cancelled (idle_of_not_pending hp)))
  refine ⟨hmoves.reaches, fun ho => (hmoves.orderly ho).rename ?_⟩
  intro other asking hput
  rw [Table.look_put] at hput
  split at hput
  · cases hput
    have hkept := ho.callers_kept hmoves.reaches hc
    exact hkept
  · exact ho.callers_kept hmoves.reaches hput

theorem moves_drop {name : String} {caller : Caller} (hc : s.callers.look name = some caller) :
    Moves s { s.setBroker ((s.broker.abandon caller.id).release caller.id) with
      callers := s.callers.remove name } := by
  have hl : Leads caller.id ⟨s.broker, none⟩
      ⟨(s.broker.abandon caller.id).release caller.id, none⟩ :=
    .tail (.single .abandon) (.release (idle_abandon _ _))
  have hmoves := moves_caller hc hl
  refine ⟨hmoves.reaches, fun ho => (hmoves.orderly ho).rename ?_⟩
  intro other left hremove
  rw [Table.look_remove] at hremove
  split at hremove
  · cases hremove
  · exact ho.callers_kept hmoves.reaches hremove

theorem moves_session (s : Scene) (topic : String) (inlet : Inlet) (clients : Table String Client) :
    Moves s { s with service := (s.service.openSession topic inlet none).2, clients } := by
  refine moves_service (Leads.reaches (Service.openSession_leads s.service topic inlet none))
    (·.openSession topic inlet none) ?_ clients
  intro other hlt ho
  exact (Table.look_put_of_ne _ _ (Nat.ne_of_lt hlt)).trans ho

theorem moves_cancelSession (s : Scene) (id : ConsumerId) :
    Moves s { s with service := s.service.cancelSession id } := by
  refine moves_service (Service.cancelSession_leads s.service id).reaches (·.cancelSession id) ?_
    s.clients
  intro other _ ho
  rw [Service.cancelSession_sessions, ho]

theorem moves_deafen (s : Scene) (id : ConsumerId) :
    Moves s { s with service := s.service.deafen id } := by
  refine moves_service ?_ (·.deafen id) ?_ s.clients
  · rw [Service.deafen_broker]
    exact .refl
  · intro other _ ho
    unfold Service.deafen
    split
    · exact ho
    · rename_i session hs
      exact look_put_free hs ho _

theorem Performed.moves {a : Action} (h : Performed s a s') (ha : a.isOwn = true) : Moves s s' := by
  cases h with
  | published topic payload => exact moves_call fun _ => .publish topic payload
  | notified topic reason => exact moves_call fun _ => .notify topic reason
  | shutDown => exact moves_call fun _ => .shutdown
  | armed call fault => exact moves_call fun _ => .arm _
  | subscribed topic name => exact moves_subscribe s topic name
  | asked cancelled hc hp => exact moves_ask cancelled hc hp
  | settled verdict hc => exact moves_caller hc (.single (.settle verdict))
  | cancelled hc => exact moves_caller hc (.single .cancel)
  | aborted hc => exact moves_caller hc (.single .abandon)
  | dropped hc => exact moves_drop hc
  | opened topic name chunked => exact moves_session s topic _ _
  | @fed _ _ client change => exact moves_feed s client.id change s.clients
  | @hungUp _ client => exact moves_feed s client.id Inlet.close _
  | @stopped _ client => exact moves_cancelSession s client.id
  | @deafened _ client => exact moves_deafen s client.id
  | stored => cases ha
  | nothing => exact .refl s

/-- What can come of steps, deferred or not, while time goes by, and between any two tasks. -/
inductive Reachable : Scene → Prop where
  | start (flushOnInsert : Bool) :
      Reachable { service := { broker := { store := { flushOnInsert } } } }
  | tick {s : Scene} (h : Reachable s) (t : Int64) :
      Reachable (s.setBroker { s.broker with clock := t.toInt })
  | act {s : Scene} (h : Reachable s) {a : Action} (ha : a.isOwn = true) :
      Reachable (s.perform a).2
  | task {s : Scene} {id : ConsumerId} {service : Service} (h : Reachable s)
      (hd : s.service.dequeue = some (id, service)) : Reachable { s with service := service.run id }

theorem Orderly.task (ho : s.Orderly) {id : ConsumerId} {service : Service}
    (hd : s.service.dequeue = some (id, service)) : Moves s { s with service := service.run id } := by
  unfold Service.dequeue at hd
  split at hd
  · cases hd
  rename_i next rest hready
  cases hd
  have htaken : Service.Orderly { s.service with broker := { s.service.broker with ready := rest } } :=
    ⟨ho.service.fresh, ho.service.stands⟩
  obtain ⟨hl, hleft⟩ := htaken.run_leads id
  have hreaches : Reaches ⟨s.broker, none⟩ _ := (Leads.reaches hl).head ⟨id, .take hready⟩
  refine moves_service hreaches (fun _ => hleft) ?_ s.clients
  intro other _ hother
  unfold Service.run
  split
  · exact hother
  · rename_i session hs
    dsimp only
    split
    · rw [Table.look_remove, hother, ite_self]
    · exact look_put_free hs hother _

theorem Reachable.drained (h : Reachable s) (turns : Nat) :
    Reachable { s with service := s.service.runMany turns } := by
  induction turns generalizing s with
  | zero => exact h
  | succ turns ih =>
    simp only [Service.runMany]
    split
    · exact h
    · rename_i id service hd
      exact ih (h.task hd)

theorem Reachable.step (h : Reachable s) {t : Step} (ha : t.action.isOwn = true) :
    Reachable (s.step t).2 := by
  unfold Scene.step
  dsimp only
  split
  · exact h.act ha
  · exact (h.act ha).drained _

/-- A new scene after these steps. -/
def after (steps : List Step) : Scene := steps.foldl (fun s t => (s.step t).2) {}

theorem Reachable.steps (h : Reachable s) {steps : List Step}
    (ha : ∀ t ∈ steps, t.action.isOwn = true) :
    Reachable (steps.foldl (fun s t => (s.step t).2) s) := by
  induction steps generalizing s with
  | nil => exact h
  | cons t steps ih =>
    exact ih (h.step (ha t List.mem_cons_self)) fun t' ht' => ha t' (List.mem_cons_of_mem t ht')

theorem reachable_after {steps : List Step} (ha : ∀ t ∈ steps, t.action.isOwn = true) :
    Reachable (after steps) :=
  (Reachable.start false).steps ha

theorem Reachable.orderly (h : Reachable s) : s.Orderly := by
  induction h with
  | start flushOnInsert =>
    refine ⟨⟨fun _ _ => rfl, ?_⟩, ?_⟩ <;> simp [Table.look]
  | tick _ t ih => exact (moves_call fun _ => .tick t).orderly ih
  | act _ ha ih => exact ((performed _ _).moves ha).orderly ih
  | task _ hd ih => exact (ih.task hd).orderly ih

theorem Reachable.reaches (h : Reachable s) :
    ∃ flushOnInsert, Reaches ⟨{ store := { flushOnInsert } }, none⟩ ⟨s.broker, none⟩ := by
  induction h with
  | start flushOnInsert => exact ⟨flushOnInsert, .refl⟩
  | tick _ t ih =>
    obtain ⟨f, ih⟩ := ih
    exact ⟨f, ih.tail ⟨0, .tick t⟩⟩
  | act _ ha ih =>
    obtain ⟨f, ih⟩ := ih
    exact ⟨f, ih.trans ((performed _ _).moves ha).reaches⟩
  | task h hd ih =>
    obtain ⟨f, ih⟩ := ih
    exact ⟨f, ih.trans (h.orderly.task hd).reaches⟩

end Scene

end TopicQueue

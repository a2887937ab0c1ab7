import TopicQueue.Proofs.Cancellations
import TopicQueue.Proofs.TwinServices

namespace TopicQueue

theorem Faults.look_trip {f : Faults} {call : StoreCall} {kind : FaultKind} {times : Nat}
    (h : f.look call = some ⟨kind, 0, times⟩) :
    Table.look (f.trip call).2 call = some ⟨kind, 0, times - 1⟩ := by
  simp only [Faults.trip, h, Nat.lt_irrefl, if_false]
  split
  · exact Table.look_put_self ..
  · rw [h, show times - 1 = times by omega]

namespace Broker

/-- A store call failed, and that is all: nothing is stored, claimed or given back, nobody is woken
or told anything, and no fault but that of the call has come any nearer to its end. -/
structure Refused (call : StoreCall) (b b' : Broker) : Prop where
  store : b'.store = b.store
  topics : b'.topics = b.topics
  consumers : b'.consumers = b.consumers
  nextId : b'.nextId = b.nextId
  ready : b'.ready = b.ready
  span : b'.span = b.span
  outputs : b'.outputs = b.outputs
  faults : ∀ other, other ≠ call → b'.faults.live other = b.faults.live other

/-- What a run of a consumer's call for a message has left that brought none: it was answered with an
error, or the consumer fell asleep. -/
structure Unmet (id : ConsumerId) (c : Consumer) (r : Option (Except BrokerError Bytes))
    (b b' : Broker) : Prop where
  store : b'.store = b.store
  consumer : ∃ d, b'.consumer? id = some d ∧ d.topic = c.topic ∧ d.holding = c.holding ∧
    ∀ e, r = some (.error e) → d.waiting = false

/-- An ack or a nack has failed: its consumer holds the message still, which is the first entry of
the topic, stored and claimed. -/
structure Unsettled (id : ConsumerId) (v : Verdict) (b b' : Broker) : Prop where
  refused : Refused v.call b b'
  held : ∃ c entry rest, b'.consumer? id = some c ∧ c.holding = true ∧
    b'.store.claim? c.topic = some entry.1 ∧ b'.store.tree c.topic = entry :: rest ∧
    b'.Got id c.topic entry

variable {b b' b'' : Broker} {id : ConsumerId} {c : Consumer} {call : StoreCall} {topic : String}

theorem Refused.refl (call : StoreCall) (b : Broker) : Refused call b b :=
  ⟨rfl, rfl, rfl, rfl, rfl, rfl, rfl, fun _ _ => rfl⟩

theorem Refused.trans (h : Refused call b b') (h' : Refused call b' b'') : Refused call b b'' where
  store := h'.store.trans h.store
  topics := h'.topics.trans h.topics
  consumers := h'.consumers.trans h.consumers
  nextId := h'.nextId.trans h.nextId
  ready := h'.ready.trans h.ready
  span := h'.span.trans h.span
  outputs := h'.outputs.trans h.outputs
  faults other hne := (h'.faults other hne).trans (h.faults other hne)

theorem Refused.consumer? (h : Refused call b b') (id : ConsumerId) :
    b'.consumer? id = b.consumer? id := by
  rw [Broker.consumer?, h.consumers, Broker.consumer?]

/-- The store refused, or was made to. -/
theorem call_refused {α : Type} {act : Store → Except StoreError (α × Store)} {e : StoreError}
    (h : b.call call topic act = (.error e, b')) :
    b' = { b with faults := (b.faults.trip call).2 }.note (.called call topic (some e)) ∧
      Refused call b b' := by
  have hb : b' = { b with faults := (b.faults.trip call).2 }.note (.called call topic (some e)) := by
    cases hf : (b.faults.trip call).1 with
    | some kind =>
      rw [call_faulted hf] at h
      cases h
      rfl
    | none =>
      rw [call_unfaulted hf] at h
      cases ha : act b.store with
      | error e =>
        rw [ha] at h
        cases h
        rfl
      | ok r =>
        rw [ha] at h
        cases h
  refine ⟨hb, ?_⟩
  rw [hb]
  exact ⟨rfl, rfl, rfl, rfl, rfl, rfl, rfl, fun other hne => Faults.live_trip_of_ne hne⟩

theorem publish_refused {payload : Bytes} {e : BrokerError}
    (h : b.publish topic payload = (.error e, b')) :
    Refused .insert b b' ∧ b'.faults = (b.faults.trip .insert).2 := by
  unfold publish at h
  split at h
  · rename_i e' b₁ he
    cases h
    obtain ⟨rfl, hrefused⟩ := call_refused he
    exact ⟨hrefused, rfl⟩
  · cases h

theorem settle_refused {v : Verdict} {e : StoreError}
    (h : b.settle id v = (.error (.store e), b')) :
    (∃ c, b.consumer? id = some c ∧ c.holding = true) ∧
      Refused v.call b b' ∧ b'.faults = (b.faults.trip v.call).2 := by
  cases hc : b.consumer? id with
  | none => simp [settle, hc] at h
  | some c =>
    cases hh : c.holding with
    | false =>
      rw [settle_idle hc hh] at h
      cases h
    | true =>
      rw [settle_holding hc hh] at h
      split at h
      · rename_i e' b₁ he
        cases h
        obtain ⟨rfl, hrefused⟩ := call_refused he
        exact ⟨⟨c, rfl, hh⟩, hrefused, rfl⟩
      · cases h

theorem Sought.unmet {rest : Consumer} {r : Option (Except BrokerError Bytes)}
    (h : Sought b id c rest (r, b')) (hr : ∀ payload, r ≠ some (.ok payload))
    (ht : rest.topic = c.topic) (hh : rest.holding = c.holding) : Unmet id c r b b' := by
  cases h with
  | cancelled | failed => exact ⟨rfl, c.done, consumer?_became_self .., rfl, rfl, fun _ _ => rfl⟩
  | claimed f j s payload => exact absurd rfl (hr payload)
  | nothing => exact ⟨rfl, rest, consumer?_became_self .., ht, hh, nofun⟩

theorem begin_unmet {r : Option (Except BrokerError Bytes)} (hc : b.consumer? id = some c)
    (hflag : c.waiting = false) (h : b.begin id = (r, b'))
    (hr : ∀ payload, r ≠ some (.ok payload)) : Unmet id c r b b' := by
  rcases begin_cases hc with ⟨-, he⟩ | ⟨-, hsought⟩
  · rw [h] at he
    cases he
    exact ⟨rfl, _, consumer?_setConsumer_self .., rfl, rfl, fun _ _ => hflag⟩
  · rw [h] at hsought
    exact hsought.unmet hr rfl rfl

theorem resume_unmet {r : Option (Except BrokerError Bytes)} (hc : b.consumer? id = some c)
    (h : b.resume id = (r, b')) (hr : ∀ payload, r ≠ some (.ok payload)) : Unmet id c r b b' := by
  cases hx : c.cancelled with
  | true =>
    obtain ⟨-, -, permit, hleft⟩ := withdrawn_resume hc hx c.topic c.holding
    have hstore : (b.resume id).2.store = b.store := by
      rw [resume_cancelled hc hx]
      refine (congrArg Ledger.store (ledger_leave _ id)).trans ?_
      split <;> rfl
    rw [h] at hleft hstore
    exact ⟨hstore, _, hleft, rfl, rfl, fun _ _ => rfl⟩
  | false =>
    by_cases hw : c.wait = .woken
    · have hsought := resume_woken hc hx hw
      rw [h] at hsought
      obtain ⟨hstore, hconsumer⟩ := hsought.unmet hr rfl rfl
      exact ⟨hstore, hconsumer⟩
    · rw [resume_asleep hc hx hw] at h
      cases h
      exact ⟨rfl, c, hc, rfl, rfl, nofun⟩

/-- Where the faults of a call are used up, all is as if it had never failed. -/
theorem Refused.twin (h : Refused call b b') (hlive : b'.faults.live call = none)
    (clock : Int) :
    Twin false { b with faults := b.faults.remove call, clock } { b' with clock } where
  store := h.store
  topics := h.topics
  nextId := h.nextId
  ready := h.ready
  span := h.span
  clock := rfl
  outputs := h.outputs
  faults other := by
    dsimp only
    rw [Faults.live_remove]
    split
    · rename_i ho
      rw [ho, hlive]
    · rename_i hne
      exact h.faults other hne
  unarmed := nofun
  consumers other := by
    have hlook : b'.consumer? other = b.consumer? other := h.consumer? other
    cases hc : b.consumer? other with
    | none => exact .inl ⟨hc, hlook.trans hc⟩
    | some c => exact .inr ⟨c, c.permit, hc, hlook.trans hc, fun _ => rfl⟩

end Broker

/-- The store call that an action comes down to, of those that bring no message. -/
def Action.storeCall? : Action → Option StoreCall
  | .publish .. => some .insert
  | .settle _ v => some v.call
  | _ => none

namespace Scene
open Broker

/-- A scene in which no fault is armed on a store call. -/
def without (s : Scene) (call : StoreCall) : Scene :=
  s.setBroker { s.broker with faults := s.broker.faults.remove call }

/-- The same action is tried so many times, at whatever times, and the store refuses it each time.
No other task runs in between. -/
inductive Attempts (a : Action) : Nat → Scene → Scene → Prop where
  | start (s : Scene) : Attempts a 0 s s
  | again {n : Nat} {s s' : Scene} (h : Attempts a n s s') (time : Int64) (defer : Bool)
      (hquiet : defer = true ∨ s'.broker.ready = []) {e : StoreError}
      (he : ((s'.atTime time).step ⟨a, defer⟩).1 = .failed (.store e)) :
      Attempts a (n + 1) s ((s'.atTime time).step ⟨a, defer⟩).2

/-- What comes of the failures of a store. -/
structure Unharmed (s : Scene) : Prop where
  publish : ∀ m, Reaches ⟨s.broker, none⟩ m → ∀ topic payload e b',
    m.broker.publish topic payload = (.error e, b') → Refused .insert m.broker b'
  settle : ∀ m, Reaches ⟨s.broker, none⟩ m → ∀ id v e b',
    m.broker.settle id v = (.error (.store e), b') → Unsettled id v m.broker b'
  /-- A run of a call for a message begins it or goes on with it. -/
  next : ∀ m, Reaches ⟨s.broker, none⟩ m → ∀ id c r b', m.broker.consumer? id = some c →
    c.wait ≠ .parked ∧ m.broker.begin id = (r, b') ∨ m.broker.resume id = (r, b') →
    (∀ payload, r ≠ some (.ok payload)) → Unmet id c r m.broker b'
  /-- Of a fault so many failures are left, after so many attempts. -/
  used : ∀ a call n s' kind times, a.storeCall? = some call → Attempts a n s s' →
    s.broker.faults.look call = some ⟨kind, 0, times⟩ →
    s'.broker.faults.look call = some ⟨kind, 0, times - n⟩
  /-- Once it is used up, the call does what it would have done alone. So do all tasks that run after
  it, and all steps that come later. -/
  retry : ∀ a call n s', a.storeCall? = some call → Attempts a n s s' →
    s'.broker.faults.live call = none → ∀ time defer,
    Twins false (((s.without call).atTime time).step ⟨a, defer⟩) ((s'.atTime time).step ⟨a, defer⟩) ∧
    ∀ later, Twin false ((((s.without call).atTime time).step ⟨a, defer⟩).2.runTimed later)
      (((s'.atTime time).step ⟨a, defer⟩).2.runTimed later)

variable {s s' : Scene} {a : Action} {call : StoreCall} {e : StoreError} {n : Nat}

theorem perform_refused {left : Scene} (ha : a.storeCall? = some call)
    (h : s.perform a = (.failed (.store e), left)) :
    ∃ b, left = s.setBroker b ∧ Refused call s.broker b ∧
      b.faults = (s.broker.faults.trip call).2 := by
  cases a with
  | publish topic payload =>
    cases ha
    simp only [perform] at h
    cases hp : s.broker.publish topic payload with
    | mk r b =>
      rw [hp] at h
      cases r with
      | ok _ => cases h
      | error e' =>
        cases h
        exact ⟨b, rfl, publish_refused hp⟩
  | settle name v =>
    cases ha
    simp only [perform] at h
    split at h
    · cases h
    · rename_i caller _
      cases hp : s.broker.settle caller.id v with
      | mk r b =>
        rw [hp] at h
        cases r with
        | ok _ => cases h
        | error e' =>
          cases h
          exact ⟨b, rfl, (settle_refused hp).2⟩
  | notify | shutdown | subscribe | next | cancel | abort | drop | session | command | bytes | fail |
    hangUp | deafen | fault | store | idle => cases ha

/-- A refused call leaves no task to run that was not to run before. -/
theorem step_refused {defer : Bool} (ha : a.storeCall? = some call)
    (hquiet : defer = true ∨ s.broker.ready = [])
    (he : (s.step ⟨a, defer⟩).1 = .failed (.store e)) :
    ∃ b, (s.step ⟨a, defer⟩).2 = s.setBroker b ∧ Refused call s.broker b ∧
      b.faults = (s.broker.faults.trip call).2 := by
  obtain ⟨b, hb, hrefused, hfaults⟩ := perform_refused ha (Prod.ext (by exact he) rfl)
  refine ⟨b, ?_, hrefused, hfaults⟩
  simp only [step, hb]
  rcases hquiet with rfl | hquiet
  · rfl
  · have hready : (s.setBroker b).service.broker.ready = [] := hrefused.ready.trans hquiet
    rw [Service.drain_idle hready, ite_self]

theorem Attempts.refused (h : Attempts a n s s') (ha : a.storeCall? = some call) :
    ∃ b, s' = s.setBroker b ∧ Refused call s.broker b := by
  induction h with
  | start s => exact ⟨s.broker, rfl, .refl ..⟩
  | again _ time defer hquiet he ih =>
    obtain ⟨b, rfl, hrefused⟩ := ih
    obtain ⟨b', hb', hrefused', -⟩ := step_refused (s := atTime _ time) ha hquiet he
    exact ⟨b', hb', hrefused.trans ⟨hrefused'.store, hrefused'.topics, hrefused'.consumers,
      hrefused'.nextId, hrefused'.ready, hrefused'.span, hrefused'.outputs, hrefused'.faults⟩⟩

theorem Attempts.used (h : Attempts a n s s') (ha : a.storeCall? = some call) {kind : FaultKind}
    {times : Nat} (hf : s.broker.faults.look call = some ⟨kind, 0, times⟩) :
    s'.broker.faults.look call = some ⟨kind, 0, times - n⟩ := by
  induction h with
  | start s => exact hf
  | again _ time defer hquiet he ih =>
    obtain ⟨b, hb, -, hfaults⟩ := step_refused (s := atTime _ time) ha hquiet he
    rw [hb, show (setBroker _ b).broker.faults = b.faults from rfl, hfaults]
    exact Faults.look_trip (ih hf)

/-- Nobody can tell after the attempts that there were any. -/
theorem Attempts.twin (h : Attempts a n s s') (ha : a.storeCall? = some call)
    (hlive : s'.broker.faults.live call = none) (time : Int64) :
    Twin false ((s.without call).atTime time) (s'.atTime time) := by
  obtain ⟨b, rfl, hrefused⟩ := h.refused ha
  exact ⟨⟨hrefused.twin hlive time.toInt, rfl⟩, rfl, rfl⟩

/-- Whatever steps have been taken, and wherever a task is by now: a call that fails because the
store does changes nothing, and can be made again. -/
theorem store_failures_harmless (hs : s.Reachable) : s.Unharmed where
  publish _ _ _ _ _ _ h := (publish_refused h).1
  settle m hm id v e b' h := by
    obtain ⟨⟨c, hc, hh⟩, hrefused, -⟩ := settle_refused h
    have hafter := hs.accounted (hm.tail ⟨id, .settle (r := m.running) v⟩)
    rw [h] at hafter
    have hstill := (hrefused.consumer? id).trans hc
    obtain ⟨entry, rest, hclaim, htree, hgot⟩ := owned_entry hafter hstill hh
    exact ⟨hrefused, c, entry, rest, hstill, hh, hclaim, htree, hgot⟩
  next m hm id c r b' hc hrun hr := by
    rcases hrun with ⟨hw, hb⟩ | hb
    · have hflag := (Reaches.attended hm hs.watched.1).unflagged hc hw
      exact begin_unmet hc hflag hb hr
    · exact resume_unmet hc hb hr
  used _ _ _ _ _ _ ha h hf := h.used ha hf
  retry a _ _ _ ha h hlive time defer := by
    have htried := (h.twin ha hlive time).step (t := ⟨a, defer⟩) nofun
    exact ⟨htried, fun _ => htried.2.runTimed nofun⟩

/-- A consumer sleeps, and the store is about to refuse two publishes. -/
def refusals : List Step :=
  [⟨.subscribe "t" "c", false⟩, ⟨.next "c" false, false⟩, ⟨.fault .insert ⟨.closed, 0, 2⟩, false⟩]

theorem refusals_retried :
    ∃ left, Attempts (.publish "t" [1]) 2 (after refusals) left ∧
      ((left.atTime 5).step ⟨.publish "t" [1], false⟩).1 = .done ∧
      Twin false ((((after refusals).without .insert).atTime 5).step ⟨.publish "t" [1], false⟩).2
        ((left.atTime 5).step ⟨.publish "t" [1], false⟩).2 := by
  have hfirst : (((after refusals).atTime 3).step ⟨.publish "t" [1], true⟩).1 =
      .failed (.store .closed) := by decide +kernel
  have hsecond : (((((after refusals).atTime 3).step ⟨.publish "t" [1], true⟩).2.atTime 4).step
      ⟨.publish "t" [1], false⟩).1 = .failed (.store .closed) := by decide +kernel
  have htwice := ((Attempts.start (after refusals)).again 3 true (.inl rfl) hfirst).again 4 false
    (.inr (by decide +kernel)) hsecond
  have hharmless := store_failures_harmless (s := after refusals) (reachable_after (by decide))
  have hused := hharmless.used _ .insert _ _ .closed 2 rfl htwice (by decide +kernel)
  obtain ⟨⟨hanswer, htwin⟩, -⟩ := hharmless.retry _ .insert _ _ rfl htwice (Faults.live_used hused)
    5 false
  exact ⟨_, htwice, hanswer.trans (by decide +kernel), htwin⟩

end Scene

end TopicQueue

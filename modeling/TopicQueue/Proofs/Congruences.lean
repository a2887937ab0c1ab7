import TopicQueue.Proofs.AlikeSessions
import TopicQueue.Proofs.Waits

namespace TopicQueue

/-- A task has run for the call. -/
def Wait.isBegun : Wait → Bool
  | .idle | .asked => false
  | .parked | .woken => true

/-- Whose call has returned, if the note tells that. -/
def Note.returner? : Note → Option ConsumerId
  | .returned id _ => some id
  | _ => none

theorem Note.returner?_none {n : Note} (h : n.output? = none) : n.returner? = none := by
  cases n <;> first | rfl | cases h

/-- A consumer becomes another that has no message and no call under way but what it had itself, and
no other wake kept. -/
structure Consumer.Recedes (c d : Consumer) : Prop where
  topic : d.topic = c.topic
  permit : d.permit = c.permit
  holding : d.holding = true → c.holding = true
  begun : d.wait.isBegun = true → c.wait.isBegun = true

namespace Broker

/-- All that calls depend on is the same in both brokers, but for faults, and for wakes that
consumers have kept. -/
structure Similar (b b' : Broker) : Prop where
  store : b'.store = b.store
  topics : b'.topics = b.topics
  nextId : b'.nextId = b.nextId
  ready : b'.ready = b.ready
  span : b'.span = b.span
  clock : b'.clock = b.clock
  consumers : ∀ id, b.consumer? id = none ∧ b'.consumer? id = none ∨
    ∃ c permit, b.consumer? id = some c ∧ b'.consumer? id = some { c with permit }

/-- The relation outlives every way in which both brokers change. That a call has returned is not
noted in any of these. -/
structure Congruence (R : Broker → Broker → Prop) : Prop where
  similar : ∀ {b b'}, R b b' → Similar b b'
  note : ∀ {b b' n}, R b b' → n.returner? = none → R (b.note n) (b'.note n)
  change : ∀ {b b' id c d permit}, R b b' → b.consumer? id = some c →
    b'.consumer? id = some { c with permit } → c.Recedes d →
    R (b.setConsumer id d) (b'.setConsumer id { d with permit })
  /-- A consumer becomes the same in both, whatever it was. -/
  level : ∀ {b b'}, R b b' → ∀ id c, R (b.setConsumer id c) (b'.setConsumer id c)
  remove : ∀ {b b'}, R b b' → ∀ id,
    R { b with consumers := b.consumers.remove id } { b' with consumers := b'.consumers.remove id }
  /-- The same calls of the store fail in both. -/
  trip : ∀ {b b'}, R b b' → ∀ call, (b'.faults.trip call).1 = (b.faults.trip call).1 ∧
    R { b with faults := (b.faults.trip call).2 } { b' with faults := (b'.faults.trip call).2 }
  /-- What is the same in both anyway can be set to anything. -/
  adjust : ∀ {b b'}, R b b' → ∀ store topics nextId ready span clock,
    R { b with store, topics, nextId, ready, span, clock }
      { b' with store, topics, nextId, ready, span, clock }

/-- A consumer that looks at its topic finds the same in both brokers. -/
def LooksAlike (R : Broker → Broker → Prop) (id : ConsumerId) : Prop :=
  ∀ {b b'}, R b b' → Alike R (b.seek id) (b'.seek id)

/-- The relation outlives the note that a call of the consumer has returned. -/
def Returns (R : Broker → Broker → Prop) (id : ConsumerId) : Prop :=
  ∀ {b b'}, R b b' → ∀ result, R (b.note (.returned id result)) (b'.note (.returned id result))

/-- The relation outlives the arming of a fault. -/
def Arms (R : Broker → Broker → Prop) (call : StoreCall) (fault : Fault) : Prop :=
  ∀ {b b'}, R b b' → R { b with faults := b.faults.put call fault }
    { b' with faults := b'.faults.put call fault }

variable {R S : Broker → Broker → Prop} {b b' b₁ : Broker} {id : ConsumerId} {c : Consumer}

theorem Alike.mono {α : Type} {r r' : α × Broker} (h : Alike R r r')
    (hRS : ∀ {b b'}, R b b' → S b b') : Alike S r r' := by
  obtain ⟨a, h⟩ := h
  exact .mk a (hRS h)

theorem consumer?_call {α : Type} (b : Broker) (call : StoreCall) (topic : String)
    (act : Store → Except StoreError (α × Store)) (id : ConsumerId) :
    (b.call call topic act).2.consumer? id = b.consumer? id := by
  rcases b.call_cases call topic act with ⟨e, f, he⟩ | ⟨a, s, f, -, he⟩ <;>
  · rw [he]
    rfl

/-- Whoever has looked in vain falls asleep as it is then, with no wake kept. -/
theorem park_unfound (h : b.look id c = (none, b₁)) : b₁.park id = b₁.setConsumer id c.asleep := by
  have hsought := look_sought b id c
  rw [h] at hsought
  cases hsought with
  | nothing => simp [park, Consumer.asleep]

namespace Congruence

variable (k : Congruence R)
include k

theorem setStore (h : R b b') (store : Store) : R { b with store } { b' with store } := by
  have hs := k.similar h
  simpa only [hs.topics, hs.nextId, hs.ready, hs.span, hs.clock] using
    k.adjust h store b.topics b.nextId b.ready b.span b.clock

theorem setTopics (h : R b b') (topics : Table String (Roster ConsumerId)) :
    R { b with topics } { b' with topics } := by
  have hs := k.similar h
  simpa only [hs.store, hs.nextId, hs.ready, hs.span, hs.clock] using
    k.adjust h b.store topics b.nextId b.ready b.span b.clock

theorem setReady (h : R b b') (ready : List ConsumerId) : R { b with ready } { b' with ready } := by
  have hs := k.similar h
  simpa only [hs.store, hs.topics, hs.nextId, hs.span, hs.clock] using
    k.adjust h b.store b.topics b.nextId ready b.span b.clock

theorem setSpan (h : R b b') (span : Option RequestSpan) : R { b with span } { b' with span } := by
  have hs := k.similar h
  simpa only [hs.store, hs.topics, hs.nextId, hs.ready, hs.clock] using
    k.adjust h b.store b.topics b.nextId b.ready span b.clock

theorem setClock (h : R b b') (clock : Int) : R { b with clock } { b' with clock } := by
  have hs := k.similar h
  simpa only [hs.store, hs.topics, hs.nextId, hs.ready, hs.span] using
    k.adjust h b.store b.topics b.nextId b.ready b.span clock

theorem call (h : R b b') (call : StoreCall) (topic : String) {α : Type}
    (act : Store → Except StoreError (α × Store)) :
    Alike R (b.call call topic act) (b'.call call topic act) := by
  obtain ⟨hfault, hran⟩ := k.trip h call
  cases hf : (b.faults.trip call).1 with
  | some kind =>
    rw [call_faulted hf, call_faulted (hfault.trans hf)]
    exact .mk _ (k.note hran rfl)
  | none =>
    rw [call_unfaulted hf, call_unfaulted (hfault.trans hf),
      show act b'.store = act b.store by rw [(k.similar h).store]]
    cases act b.store with
    | error e => exact .mk _ (k.note hran rfl)
    | ok r => exact .mk _ (k.note (k.setStore hran r.2) rfl)

theorem isWaiting (h : R b b') (id : ConsumerId) : b'.isWaiting id = b.isWaiting id := by
  unfold Broker.isWaiting
  rcases (k.similar h).consumers id with ⟨hc, hc'⟩ | ⟨c, permit, hc, hc'⟩ <;> rw [hc, hc']

theorem enqueue (h : R b b') (id : ConsumerId) : R (b.enqueue id) (b'.enqueue id) := by
  unfold Broker.enqueue
  rw [(k.similar h).ready]
  split
  · exact h
  · exact k.setReady h _

theorem wake (h : R b b') (id : ConsumerId) : R (b.wake id) (b'.wake id) := by
  unfold Broker.wake
  rcases (k.similar h).consumers id with ⟨hc, hc'⟩ | ⟨c, permit, hc, hc'⟩
  · rw [hc, hc']
    exact h
  · rw [hc, hc']
    dsimp only
    split
    · rename_i hp
      have hroused : c.Recedes { c with waiting := false, wait := .woken } :=
        ⟨rfl, rfl, fun hh => hh, fun _ => by rw [hp]; rfl⟩
      exact k.enqueue (k.change h hc hc' hroused) id
    · exact k.level h id { c with waiting := false, permit := true }

theorem notify (h : R b b') (topic : String) (reason : WakeReason) :
    R (b.notify topic reason) (b'.notify topic reason) := by
  unfold Broker.notify
  rw [show b'.roster? topic = b.roster? topic by rw [roster?, roster?, (k.similar h).topics],
    show b'.isWaiting = b.isWaiting from funext (k.isWaiting h)]
  split
  · exact k.note h rfl
  · split
    · exact k.note h rfl
    · exact k.note (k.wake h _) rfl

theorem leave (h : R b b') (id : ConsumerId) : R (b.leave id) (b'.leave id) := by
  unfold Broker.leave
  rcases (k.similar h).consumers id with ⟨hc, hc'⟩ | ⟨c, permit, hc, hc'⟩
  · rw [hc, hc']
    exact h
  · rw [hc, hc']
    have hidle : c.Recedes { c with waiting := false, wait := .idle } :=
      ⟨rfl, rfl, fun hh => hh, nofun⟩
    have hset := k.change h hc hc' hidle
    dsimp only
    split
    · exact hset
    · exact k.notify hset c.topic .handoff

theorem look (h : R b b') (id : ConsumerId) (c : Consumer) :
    Alike R (b.look id c) (b'.look id c) := by
  cases hcancel : c.cancelled with
  | true =>
    rw [look_cancelled b hcancel, look_cancelled b' hcancel]
    exact .mk _ (k.level h id c.done)
  | false =>
    rw [look_uncancelled b id hcancel, look_uncancelled b' id hcancel]
    obtain ⟨a, b₁, b₁', he, he', h⟩ :=
      (k.call (k.level h id c.alert) .fetchNext c.topic (·.fetchNext c.topic)).cases
    rw [he, he']
    rcases a with e | - | payload
    · exact .mk _ (k.leave h id)
    · exact .mk _ h
    · have hheld := k.note (k.level h id { c.alert with holding := true })
        (n := .claimed id c.topic payload) rfl
      exact .mk _ (k.leave hheld id)

/-- Where the kept wake is the same in both, a consumer looks as often in one as in the other. -/
theorem seek (h : R b b') (hc : b'.consumer? id = b.consumer? id) :
    Alike R (b.seek id) (b'.seek id) := by
  unfold Broker.seek
  rw [hc]
  split
  · exact .mk _ h
  · rename_i c _
    obtain ⟨a, b₁, b₁', he, he', h⟩ := (k.look h id c).cases
    rw [he, he']
    cases a with
    | some result => exact .mk _ h
    | none =>
      dsimp only
      split
      · obtain ⟨a, b₂, b₂', hf, hf', h⟩ :=
          (k.look (k.note h (n := .woken id c.topic) rfl) id c).cases
        rw [hf, hf']
        cases a with
        | some result => exact .mk _ h
        | none =>
          dsimp only
          rw [park_unfound hf, park_unfound hf']
          exact .mk _ (k.level h id c.asleep)
      · rw [park_unfound he, park_unfound he']
        exact .mk _ (k.level h id c.asleep)

theorem begin (hlook : LooksAlike R id) (h : R b b') : Alike R (b.begin id) (b'.begin id) := by
  unfold Broker.begin
  rcases (k.similar h).consumers id with ⟨hc, hc'⟩ | ⟨c, permit, hc, hc'⟩
  · rw [hc, hc']
    exact .mk _ h
  · rw [hc, hc']
    dsimp only
    split
    · have hidle : c.Recedes { c with wait := .idle } := ⟨rfl, rfl, fun hh => hh, nofun⟩
      exact .mk _ (k.change h hc hc' hidle)
    · exact hlook h

theorem resume (hlook : LooksAlike R id) (h : R b b') : Alike R (b.resume id) (b'.resume id) := by
  unfold Broker.resume
  rcases (k.similar h).consumers id with ⟨hc, hc'⟩ | ⟨c, permit, hc, hc'⟩
  · rw [hc, hc']
    exact .mk _ h
  · rw [hc, hc']
    dsimp only
    split
    · split
      · exact .mk _ (k.leave (k.level h id { c with permit := true }) id)
      · exact .mk _ (k.leave h id)
    · split
      · exact hlook (k.note h rfl)
      · exact .mk _ h

theorem runNext (hlook : LooksAlike R id) (hret : Returns R id) (h : R b b') :
    R (b.runNext id) (b'.runNext id) := by
  unfold Broker.runNext
  rcases (k.similar h).consumers id with ⟨hc, hc'⟩ | ⟨c, permit, hc, hc'⟩
  · rw [hc, hc']
    exact h
  · rw [hc, hc']
    have hbegin := k.begin hlook h
    have hresume := k.resume hlook h
    -- what the call answers is all that is left to look at
    generalize b.begin id = r, b'.begin id = r' at hbegin ⊢
    generalize b.resume id = q, b'.resume id = q' at hresume ⊢
    obtain ⟨a, hbegin⟩ := hbegin
    obtain ⟨e, hresume⟩ := hresume
    dsimp only
    cases c.wait with
    | idle => exact h
    | asked =>
      cases a with
      | none => exact hbegin
      | some result => exact hret hbegin result
    | parked | woken =>
      cases e with
      | none => exact hresume
      | some result => exact hret hresume result

theorem ask (h : R b b') (id : ConsumerId) (cancelled : Bool) :
    R (b.ask id cancelled) (b'.ask id cancelled) := by
  unfold Broker.ask
  rcases (k.similar h).consumers id with ⟨hc, hc'⟩ | ⟨c, permit, hc, hc'⟩
  · rw [hc, hc']
    exact h
  · rw [hc, hc']
    have hasked : c.Recedes { c with cancelled, wait := .asked } :=
      ⟨rfl, rfl, fun hh => hh, nofun⟩
    exact k.enqueue (k.change h hc hc' hasked) id

theorem cancel (h : R b b') (id : ConsumerId) : R (b.cancel id) (b'.cancel id) := by
  unfold Broker.cancel
  rcases (k.similar h).consumers id with ⟨hc, hc'⟩ | ⟨c, permit, hc, hc'⟩
  · rw [hc, hc']
    exact h
  · rw [hc, hc']
    have hcancelled : c.Recedes { c with cancelled := true } :=
      ⟨rfl, rfl, fun hh => hh, fun hw => hw⟩
    have hset := k.change h hc hc' hcancelled
    dsimp only
    split
    · exact k.enqueue hset id
    · exact hset

theorem abandon (h : R b b') (id : ConsumerId) : R (b.abandon id) (b'.abandon id) := by
  unfold Broker.abandon
  rcases (k.similar h).consumers id with ⟨hc, hc'⟩ | ⟨c, permit, hc, hc'⟩
  · rw [hc, hc']
    exact h
  · rw [hc, hc', (k.similar h).ready]
    have hoff := k.setReady h (b.ready.filter (· != id))
    dsimp only
    cases c.wait with
    | idle => exact hoff
    | asked =>
      have hidle : c.Recedes { c with wait := .idle } := ⟨rfl, rfl, fun hh => hh, nofun⟩
      exact k.change hoff hc hc' hidle
    | parked => exact k.leave hoff id
    | woken => exact k.leave (k.level hoff id { c with permit := true, wait := .woken }) id

theorem settle (h : R b b') (id : ConsumerId) (v : Verdict) :
    Alike R (b.settle id v) (b'.settle id v) := by
  rcases (k.similar h).consumers id with ⟨hc, hc'⟩ | ⟨c, permit, hc, hc'⟩
  · simp only [Broker.settle, hc, hc']
    exact .mk _ h
  · cases hh : c.holding with
    | false =>
      rw [settle_idle hc hh, settle_idle hc' hh]
      exact .mk _ h
    | true =>
      rw [settle_holding hc hh, settle_holding hc' hh]
      have hcalled := b.consumer?_call v.call c.topic (fun s => (v.apply c.topic s).map ((), ·)) id
      have hcalled' := b'.consumer?_call v.call c.topic
        (fun s => (v.apply c.topic s).map ((), ·)) id
      obtain ⟨a, b₁, b₁', he, he', h⟩ :=
        (k.call h v.call c.topic (fun s => (v.apply c.topic s).map ((), ·))).cases
      rw [he] at hcalled
      rw [he'] at hcalled'
      dsimp only
      rw [he, he']
      cases a with
      | error e => exact .mk _ h
      | ok _ =>
        have hempty : c.Recedes { c with holding := false } :=
          ⟨rfl, rfl, fun hh => absurd hh Bool.false_ne_true, fun hw => hw⟩
        have hset := k.change h (hcalled.trans hc) (hcalled'.trans hc') hempty
        refine .mk _ (k.notify (k.note hset ?_) c.topic v.reason)
        cases v <;> rfl

theorem unsubscribe (h : R b b') (topic : String) (id : ConsumerId) :
    R (b.unsubscribe topic id) (b'.unsubscribe topic id) := by
  unfold Broker.unsubscribe
  simp only [roster?, (k.similar h).topics]
  exact k.note (k.setTopics h _) rfl

theorem forget (h : R b b') (id : ConsumerId) (topic : String) :
    R (b.forget id topic) (b'.forget id topic) :=
  k.remove (k.unsubscribe h topic id) id

theorem release (h : R b b') (id : ConsumerId) : R (b.release id) (b'.release id) := by
  rcases (k.similar h).consumers id with ⟨hc, hc'⟩ | ⟨c, permit, hc, hc'⟩
  · simp only [Broker.release, hc, hc']
    exact h
  · cases hh : c.holding with
    | false =>
      rw [release_idle hc hh, release_idle hc' hh]
      exact k.forget h id c.topic
    | true =>
      rw [release_holding hc hh, release_holding hc' hh]
      obtain ⟨a, b₁, b₁', he, he', h⟩ := (k.settle h id .nack).cases
      rw [he, he']
      cases a with
      | error e => exact k.forget (k.note h (n := .releaseFailed id c.topic e) rfl) id c.topic
      | ok _ => exact k.forget (k.note h (n := .releaseRequeued id c.topic) rfl) id c.topic

theorem publish (h : R b b') (topic : String) (payload : Bytes) :
    Alike R (b.publish topic payload) (b'.publish topic payload) := by
  unfold Broker.publish
  rw [(k.similar h).clock]
  obtain ⟨a, b₁, b₁', he, he', h⟩ := (k.call h .insert topic
    (fun s => (s.insert topic payload b.clock).map ((), ·))).cases
  rw [he, he']
  cases a with
  | error e => exact .mk _ h
  | ok _ => exact .mk _ (k.notify (k.note h (n := .stored topic payload) rfl) topic .publish)

theorem shutdown (h : R b b') : Alike R b.shutdown b'.shutdown := by
  unfold Broker.shutdown
  obtain ⟨a, b₁, b₁', he, he', h⟩ := (k.call h .close "" (fun s => .ok ((), s.close))).cases
  rw [he, he']
  cases a with
  | error e => exact .mk _ h
  | ok _ => exact .mk _ h

theorem subscribe (h : R b b') (topic : String) :
    Alike R (b.subscribe topic) (b'.subscribe topic) := by
  have hs := k.similar h
  have hjoined := k.adjust (k.level h b.nextId { topic }) b.store
    (b.topics.put topic (((b.roster? topic).getD { topic }).enrol b.nextId)) (b.nextId + 1) b.ready
    b.span b.clock
  unfold Broker.subscribe
  simp only [roster?, hs.topics, hs.nextId]
  refine .mk _ (k.note ?_ rfl)
  simpa only [setConsumer, roster?, hs.store, hs.ready, hs.span, hs.clock] using hjoined

/-- Whatever a session does, it does in both. -/
theorem likeness (hlook : LooksAlike R id) : Session.Likeness R id id where
  note h hn := k.note h (Note.returner?_none hn)
  took h _ := k.note h rfl
  finished h := k.note h rfl
  wrote h _ := k.note h rfl
  ended h := k.note h rfl
  begin h := k.begin hlook h
  resume h := k.resume hlook h
  settle h v := k.settle h id v
  release h := k.release h id
  cancelled h := by
    unfold Session.isCancelled
    rcases (k.similar h).consumers id with ⟨hc, hc'⟩ | ⟨c, permit, hc, hc'⟩ <;> rw [hc, hc']

end Congruence

end Broker

end TopicQueue

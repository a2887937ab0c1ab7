import TopicQueue.Proofs.Conservation

namespace TopicQueue

/-- A requeue that has failed. -/
def Note.isFailedRequeue : Note → Bool
  | .called .requeue _ (some _) => true
  | _ => false

namespace Ledger

variable {l l' : Ledger}

/-- Every claim has its holder. -/
def Held (l : Ledger) : Prop :=
  ∀ topic, (l.store.queue topic).claimed = true → ∃ id, l.holder id = some (topic, true)

/-- No requeue has failed. -/
def Requeues (l : Ledger) : Prop := ∀ n ∈ l.records, n.isFailedRequeue = false

theorem Step.records_subset (h : Step l l') {n : Note} (hn : n ∈ l.records) : n ∈ l'.records := by
  cases h with
  | stored | refused | claimed | settled => exact List.mem_cons_of_mem _ hn
  | closed | joined | left | ticked => exact hn

theorem Step.requeues (h : Step l l') (hr : l'.Requeues) : l.Requeues :=
  fun n hn => hr n (h.records_subset hn)

/-- A holder stays one while somebody else changes. -/
theorem holds_update {i : ConsumerId} {v : Option (String × Bool)} {topic : String}
    (hi : l.holder i ≠ some (topic, true)) (h : ∃ id, l.holder id = some (topic, true)) :
    ∃ id, Function.update l.holder i v id = some (topic, true) := by
  obtain ⟨id, hid⟩ := h
  have hne : id ≠ i := by
    rintro rfl
    exact hi hid
  exact ⟨id, by rw [Function.update_of_ne hne, hid]⟩

theorem Accounted.step_held (h : l.Accounted) (hs : Step l l') (hr : l'.Requeues) (hh : l.Held) :
    l'.Held := by
  intro topic hc
  cases hs with
  | @stored s t payload hi =>
    obtain ⟨-, hq⟩ := h.sound.inserted h.clock hi
    refine hh topic ?_
    by_cases ht : topic = t
    · simpa [hq, ← ht] using hc
    · simpa [hq, ht] using hc
  | refused | closed | ticked => exact hh topic hc
  | @claimed s i t held payload hid hf =>
    obtain ⟨-, -, -, hq⟩ := h.sound.fetched hf
    by_cases ht : topic = t
    · exact ⟨i, by simp [ht]⟩
    · refine holds_update ?_ (hh topic (by simpa [hq, ht] using hc))
      simp [hid, Ne.symm ht]
  | @settled s i t v hid hv =>
    obtain ⟨-, -, hq⟩ := h.sound.applied hv
    by_cases ht : topic = t
    · simp [hq, ht] at hc
    · refine holds_update ?_ (hh topic (by simpa [hq, ht] using hc))
      simp [hid, Ne.symm ht]
  | joined t =>
    refine holds_update ?_ (hh topic hc)
    simp [h.fresh l.nextId (Nat.le_refl _)]
  | @left i t held hid hleft =>
    refine holds_update ?_ (hh topic hc)
    rintro hi
    -- One that leaves with a message has tried to put it back.
    rw [hid] at hi
    obtain ⟨-, rfl⟩ : t = topic ∧ held = true := by simpa using hi
    obtain ⟨e, he⟩ := hleft rfl
    cases hr _ he

theorem Accounted.held (h : l.Accounted) (hh : l.Held) (hs : Steps l l') (hr : l'.Requeues) :
    l'.Held := by
  induction hs with
  | refl => exact hh
  | tail hsteps hstep ih => exact (h.steps hsteps).step_held hstep hr (ih (hstep.requeues hr))

end Ledger

namespace Broker

variable {b b' : Broker} {id other : ConsumerId} {topic : String}

/-- A consumer of the topic that is there and has a message. -/
def Holds (b : Broker) (id : ConsumerId) (topic : String) : Prop :=
  ∃ c, b.consumer? id = some c ∧ c.topic = topic ∧ c.holding = true

/-- No requeue has failed. -/
def Requeues (b : Broker) : Prop := ∀ n ∈ b.records, n.isFailedRequeue = false

instance (b : Broker) : Decidable b.Requeues :=
  inferInstanceAs (Decidable (∀ n ∈ b.records, n.isFailedRequeue = false))

theorem holds_iff : b.Holds id topic ↔ b.ledger.holder id = some (topic, true) := by
  simp [Holds, ledger]

/-- A consumer is gone, and what it held can be claimed or is somebody else's by now. -/
structure GivenBack (b : Broker) (id : ConsumerId) : Prop where
  gone : b.consumer? id = none
  free : b.Requeues → ∀ topic, b.store.claim? topic = none ∨
    ∃ other, other ≠ id ∧ b.Holds other topic

end Broker

namespace Scene
open Broker

variable {s : Scene} {id : ConsumerId} {m : Moment}

/-- Whatever has been asked of the broker, a topic is claimed just while one consumer of it, and
no other, holds a message. -/
theorem Reachable.claim_iff (hs : s.Reachable) (hm : Reaches ⟨s.broker, none⟩ m)
    (hr : m.broker.Requeues) (topic : String) :
    (m.broker.store.claim? topic).isSome = true ↔ ∃! id, m.broker.Holds id topic := by
  have h := hs.accounted hm
  obtain ⟨flushOnInsert, hstart⟩ := hs.reaches
  have hnone : (Broker.ledger { store := { flushOnInsert } }).Held := by
    intro topic hc
    cases hc
  have hheld := (Ledger.accounted_start flushOnInsert).held hnone
    (Reaches.steps (hstart.trans hm)) hr
  constructor
  · intro hc
    obtain ⟨id, hid⟩ := hheld topic hc
    refine ⟨id, holds_iff.mpr hid, fun other ho => ?_⟩
    exact h.alone other id topic (holds_iff.mp ho) hid
  · rintro ⟨id, hid, -⟩
    exact (h.owned id topic (holds_iff.mp hid)).1

theorem Reachable.givenBack (hs : s.Reachable) (hm : Reaches ⟨s.broker, none⟩ m)
    (hgone : m.broker.consumer? id = none) : m.broker.GivenBack id := by
  refine ⟨hgone, fun hr topic => ?_⟩
  cases hc : m.broker.store.claim? topic with
  | none => exact .inl rfl
  | some key =>
    obtain ⟨other, ho, -⟩ := (hs.claim_iff hm hr topic).mp (by simp [hc])
    refine .inr ⟨other, ?_, ho⟩
    rintro rfl
    obtain ⟨c, hc, -⟩ := ho
    rw [hgone] at hc
    cases hc

/-- A session's run that ends it takes its consumer away. -/
theorem Reachable.run_ended (hs : s.Reachable) {service : Service} {session : Session}
    (hd : s.service.dequeue = some (id, service))
    (hid : service.sessions.look id = some session)
    (hended : (service.run id).sessions.look id = none) :
    (service.run id).broker.consumer? id = none :=
  (hs.orderly.service.dequeued hd).run_gone hid hended

/-- What is known of claims and of the consumers that are there, those of running sessions
included, whatever has been asked of the broker of a scene. -/
structure Unleaked (s : Scene) : Prop where
  /-- A topic is claimed just while one consumer of it, and no other, holds a message. -/
  claimed : ∀ m, Reaches ⟨s.broker, none⟩ m → m.broker.Requeues → ∀ topic,
    ((m.broker.store.claim? topic).isSome = true ↔ ∃! id, m.broker.Holds id topic)
  /-- Whoever is gone has left no claim behind. -/
  gone : ∀ m, Reaches ⟨s.broker, none⟩ m → ∀ id, m.broker.consumer? id = none →
    m.broker.GivenBack id
  /-- A consumer that is dropped is gone. -/
  dropped : ∀ name caller, s.callers.look name = some caller →
    (s.perform (.drop name)).2.broker.GivenBack caller.id
  /-- The consumer of a session is gone at the end of the run in which the session ends, for
  whatever reason that is. -/
  ended : ∀ id session service, s.service.dequeue = some (id, service) →
    service.sessions.look id = some session → (service.run id).sessions.look id = none →
    (service.run id).broker.GivenBack id

/-- As long as no requeue has failed, whatever else has: claims and those who hold them come and go
together, and no end of a consumer leaves its topic blocked. -/
theorem no_claim_leaked (hs : s.Reachable) : s.Unleaked where
  claimed _ hm hr topic := hs.claim_iff hm hr topic
  gone _ hm _ hgone := hs.givenBack hm hgone
  dropped name caller hc := by
    have hs' : (s.perform (.drop name)).2.Reachable := hs.act rfl
    refine hs'.givenBack .refl ?_
    simp only [perform, hc]
    exact consumer?_release _ _
  ended id session service hd hid hended :=
    (hs.task hd).givenBack .refl (hs.run_ended hd hid hended)

/-- The commit of a session fails, which ends it, and another consumer gets its message. -/
def failedAck : List Step :=
  [⟨.subscribe "t" "c", false⟩, ⟨.session "t" "s" false, false⟩, ⟨.publish "t" [1], false⟩,
   ⟨.command "s" .init, false⟩, ⟨.fault .commit ⟨.closed, 0, 1⟩, false⟩, ⟨.next "c" false, false⟩,
   ⟨.command "s" .ack, false⟩]

theorem failedAck_unleaked :
    (after failedAck).Unleaked ∧ (after failedAck).broker.Requeues ∧
    (after failedAck).broker.consumer? 1 = none ∧
    ((after failedAck).broker.store.claim? "t").isSome = true ∧
    ((after failedAck).broker.consumer? 0).map (·.holding) = some true :=
  ⟨no_claim_leaked (reachable_after (by decide)), by decide +kernel, by decide +kernel,
    by decide +kernel, by decide +kernel⟩

end Scene

end TopicQueue

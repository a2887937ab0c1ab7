import TopicQueue.Proofs.Ledger

namespace TopicQueue

/-- A broker between two calls. -/
structure Moment where
  broker : Broker
  /-- The task that runs, if one does. -/
  running : Option ConsumerId

/-- The calls that one consumer or others on no consumer's behalf can make. A consumer has at most
one call for a message at a time, and it is the running task that takes it further. -/
inductive Call (id : ConsumerId) : Moment → Moment → Prop where
  | note {b r} (n : Note) (h : n.isRecord = false) : Call id ⟨b, r⟩ ⟨b.note n, r⟩
  | span {b r} (span : Option RequestSpan) : Call id ⟨b, r⟩ ⟨{ b with span }, r⟩
  | tick {b r} (t : Int64) : Call id ⟨b, r⟩ ⟨{ b with clock := t.toInt }, r⟩
  | arm {b r} (faults : Faults) : Call id ⟨b, r⟩ ⟨{ b with faults }, r⟩
  | publish {b r} (topic : String) (payload : Bytes) :
      Call id ⟨b, r⟩ ⟨(b.publish topic payload).2, r⟩
  | notify {b r} (topic : String) (reason : WakeReason) :
      Call id ⟨b, r⟩ ⟨b.notify topic reason, r⟩
  | shutdown {b r} : Call id ⟨b, r⟩ ⟨b.shutdown.2, r⟩
  | subscribe {b r} (topic : String) : Call id ⟨b, r⟩ ⟨(b.subscribe topic).2, r⟩
  | enqueue {b r} (other : ConsumerId) : Call id ⟨b, r⟩ ⟨b.enqueue other, r⟩
  | ask {b r} (cancelled : Bool) (h : ∀ c, b.consumer? id = some c → c.wait = .idle) :
      Call id ⟨b, r⟩ ⟨b.ask id cancelled, r⟩
  | cancel {b r} : Call id ⟨b, r⟩ ⟨b.cancel id, r⟩
  | abandon {b r} : Call id ⟨b, r⟩ ⟨b.abandon id, r⟩
  | settle {b r} (v : Verdict) : Call id ⟨b, r⟩ ⟨(b.settle id v).2, r⟩
  | release {b r} (h : ∀ c, b.consumer? id = some c → c.wait = .idle) :
      Call id ⟨b, r⟩ ⟨b.release id, r⟩
  | take {b rest} (h : b.ready = id :: rest) : Call id ⟨b, none⟩ ⟨{ b with ready := rest }, some id⟩
  | begin {b} (h : ∀ c, b.consumer? id = some c → c.wait = .idle ∨ c.wait = .asked) :
      Call id ⟨b, some id⟩ ⟨(b.begin id).2, some id⟩
  | resume {b} (h : ∀ c, b.consumer? id = some c → c.wait = .parked ∨ c.wait = .woken) :
      Call id ⟨b, some id⟩ ⟨(b.resume id).2, some id⟩
  | rest {b} (h : ∀ c, b.consumer? id = some c → c.wait = .idle ∨ c.wait = .parked) :
      Call id ⟨b, some id⟩ ⟨b, none⟩

/-- Calls of one consumer, one after another. -/
abbrev Leads (id : ConsumerId) : Moment → Moment → Prop := Relation.ReflTransGen (Call id)

/-- Calls of anybody, one after another. -/
abbrev Reaches : Moment → Moment → Prop := Relation.ReflTransGen fun m m' => ∃ id, Call id m m'

theorem Leads.reaches {id : ConsumerId} {m m' : Moment} (h : Leads id m m') : Reaches m m' := by
  induction h with
  | refl => exact .refl
  | tail _ hcall ih => exact ih.tail ⟨id, hcall⟩

theorem Call.steps {id : ConsumerId} {m m' : Moment} (h : Call id m m') :
    Ledger.Steps m.broker.ledger m'.broker.ledger := by
  cases h with
  | note n hn => exact Broker.steps_of_eq (Broker.ledger_note hn)
  | span => exact .refl
  | tick t => exact .single (.ticked t)
  | arm => exact .refl
  | publish topic payload => exact Broker.publish_steps _ topic payload
  | notify topic reason => exact Broker.steps_of_eq (Broker.ledger_notify _ topic reason)
  | shutdown => exact Broker.shutdown_steps _
  | subscribe topic => exact Broker.subscribe_steps _ topic
  | enqueue other => exact Broker.steps_of_eq (Broker.ledger_enqueue _ other)
  | ask cancelled => exact Broker.steps_of_eq (Broker.ledger_ask _ id cancelled)
  | cancel => exact Broker.steps_of_eq (Broker.ledger_cancel _ id)
  | abandon => exact Broker.steps_of_eq (Broker.ledger_abandon _ id)
  | settle v => exact Broker.settle_steps _ id v
  | release => exact Broker.release_steps _ id
  | take => exact .refl
  | begin => exact Broker.begin_steps _ id
  | resume => exact Broker.resume_steps _ id
  | rest => exact .refl

theorem Reaches.steps {m m' : Moment} (h : Reaches m m') :
    Ledger.Steps m.broker.ledger m'.broker.ledger := by
  induction h with
  | refl => exact .refl
  | tail _ hcall ih =>
    obtain ⟨id, hcall⟩ := hcall
    exact ih.trans hcall.steps

/-- A consumer that somebody has woken. -/
def Consumer.roused (c : Consumer) : Consumer :=
  if c.wait = .parked then { c with waiting := false, wait := .woken }
  else { c with waiting := false, permit := true }

namespace Broker

variable {b b' : Broker} {id other : ConsumerId} {c : Consumer}

/-- A consumer is as it was, or it waited and was woken. -/
def Spared (other : ConsumerId) (b b' : Broker) : Prop :=
  b'.consumer? other = b.consumer? other ∨
    ∃ c, b.consumer? other = some c ∧ c.waiting = true ∧ b'.consumer? other = some c.roused

@[simp] theorem consumer?_enqueue (b : Broker) (id other : ConsumerId) :
    (b.enqueue id).consumer? other = b.consumer? other := by
  unfold enqueue
  split <;> rfl

theorem consumer?_wake (h : b.consumer? id = some c) (other : ConsumerId) :
    (b.wake id).consumer? other = if other = id then some c.roused else b.consumer? other := by
  unfold wake Consumer.roused
  rw [h]
  dsimp only
  split <;> simp [consumer?_setConsumer]

theorem spared_notify (b : Broker) (topic : String) (reason : WakeReason) (other : ConsumerId) :
    Spared other b (b.notify topic reason) := by
  rcases b.notify_cases topic reason with ⟨n, -, he, -⟩ | ⟨id, c, r, -, -, hc, hw, he⟩
  · exact .inl (by rw [he, consumer?_note])
  · rw [he]
    unfold Spared
    rw [consumer?_note, consumer?_wake hc]
    by_cases ho : other = id
    · exact .inr ⟨c, by rw [ho, hc], hw, if_pos ho⟩
    · exact .inl (if_neg ho)

theorem Spared.of_eq (h : b'.consumer? other = b.consumer? other) : Spared other b b' := .inl h

theorem Spared.before {b₀ : Broker} (h : Spared other b b')
    (he : b.consumer? other = b₀.consumer? other) : Spared other b₀ b' := by
  unfold Spared at h ⊢
  rwa [← he]

theorem Spared.after {b₁ : Broker} (h : Spared other b b')
    (he : b₁.consumer? other = b'.consumer? other) : Spared other b b₁ := by
  unfold Spared at h ⊢
  rwa [he]

theorem spared_leave (hne : other ≠ id) : Spared other b (b.leave id) := by
  unfold leave
  split
  · exact .of_eq rfl
  · rename_i c hc
    have hset : (b.setConsumer id { c with waiting := false, wait := .idle }).consumer? other =
        b.consumer? other := by simp [consumer?_setConsumer, hne]
    dsimp only
    split
    · exact .of_eq hset
    · exact (spared_notify _ c.topic .handoff other).before hset

theorem consumer?_became (hne : other ≠ id) (f : Faults) (j : Journal) (s : Store) (c : Consumer) :
    (b.became f j s id c).consumer? other = b.consumer? other := by
  simp [became, consumer?, Table.look_put, hne]

@[simp] theorem consumer?_became_self (b : Broker) (f : Faults) (j : Journal) (s : Store)
    (id : ConsumerId) (c : Consumer) : (b.became f j s id c).consumer? id = some c :=
  Table.look_put_self b.consumers id c

theorem spared_publish (b : Broker) (topic : String) (payload : Bytes) (other : ConsumerId) :
    Spared other b (b.publish topic payload).2 := by
  rcases b.publish_cases topic payload with ⟨e, f, he⟩ | ⟨s, f, hs, he⟩
  · rw [he]
    exact .of_eq rfl
  · rw [he]
    exact (spared_notify _ topic .publish other).before rfl

theorem spared_shutdown (b : Broker) (other : ConsumerId) : Spared other b b.shutdown.2 := by
  rcases b.shutdown_cases with ⟨e, f, he⟩ | ⟨f, he⟩ <;>
  · rw [he]
    exact .of_eq rfl

theorem Sought.spared {rest : Consumer} {r : Option (Except BrokerError Bytes) × Broker}
    (h : Sought b id c rest r) (hne : other ≠ id) : Spared other b r.2 := by
  cases h <;> exact .of_eq (consumer?_became hne _ _ _ _)

theorem spared_begin (hne : other ≠ id) : Spared other b (b.begin id).2 := by
  cases h : b.consumer? id with
  | none => exact .of_eq (by simp [begin, h])
  | some c =>
    rcases begin_cases h with ⟨-, he⟩ | ⟨-, hs⟩
    · exact .of_eq (by simp [he, consumer?_setConsumer, hne])
    · exact hs.spared hne

theorem spared_resume (hne : other ≠ id) : Spared other b (b.resume id).2 := by
  cases h : b.consumer? id with
  | none => exact .of_eq (by simp [resume, h])
  | some c =>
    cases hc : c.cancelled with
    | true =>
      rw [resume_cancelled h hc]
      refine (spared_leave hne).before ?_
      split <;> simp [consumer?_setConsumer, hne]
    | false =>
      by_cases hw : c.wait = .woken
      · exact ((resume_woken h hc hw).spared hne).before rfl
      · rw [resume_asleep h hc hw]
        exact .of_eq rfl

theorem spared_settle (hne : other ≠ id) (v : Verdict) : Spared other b (b.settle id v).2 := by
  cases h : b.consumer? id with
  | none => exact .of_eq (by simp [settle, h])
  | some c =>
    cases hh : c.holding with
    | false =>
      rw [settle_idle h hh]
      exact .of_eq rfl
    | true =>
      rcases settle_cases h hh v with ⟨e, f, he⟩ | ⟨s, f, hs, he⟩
      · rw [he]
        exact .of_eq rfl
      · rw [he]
        exact (spared_notify _ c.topic v.reason other).before (consumer?_became hne _ _ _ _)

theorem consumer?_forget (hne : other ≠ id) (topic : String) :
    (b.forget id topic).consumer? other = b.consumer? other := by
  simp [forget, consumer?, Table.look_remove, hne]

theorem spared_release (hne : other ≠ id) : Spared other b (b.release id) := by
  cases h : b.consumer? id with
  | none => exact .of_eq (by simp [release, h])
  | some c =>
    cases hh : c.holding with
    | false =>
      rw [release_idle h hh]
      exact .of_eq (consumer?_forget hne c.topic)
    | true =>
      rw [release_holding h hh]
      have hsettle := spared_settle (b := b) hne .nack
      refine hsettle.after ((consumer?_forget hne c.topic).trans ?_)
      split <;> simp_all

theorem spared_ask (hne : other ≠ id) (cancelled : Bool) : Spared other b (b.ask id cancelled) := by
  unfold ask
  split
  · exact .of_eq rfl
  · exact .of_eq (by simp [consumer?_setConsumer, hne])

theorem spared_cancel (hne : other ≠ id) : Spared other b (b.cancel id) := by
  unfold cancel
  split
  · exact .of_eq rfl
  · dsimp only
    split <;> exact .of_eq (by simp [consumer?_setConsumer, hne])

theorem spared_abandon (hne : other ≠ id) : Spared other b (b.abandon id) := by
  unfold abandon
  split
  · exact .of_eq rfl
  · rename_i c hc
    dsimp only
    split
    · exact .of_eq rfl
    · exact .of_eq (by simp [consumer?, setConsumer, Table.look_put, hne])
    · exact (spared_leave hne).before rfl
    · exact (spared_leave hne).before (by simp [consumer?, setConsumer, Table.look_put, hne])

end Broker

/-- Calls of one consumer do nothing to another but wake it. -/
theorem Call.spared {id other : ConsumerId} {m m' : Moment} (h : Call id m m') (hne : other ≠ id)
    (hother : other ≠ m.broker.nextId) : Broker.Spared other m.broker m'.broker := by
  cases h with
  | note => exact .of_eq rfl
  | span => exact .of_eq rfl
  | tick => exact .of_eq rfl
  | arm => exact .of_eq rfl
  | publish topic payload => exact Broker.spared_publish _ topic payload other
  | notify topic reason => exact Broker.spared_notify _ topic reason other
  | shutdown => exact Broker.spared_shutdown _ other
  | subscribe topic =>
    exact .of_eq (by simp [Broker.subscribe, Broker.consumer?, Broker.note, Table.look_put, hother])
  | enqueue other' => exact .of_eq (Broker.consumer?_enqueue _ other' other)
  | ask cancelled => exact Broker.spared_ask hne cancelled
  | cancel => exact Broker.spared_cancel hne
  | abandon => exact Broker.spared_abandon hne
  | settle v => exact Broker.spared_settle hne v
  | release => exact Broker.spared_release hne
  | take => exact .of_eq rfl
  | begin => exact Broker.spared_begin hne
  | resume => exact Broker.spared_resume hne
  | rest => exact .of_eq rfl

end TopicQueue

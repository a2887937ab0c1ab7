import Mathlib.Logic.Relation
import TopicQueue.Proofs.ConsumerCalls

namespace TopicQueue

structure Ledger where
  store : Store
  /-- The topic of each consumer, and whether it holds a message. -/
  holder : ConsumerId → Option (String × Bool)
  nextId : ConsumerId
  /-- The latest first. -/
  records : List Note
  now : Int

namespace Ledger

inductive Step : Ledger → Ledger → Prop where
  | stored {l s topic payload} (h : l.store.insert topic payload l.now = .ok s) :
      Step l { l with store := s, records := .stored topic payload :: l.records }
  | refused {l} (call topic e) :
      Step l { l with records := .called call topic (some e) :: l.records }
  | claimed {l s id topic held payload} (hid : l.holder id = some (topic, held))
      (h : l.store.fetchNext topic = .ok (some payload, s)) :
      Step l { l with
        store := s
        holder := Function.update l.holder id (some (topic, true))
        records := .claimed id topic payload :: l.records }
  | settled {l s id topic} (v : Verdict) (hid : l.holder id = some (topic, true))
      (h : v.apply topic l.store = .ok s) :
      Step l { l with
        store := s
        holder := Function.update l.holder id (some (topic, false))
        records := v.record id topic :: l.records }
  | closed {l} : Step l { l with store := l.store.close }
  | joined {l} (topic) :
      Step l { l with
        nextId := l.nextId + 1
        holder := Function.update l.holder l.nextId (some (topic, false)) }
  /-- One that still holds a message leaves only after a requeue has failed. -/
  | left {l id topic held} (hid : l.holder id = some (topic, held))
      (h : held = true → ∃ e, .called .requeue topic (some e) ∈ l.records) :
      Step l { l with holder := Function.update l.holder id none }
  | ticked {l} (t : Int64) : Step l { l with now := t.toInt }

abbrev Steps : Ledger → Ledger → Prop := Relation.ReflTransGen Step

end Ledger

namespace Broker

def ledger (b : Broker) : Ledger :=
  ⟨b.store, fun id => (b.consumer? id).map fun c => (c.topic, c.holding), b.nextId, b.records,
    b.clock⟩

variable {b : Broker} {id : ConsumerId} {c : Consumer}

theorem ledger_note {n : Note} (h : n.isRecord = false) : (b.note n).ledger = b.ledger := by
  simp [ledger, note, records, consumer?, h]

theorem ledger_note_record {n : Note} (h : n.isRecord = true) :
    (b.note n).ledger = { b.ledger with records := n :: b.records } := by
  simp [ledger, note, records, consumer?, h]

theorem holder_eq (h : b.consumer? id = some c) :
    b.ledger.holder id = some (c.topic, c.holding) := by
  simp [ledger, h]

theorem holder_setConsumer (b : Broker) (id : ConsumerId) (c : Consumer) :
    (b.setConsumer id c).ledger.holder =
      Function.update b.ledger.holder id (some (c.topic, c.holding)) := by
  funext other
  rw [Function.update_apply]
  simp only [ledger, consumer?_setConsumer]
  split <;> rfl

/-- Waits and flags do not show in the ledger. -/
theorem ledger_setConsumer {c' : Consumer} (h : b.consumer? id = some c)
    (ht : c'.topic = c.topic) (hh : c'.holding = c.holding) :
    (b.setConsumer id c').ledger = b.ledger := by
  have hholder := holder_setConsumer b id c'
  rw [ht, hh, ← holder_eq h, Function.update_eq_self] at hholder
  simp only [ledger, setConsumer, records, consumer?] at hholder ⊢
  rw [hholder]

theorem ledger_became (b : Broker) (f : Faults) (j : Journal) (s : Store) (id : ConsumerId)
    (c : Consumer) :
    (b.became f j s id c).ledger = { b.ledger with
      store := s
      holder := Function.update b.ledger.holder id (some (c.topic, c.holding))
      records := Journal.records j ++ b.records } := by
  have hholder := holder_setConsumer b id c
  simp only [ledger, setConsumer, consumer?, became, records] at hholder ⊢
  rw [hholder]
  simp

theorem ledger_enqueue (b : Broker) (id : ConsumerId) : (b.enqueue id).ledger = b.ledger := by
  unfold enqueue
  split <;> rfl

theorem ledger_wake (b : Broker) (id : ConsumerId) : (b.wake id).ledger = b.ledger := by
  unfold wake
  split
  · rfl
  · rename_i c hc
    split
    · exact (ledger_enqueue _ id).trans (ledger_setConsumer hc rfl rfl)
    · exact ledger_setConsumer hc rfl rfl

theorem ledger_notify (b : Broker) (topic : String) (reason : WakeReason) :
    (b.notify topic reason).ledger = b.ledger := by
  rcases b.notify_cases topic reason with ⟨n, hn, he, -⟩ | ⟨id, c, r, -, -, -, -, he⟩
  · rw [he, ledger_note hn]
  · rw [he, ledger_note rfl, ledger_wake]

theorem store_notify (b : Broker) (topic : String) (reason : WakeReason) :
    (b.notify topic reason).store = b.store :=
  congrArg Ledger.store (ledger_notify b topic reason)

theorem ledger_leave (b : Broker) (id : ConsumerId) : (b.leave id).ledger = b.ledger := by
  unfold leave
  split
  · rfl
  · rename_i c hc
    dsimp only
    split
    · exact ledger_setConsumer hc rfl rfl
    · exact (ledger_notify _ c.topic .handoff).trans (ledger_setConsumer hc rfl rfl)

theorem steps_of_eq {b' : Broker} (h : b'.ledger = b.ledger) : Ledger.Steps b.ledger b'.ledger := by
  rw [h]

theorem publish_steps (b : Broker) (topic : String) (payload : Bytes) :
    Ledger.Steps b.ledger (b.publish topic payload).2.ledger := by
  rcases b.publish_cases topic payload with ⟨e, f, he⟩ | ⟨s, f, hs, he⟩
  · rw [he]
    exact .single (.refused .insert topic e)
  · rw [he]
    dsimp only
    rw [ledger_notify, ledger_note_record rfl]
    exact .single (.stored (l := b.ledger) hs)

theorem shutdown_steps (b : Broker) : Ledger.Steps b.ledger b.shutdown.2.ledger := by
  rcases b.shutdown_cases with ⟨e, f, he⟩ | ⟨f, he⟩
  · rw [he]
    exact .single (.refused .close "" e)
  · rw [he]
    exact .single (.closed (l := b.ledger))

theorem subscribe_steps (b : Broker) (topic : String) :
    Ledger.Steps b.ledger (b.subscribe topic).2.ledger := by
  have hholder := holder_setConsumer b b.nextId { topic }
  refine .single ?_
  have hjoined := Ledger.Step.joined (l := b.ledger) topic
  have hnext : b.ledger.nextId = b.nextId := rfl
  rw [hnext, ← hholder] at hjoined
  simpa [subscribe, ledger, note, records, consumer?, setConsumer, Note.isRecord] using hjoined

theorem sought_steps {rest : Consumer} {r : Option (Except BrokerError Bytes) × Broker}
    (h : b.consumer? id = some c) (hs : Sought b id c rest r)
    (hrest : rest.topic = c.topic ∧ rest.holding = c.holding) :
    Ledger.Steps b.ledger r.2.ledger := by
  have hsame : ∀ c' : Consumer, c'.topic = c.topic → c'.holding = c.holding →
      Function.update b.ledger.holder id (some (c'.topic, c'.holding)) = b.ledger.holder := by
    intro c' ht hh
    rw [ht, hh, ← holder_eq h, Function.update_eq_self]
  cases hs with
  | cancelled f j hc hj =>
    rw [ledger_became, hj, hsame c.done rfl rfl]
    exact .refl
  | failed f j e hc hj =>
    rw [ledger_became, hj, hsame c.done rfl rfl]
    exact .single (.refused .fetchNext c.topic e)
  | claimed f j s payload hc hf hj =>
    rw [ledger_became, hj]
    exact .single (Ledger.Step.claimed (l := b.ledger) (holder_eq (c := c) h) hf)
  | nothing f j hc hf hj =>
    rw [ledger_became, hj, hsame rest hrest.1 hrest.2]
    exact .refl

theorem begin_steps (b : Broker) (id : ConsumerId) : Ledger.Steps b.ledger (b.begin id).2.ledger := by
  cases h : b.consumer? id with
  | none => simp [begin, h, Relation.ReflTransGen.refl]
  | some c =>
    rcases begin_cases h with ⟨-, he⟩ | ⟨-, hs⟩
    · rw [he]
      exact steps_of_eq (ledger_setConsumer h rfl rfl)
    · exact sought_steps h hs ⟨rfl, rfl⟩

theorem resume_steps (b : Broker) (id : ConsumerId) :
    Ledger.Steps b.ledger (b.resume id).2.ledger := by
  cases h : b.consumer? id with
  | none => simp [resume, h, Relation.ReflTransGen.refl]
  | some c =>
    cases hc : c.cancelled with
    | true =>
      rw [resume_cancelled h hc, ledger_leave]
      split
      · exact steps_of_eq (ledger_setConsumer h rfl rfl)
      · exact .refl
    | false =>
      by_cases hw : c.wait = .woken
      · rw [← ledger_note (b := b) (n := .woken id c.topic) rfl]
        exact sought_steps h (resume_woken h hc hw) ⟨rfl, rfl⟩
      · rw [resume_asleep h hc hw]

theorem settle_steps (b : Broker) (id : ConsumerId) (v : Verdict) :
    Ledger.Steps b.ledger (b.settle id v).2.ledger := by
  cases h : b.consumer? id with
  | none => simp [settle, h, Relation.ReflTransGen.refl]
  | some c =>
    cases hh : c.holding with
    | false => rw [settle_idle h hh]
    | true =>
      rcases settle_cases h hh v with ⟨e, f, he⟩ | ⟨s, f, hs, he⟩
      · rw [he]
        exact .single (.refused v.call c.topic e)
      · rw [he, ledger_notify, ledger_became]
        have hid := holder_eq h
        rw [hh] at hid
        have hsettled := Ledger.Step.settled v hid hs
        cases v <;> exact .single hsettled

theorem ledger_forget (b : Broker) (id : ConsumerId) (topic : String) :
    (b.forget id topic).ledger = { b.ledger with
      holder := Function.update b.ledger.holder id none } := by
  have hholder : (b.forget id topic).ledger.holder = Function.update b.ledger.holder id none := by
    funext other
    rw [Function.update_apply]
    simp only [ledger, forget, consumer?, Table.look_remove]
    split <;> rfl
  have hrest : (b.forget id topic).ledger =
      { b.ledger with holder := (b.forget id topic).ledger.holder } := by
    simp [ledger, forget, unsubscribe, note, records, Note.isRecord]
  rw [hrest, hholder]

theorem release_steps (b : Broker) (id : ConsumerId) :
    Ledger.Steps b.ledger (b.release id).ledger := by
  cases h : b.consumer? id with
  | none => simp [release, h, Relation.ReflTransGen.refl]
  | some c =>
    have hid := holder_eq h
    cases hh : c.holding with
    | false =>
      rw [release_idle h hh, ledger_forget]
      exact .single (.left hid (by simp [hh]))
    | true =>
      have hsettle := settle_steps b id .nack
      rw [release_holding h hh]
      rcases settle_cases h hh .nack with ⟨e, f, he⟩ | ⟨s, f, hs, he⟩
      · rw [he] at hsettle ⊢
        dsimp only at hsettle ⊢
        rw [ledger_forget, ledger_note rfl]
        exact hsettle.tail (.left hid fun _ => ⟨e, List.mem_cons_self⟩)
      · rw [he] at hsettle ⊢
        dsimp only at hsettle ⊢
        rw [ledger_forget, ledger_note rfl]
        refine hsettle.tail (.left (?_ : _ = some (c.topic, false)) (by simp))
        rw [ledger_notify, ledger_became]
        exact Function.update_self ..

theorem ledger_ask (b : Broker) (id : ConsumerId) (cancelled : Bool) :
    (b.ask id cancelled).ledger = b.ledger := by
  unfold ask
  split
  · rfl
  · rename_i c hc
    exact (ledger_enqueue _ id).trans (ledger_setConsumer hc rfl rfl)

theorem ledger_cancel (b : Broker) (id : ConsumerId) : (b.cancel id).ledger = b.ledger := by
  unfold cancel
  split
  · rfl
  · rename_i c hc
    dsimp only
    split
    · exact (ledger_enqueue _ id).trans (ledger_setConsumer hc rfl rfl)
    · exact ledger_setConsumer hc rfl rfl

theorem ledger_abandon (b : Broker) (id : ConsumerId) : (b.abandon id).ledger = b.ledger := by
  unfold abandon
  split
  · rfl
  · rename_i c hc
    -- Nothing but the queue of tasks has changed so far.
    have hready : ({ b with ready := b.ready.filter (· != id) } : Broker).ledger = b.ledger := rfl
    rw [← hready]
    dsimp only
    split
    · rfl
    · exact ledger_setConsumer hc rfl rfl
    · exact ledger_leave _ id
    · exact (ledger_leave _ id).trans (ledger_setConsumer hc rfl rfl)

end Broker

end TopicQueue

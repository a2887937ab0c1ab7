import TopicQueue.Proofs.Conservation

namespace TopicQueue
open History

namespace Broker

variable {b b' : Broker} {id : ConsumerId} {c : Consumer}

/-- What a nack has left. -/
theorem nack_store (h : b.ledger.Accounted) (hc : b.consumer? id = some c)
    (ha : b.settle id .nack = (.ok (), b')) :
    ∃ entry rest, b.Got id c.topic entry ∧ b'.store.tree c.topic = entry :: rest ∧
      b'.store.claim? c.topic = none ∧ ∀ topic, b'.store.tree topic = b.store.tree topic := by
  obtain ⟨hh, hrequeue, -⟩ := settle_ok hc ha
  obtain ⟨entry, rest, -, ht, hgot⟩ := owned_entry h hc hh
  obtain ⟨-, key, -, hb'⟩ := Store.requeue_ok hrequeue
  refine ⟨entry, rest, hgot, ?_, ?_, ?_⟩
  · rw [hb']
    exact ht
  · rw [hb']
    exact Table.look_remove_self ..
  · intro topic
    rw [hb']
    rfl

/-- Only consumers that there are get messages. -/
theorem consumer_of_next {payload : Bytes}
    (ha : b.begin id = (some (.ok payload), b') ∨ b.resume id = (some (.ok payload), b')) :
    ∃ c, b.consumer? id = some c := by
  cases hc : b.consumer? id with
  | some c => exact ⟨c, rfl⟩
  | none => simp [Broker.begin, Broker.resume, hc] at ha

theorem consumer_of_settle {v : Verdict} (ha : b.settle id v = (.ok (), b')) :
    ∃ c, b.consumer? id = some c := by
  cases hc : b.consumer? id with
  | some c => exact ⟨c, rfl⟩
  | none => simp [Broker.settle, hc] at ha

end Broker

theorem Recorded.dealings {id : ConsumerId} {b b' : Broker} (h : Recorded id b b')
    (other : ConsumerId) :
    History.dealings other b'.records = History.dealings other b.records ∨
    other = id ∧ ((∃ payload, b.begin id = (some (.ok payload), b') ∨
        b.resume id = (some (.ok payload), b')) ∨
      (∃ v, b.settle id v = (.ok (), b')) ∨
      (b.settle id .nack).1 = .ok () ∧ b' = b.release id) := by
  by_cases ho : other = id
  · cases h with
    | nothing hrecords => exact .inl (by rw [hrecords])
    | failed _ _ _ hrecords | stored _ _ _ hrecords => exact .inl (by rw [hrecords]; rfl)
    | claimed c payload hc ha hrecords => exact .inr ⟨ho, .inl ⟨payload, ha⟩⟩
    | settled c v hc ha hrecords => exact .inr ⟨ho, .inr (.inl ⟨v, ha⟩)⟩
    | released c hc ha hr hrecords => exact .inr ⟨ho, .inr (.inr ⟨ha, hr⟩)⟩
  · left
    cases h with
    | nothing hrecords => rw [hrecords]
    | failed _ _ _ hrecords | stored _ _ _ hrecords => rw [hrecords]; rfl
    | claimed c payload hc ha hrecords => simp [hrecords, History.dealings, Ne.symm ho]
    | settled c v hc ha hrecords => simp [hrecords, dealings_record, Ne.symm ho]
    | released c hc ha hr hrecords => simp [hrecords, History.dealings, Ne.symm ho]

/-- What is known of claims and of those who hold them, whenever a call has been made or is to be
made. -/
structure Exclusive (m : Moment) : Prop where
  /-- A topic has one holder at most. -/
  one : ∀ id other c d, m.broker.consumer? id = some c → m.broker.consumer? other = some d →
    c.topic = d.topic → c.holding = true → d.holding = true → id = other
  /-- A holder has the claim of its topic, on the first entry, which is the one it got last. -/
  claim : ∀ id c, m.broker.consumer? id = some c → c.holding = true →
    ∃ entry rest, m.broker.store.claim? c.topic = some entry.1 ∧
      m.broker.store.tree c.topic = entry :: rest ∧ m.broker.Got id c.topic entry
  /-- An ack removes just what the consumer got last. -/
  ack : ∀ id c b', m.broker.consumer? id = some c → m.broker.settle id .ack = (.ok (), b') →
    ∃ entry, m.broker.Got id c.topic entry ∧
      m.broker.store.tree c.topic = entry :: b'.store.tree c.topic ∧
      b'.store.claim? c.topic = none ∧
      ∀ topic, topic ≠ c.topic → b'.store.tree topic = m.broker.store.tree topic
  /-- A nack leaves it in front, for anybody to claim. -/
  nack : ∀ id c b', m.broker.consumer? id = some c → m.broker.settle id .nack = (.ok (), b') →
    ∃ entry rest, m.broker.Got id c.topic entry ∧ b'.store.tree c.topic = entry :: rest ∧
      b'.store.claim? c.topic = none ∧
      ∀ topic, b'.store.tree topic = m.broker.store.tree topic
  /-- A consumer gets and settles messages by turns. -/
  alternate : ∀ id, Alternate (dealings id m.broker.records)
  received : ∀ id payload b',
    m.broker.begin id = (some (.ok payload), b') ∨ m.broker.resume id = (some (.ok payload), b') →
    dealings id b'.records = dealings id m.broker.records ++ [.received]
  settled : ∀ id v b', m.broker.settle id v = (.ok (), b') →
    dealings id b'.records = dealings id m.broker.records ++ [.settled v]
  /-- No other call counts as one of these, but for the end of a consumer, which nacks. -/
  only : ∀ id m', Call id m m' → ∀ other,
    dealings other m'.broker.records = dealings other m.broker.records ∨
    other = id ∧ ((∃ payload, m.broker.begin id = (some (.ok payload), m'.broker) ∨
        m.broker.resume id = (some (.ok payload), m'.broker)) ∨
      (∃ v, m.broker.settle id v = (.ok (), m'.broker)) ∨
      (m.broker.settle id .nack).1 = .ok () ∧ m'.broker = m.broker.release id)
  /-- Nobody settles what it does not hold, and to try changes nothing. -/
  idle : ∀ id c v, m.broker.consumer? id = some c → c.holding = false →
    m.broker.settle id v = (.error .nothingClaimed, m.broker)

namespace Scene

/-- Whatever steps have been taken, and wherever a task is by now: the store's claims and the
consumers' agree, and each message is settled by the one that got it. -/
theorem claims_exclusive {s : Scene} (hs : s.Reachable) {m : Moment}
    (hm : Reaches ⟨s.broker, none⟩ m) : Exclusive m := by
  have h := hs.accounted hm
  constructor
  case one =>
    intro id other c d hc hd ht hh hh'
    have hid := Broker.holder_eq hc
    have hother := Broker.holder_eq hd
    rw [hh] at hid
    rw [hh', ← ht] at hother
    exact h.alone id other c.topic hid hother
  case claim => exact fun id c hc hh => Broker.owned_entry h hc hh
  case ack => exact fun id c b' hc ha => Broker.ack_store h hc ha
  case nack => exact fun id c b' hc ha => Broker.nack_store h hc ha
  case alternate => exact h.alternate
  case received =>
    intro id payload b' ha
    obtain ⟨c, hc⟩ := Broker.consumer_of_next ha
    simp [Broker.next_records hc ha, dealings]
  case settled =>
    intro id v b' ha
    obtain ⟨c, hc⟩ := Broker.consumer_of_settle ha
    simp [(Broker.settle_ok hc ha).2.2, dealings_record]
  case only => exact fun id m' hcall other => hcall.recorded.dealings other
  case idle => exact fun id c v hc hh => Broker.settle_idle hc hh v

/-- Two consumers of one topic, of which the second got the message that the first has nacked. -/
def nacked : List Step :=
  [⟨.subscribe "t" "c", false⟩, ⟨.subscribe "t" "d", false⟩, ⟨.next "c" false, false⟩,
   ⟨.next "d" false, false⟩, ⟨.publish "t" [1], false⟩, ⟨.settle "c" .nack, false⟩]

theorem nacked_exclusive :
    Exclusive ⟨(after nacked).broker, none⟩ ∧
    ((after nacked).broker.consumer? 0).map (·.holding) = some false ∧
    ((after nacked).broker.consumer? 1).map (·.holding) = some true :=
  ⟨claims_exclusive (reachable_after (by decide)) .refl, by decide +kernel, by decide +kernel⟩

end Scene

end TopicQueue

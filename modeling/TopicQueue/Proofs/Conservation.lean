import TopicQueue.Proofs.Accounts

namespace TopicQueue

namespace Broker

variable {b : Broker} {id : ConsumerId} {c : Consumer}

/-- What publishing records. -/
theorem publish_records (b : Broker) (topic : String) (payload : Bytes) :
    (∃ e, (b.publish topic payload).1 = .error (.store e) ∧
      (b.publish topic payload).2.records = .called .insert topic (some e) :: b.records) ∨
    ((b.publish topic payload).1 = .ok () ∧
      (b.publish topic payload).2.records = .stored topic payload :: b.records) := by
  rcases b.publish_cases topic payload with ⟨e, f, he⟩ | ⟨s, f, hs, he⟩
  · rw [he]
    exact .inl ⟨e, rfl, rfl⟩
  · rw [he]
    refine .inr ⟨rfl, ?_⟩
    exact congrArg Ledger.records (ledger_notify _ topic .publish)

/-- What a verdict of a consumer records. -/
theorem settle_records (h : b.consumer? id = some c) (v : Verdict) :
    (c.holding = false ∧ b.settle id v = (.error .nothingClaimed, b)) ∨
    (∃ e, (b.settle id v).1 = .error (.store e) ∧
      (b.settle id v).2.records = .called v.call c.topic (some e) :: b.records) ∨
    (c.holding = true ∧ (b.settle id v).1 = .ok () ∧
      (b.settle id v).2.records = v.record id c.topic :: b.records) := by
  cases hh : c.holding with
  | false => exact .inl ⟨rfl, settle_idle h hh v⟩
  | true =>
    rcases settle_cases h hh v with ⟨e, f, he⟩ | ⟨s, f, hs, he⟩
    · rw [he]
      exact .inr (.inl ⟨e, rfl, rfl⟩)
    · rw [he]
      refine .inr (.inr ⟨rfl, rfl, ?_⟩)
      refine (congrArg Ledger.records (ledger_notify _ c.topic v.reason)).trans ?_
      cases v <;> rfl

/-- A verdict that succeeds has done its work on the store. -/
theorem settle_ok {b' : Broker} {v : Verdict} (h : b.consumer? id = some c)
    (ha : b.settle id v = (.ok (), b')) :
    c.holding = true ∧ v.apply c.topic b.store = .ok b'.store ∧
    b'.records = v.record id c.topic :: b.records := by
  rcases settle_records h v with ⟨-, he⟩ | ⟨e, he, -⟩ | ⟨hh, -, hrecords⟩
  · rw [he] at ha
    cases ha
  · rw [ha] at he
    cases he
  · rcases settle_cases h hh v with ⟨e, f, he⟩ | ⟨s, f, hs, he⟩
    · rw [he] at ha
      cases ha
    · rw [ha] at he hrecords
      obtain rfl := congrArg Prod.snd he
      have hstore := store_notify (b.became f
        [⟨b.span, v.record id c.topic⟩, ⟨b.span, .called v.call c.topic none⟩] s id
        { c with holding := false }) c.topic v.reason
      refine ⟨hh, hs.trans (congrArg Except.ok hstore.symm), hrecords⟩

theorem release_records (h : b.consumer? id = some c) (hh : c.holding = true) :
    (b.release id).records = (b.settle id .nack).2.records := by
  rw [release_holding h hh]
  refine (congrArg Ledger.records (ledger_forget _ id c.topic)).trans ?_
  cases b.settle id .nack with
  | mk answer b' => cases answer <;> rfl

/-- What a call for a message records. -/
theorem Sought.records {rest : Consumer} {r : Option (Except BrokerError Bytes) × Broker}
    (h : Sought b id c rest r) :
    (∃ payload, r.1 = some (.ok payload) ∧ r.2.records = .claimed id c.topic payload :: b.records) ∨
    ((∀ payload, r.1 ≠ some (.ok payload)) ∧
      (r.2.records = b.records ∨ ∃ e, r.2.records = .called .fetchNext c.topic (some e) :: b.records))
    := by
  cases h with
  | cancelled f j hc hj => exact .inr ⟨by simp, .inl (by simp [Broker.records, became, hj])⟩
  | failed f j e hc hj => exact .inr ⟨by simp, .inr ⟨e, by simp [Broker.records, became, hj]⟩⟩
  | claimed f j s payload hc hs hj => exact .inl ⟨payload, rfl, by simp [Broker.records, became, hj]⟩
  | nothing f j hc hs hj => exact .inr ⟨by simp, .inl (by simp [Broker.records, became, hj])⟩

theorem Sought.fetched {b' : Broker} {rest : Consumer} {payload : Bytes}
    (h : Sought b id c rest (some (.ok payload), b')) :
    ∃ s, b.store.fetchNext c.topic = .ok (some payload, s) := by
  cases h with
  | claimed f j s payload hc hs hj => exact ⟨s, hs⟩

/-- A message is given out by a look at the store. -/
theorem next_sought {b' : Broker} {payload : Bytes} (hc : b.consumer? id = some c)
    (h : b.begin id = (some (.ok payload), b') ∨ b.resume id = (some (.ok payload), b')) :
    ∃ b₀ : Broker, b₀.store = b.store ∧ b₀.records = b.records ∧
      Sought b₀ id c c.asleep (some (.ok payload), b') := by
  rcases h with h | h
  · rcases begin_cases hc with ⟨-, he⟩ | ⟨-, hs⟩
    · rw [h] at he
      cases he
    · rw [h] at hs
      exact ⟨b, rfl, rfl, hs⟩
  · cases hcancel : c.cancelled with
    | true =>
      rw [resume_cancelled hc hcancel] at h
      cases h
    | false =>
      by_cases hwoken : c.wait = .woken
      · have hs := resume_woken hc hcancel hwoken
        rw [h] at hs
        exact ⟨b.note (.woken id c.topic), rfl, rfl, hs⟩
      · rw [resume_asleep hc hcancel hwoken] at h
        cases h

theorem next_fetched {b' : Broker} {payload : Bytes} (hc : b.consumer? id = some c)
    (h : b.begin id = (some (.ok payload), b') ∨ b.resume id = (some (.ok payload), b')) :
    ∃ s, b.store.fetchNext c.topic = .ok (some payload, s) := by
  obtain ⟨b₀, hstore, -, hs⟩ := next_sought hc h
  rw [← hstore]
  exact hs.fetched

theorem next_records {b' : Broker} {payload : Bytes} (hc : b.consumer? id = some c)
    (h : b.begin id = (some (.ok payload), b') ∨ b.resume id = (some (.ok payload), b')) :
    b'.records = .claimed id c.topic payload :: b.records := by
  obtain ⟨b₀, -, hrecords, hs⟩ := next_sought hc h
  rw [← hrecords]
  rcases hs.records with ⟨_, ⟨⟩, hclaimed⟩ | ⟨hno, -⟩
  · exact hclaimed
  · exact absurd rfl (hno payload)

/-- An entry is the message that a consumer got last: none has been acked in its topic since, and
it says the same. -/
def Got (b : Broker) (id : ConsumerId) (topic : String) (entry : Nat × Bytes) : Prop :=
  ∃ payload, StoredEntry.item entry.2 = .ok payload ∧
    History.delivery? id b.records = some (History.commits topic b.records, payload)

/-- A holder's claim, in the terms of the store. -/
theorem owned_entry (h : b.ledger.Accounted) (hc : b.consumer? id = some c)
    (hh : c.holding = true) :
    ∃ entry rest, b.store.claim? c.topic = some entry.1 ∧
      b.store.tree c.topic = entry :: rest ∧ b.Got id c.topic entry := by
  have hheld := holder_eq hc
  rw [hh] at hheld
  obtain ⟨hclaimed, payload, rest, he, hd⟩ := h.owned id c.topic hheld
  obtain ⟨key, hk⟩ := Option.isSome_iff_exists.mp hclaimed
  obtain ⟨value, rest', ht⟩ := h.sound.claimed_first c.topic key hk
  refine ⟨(key, value), rest', hk, ht, payload, ?_, hd⟩
  have htree : b.store.tree c.topic = (key, value) :: rest' := ht
  have hitems : StoredEntry.item value :: rest'.map (fun e => StoredEntry.item e.2) =
      .ok payload :: rest := by
    rw [← he]
    simp [ledger, Store.queue, htree]
  exact (List.cons.inj hitems).1

/-- What an ack has left. -/
theorem ack_store (h : b.ledger.Accounted) (hc : b.consumer? id = some c)
    (ha : b.settle id .ack = (.ok (), b')) :
    ∃ entry, b.Got id c.topic entry ∧ b.store.tree c.topic = entry :: b'.store.tree c.topic ∧
      b'.store.claim? c.topic = none ∧
      ∀ topic, topic ≠ c.topic → b'.store.tree topic = b.store.tree topic := by
  obtain ⟨hh, hcommit, -⟩ := settle_ok hc ha
  obtain ⟨⟨key, value⟩, rest, hk, ht, hgot⟩ := owned_entry h hc hh
  obtain ⟨-, key', hk', hb'⟩ := Store.commit_ok hcommit
  rw [hk] at hk'
  cases hk'
  have htree := h.sound.dropClaimed_tree ht
  refine ⟨(key, value), hgot, ?_, ?_, ?_⟩
  · have hrest := (htree c.topic).trans (if_pos rfl)
    rw [hb', ht]
    exact congrArg _ hrest.symm
  · rw [hb']
    exact Table.look_remove_self ..
  · intro topic hne
    rw [hb']
    exact (htree topic).trans (if_neg hne)

end Broker

/-- What a call adds to the records, and what it has answered then. -/
inductive Recorded (id : ConsumerId) (b b' : Broker) : Prop where
  | nothing (h : b'.records = b.records)
  | failed (call : StoreCall) (topic : String) (e : StoreError)
      (h : b'.records = .called call topic (some e) :: b.records)
  | stored (topic : String) (payload : Bytes) (ha : b.publish topic payload = (.ok (), b'))
      (h : b'.records = .stored topic payload :: b.records)
  | claimed (c : Consumer) (payload : Bytes) (hc : b.consumer? id = some c)
      (ha : b.begin id = (some (.ok payload), b') ∨ b.resume id = (some (.ok payload), b'))
      (h : b'.records = .claimed id c.topic payload :: b.records)
  | settled (c : Consumer) (v : Verdict) (hc : b.consumer? id = some c)
      (ha : b.settle id v = (.ok (), b')) (h : b'.records = v.record id c.topic :: b.records)
  /-- The end of a consumer puts back what it holds. -/
  | released (c : Consumer) (hc : b.consumer? id = some c) (ha : (b.settle id .nack).1 = .ok ())
      (hr : b' = b.release id) (h : b'.records = .requeued id c.topic :: b.records)

theorem Broker.Sought.recorded {b b₀ : Broker} {id : ConsumerId} {c rest : Consumer}
    {r : Option (Except BrokerError Bytes) × Broker} (h : Sought b id c rest r)
    (hb : b.records = b₀.records) (hc : b₀.consumer? id = some c)
    (hr : b₀.begin id = r ∨ b₀.resume id = r) : Recorded id b₀ r.2 := by
  rcases h.records with ⟨payload, ha, hrecords⟩ | ⟨-, hrecords | ⟨e, hrecords⟩⟩
  · rw [hb] at hrecords
    refine .claimed c payload hc ?_ hrecords
    rw [← ha]
    exact hr
  · exact .nothing (hrecords.trans hb)
  · rw [hb] at hrecords
    exact .failed .fetchNext c.topic e hrecords

section
open Broker

variable {b : Broker} {id : ConsumerId}

theorem recorded_publish (b : Broker) (topic : String) (payload : Bytes) (id : ConsumerId) :
    Recorded id b (b.publish topic payload).2 := by
  rcases b.publish_records topic payload with ⟨e, -, h⟩ | ⟨ha, h⟩
  · exact .failed .insert topic e h
  · exact .stored topic payload (Prod.ext ha rfl) h

theorem recorded_shutdown (b : Broker) (id : ConsumerId) : Recorded id b b.shutdown.2 := by
  rcases b.shutdown_cases with ⟨e, f, he⟩ | ⟨f, he⟩
  · rw [he]
    exact .failed .close "" e rfl
  · rw [he]
    exact .nothing rfl

theorem recorded_settle (b : Broker) (id : ConsumerId) (v : Verdict) :
    Recorded id b (b.settle id v).2 := by
  cases hc : b.consumer? id with
  | none => exact .nothing (by simp [Broker.settle, hc])
  | some c =>
    rcases settle_records hc v with ⟨-, he⟩ | ⟨e, -, h⟩ | ⟨-, ha, h⟩
    · exact .nothing (by simp [he])
    · exact .failed v.call c.topic e h
    · exact .settled c v hc (Prod.ext ha rfl) h

theorem recorded_release (b : Broker) (id : ConsumerId) : Recorded id b (b.release id) := by
  cases hc : b.consumer? id with
  | none => exact .nothing (by simp [Broker.release, hc])
  | some c =>
    cases hh : c.holding with
    | false =>
      rw [release_idle hc hh]
      exact .nothing (congrArg Ledger.records (ledger_forget b id c.topic))
    | true =>
      have hrecords := release_records hc hh
      rcases settle_records hc .nack with ⟨hf, -⟩ | ⟨e, -, h⟩ | ⟨-, ha, h⟩
      · rw [hh] at hf
        cases hf
      · exact .failed .requeue c.topic e (hrecords.trans h)
      · exact .released c hc ha rfl (hrecords.trans h)

theorem recorded_begin (b : Broker) (id : ConsumerId) : Recorded id b (b.begin id).2 := by
  cases hc : b.consumer? id with
  | none => exact .nothing (by simp [Broker.begin, hc])
  | some c =>
    rcases begin_cases hc with ⟨-, he⟩ | ⟨-, hs⟩
    · rw [he]
      exact .nothing rfl
    · exact hs.recorded rfl hc (.inl rfl)

theorem recorded_resume (b : Broker) (id : ConsumerId) : Recorded id b (b.resume id).2 := by
  cases hc : b.consumer? id with
  | none => exact .nothing (by simp [Broker.resume, hc])
  | some c =>
    cases hcancel : c.cancelled with
    | true =>
      rw [resume_cancelled hc hcancel]
      refine .nothing ((congrArg Ledger.records (ledger_leave _ id)).trans ?_)
      split <;> rfl
    | false =>
      by_cases hwoken : c.wait = .woken
      · exact (resume_woken hc hcancel hwoken).recorded rfl hc (.inr rfl)
      · rw [resume_asleep hc hcancel hwoken]
        exact .nothing rfl

theorem Call.recorded {m m' : Moment} (h : Call id m m') : Recorded id m.broker m'.broker := by
  -- Calls that leave the ledger leave the records.
  have hsame : m'.broker.ledger = m.broker.ledger → Recorded id m.broker m'.broker :=
    fun he => .nothing (congrArg Ledger.records he)
  cases h with
  | note n hn => exact hsame (ledger_note hn)
  | span | arm | take | rest => exact hsame rfl
  | tick | subscribe => exact .nothing rfl
  | publish topic payload => exact recorded_publish _ topic payload id
  | notify topic reason => exact hsame (ledger_notify _ topic reason)
  | shutdown => exact recorded_shutdown _ id
  | enqueue other => exact hsame (ledger_enqueue _ other)
  | ask cancelled => exact hsame (ledger_ask _ id cancelled)
  | cancel => exact hsame (ledger_cancel _ id)
  | abandon => exact hsame (ledger_abandon _ id)
  | settle v => exact recorded_settle _ id v
  | release => exact recorded_release _ id
  | begin => exact recorded_begin _ id
  | resume => exact recorded_resume _ id

end

open History Broker

namespace Recorded

variable {id : ConsumerId} {b b' : Broker}

theorem published (h : Recorded id b b') (topic : String) :
    History.published topic b'.records = History.published topic b.records ∨
    ∃ payload, b.publish topic payload = (.ok (), b') := by
  cases h with
  | stored t payload ha hrecords =>
    by_cases ht : t = topic
    · exact .inr ⟨payload, ht ▸ ha⟩
    · exact .inl (by simp [hrecords, History.published, ht])
  | settled c v hc ha hrecords => exact .inl (by rw [hrecords, published_record])
  | nothing hrecords => exact .inl (by rw [hrecords])
  | failed _ _ _ hrecords | claimed _ _ _ _ hrecords | released _ _ _ _ hrecords =>
    exact .inl (by rw [hrecords]; rfl)

theorem committed (h : Recorded id b b') (topic : String) :
    History.committed topic b'.records = History.committed topic b.records ∨
    b.settle id .ack = (.ok (), b') := by
  cases h with
  | settled c v hc ha hrecords =>
    cases v with
    | ack => exact .inr ha
    | nack => exact .inl (by rw [hrecords]; rfl)
  | nothing hrecords => exact .inl (by rw [hrecords])
  | failed _ _ _ hrecords | stored _ _ _ hrecords | claimed _ _ _ _ hrecords
  | released _ _ _ _ hrecords => exact .inl (by rw [hrecords]; rfl)

end Recorded

/-- What is known of a topic whenever a call has been made or is to be made. -/
structure Conserved (m : Moment) (topic : String) : Prop where
  /-- Nothing is lost, doubled or put out of order. -/
  balanced : ∃ stored : List Bytes,
    (m.broker.store.tree topic).map (fun e => StoredEntry.item e.2) = stored.map .ok ∧
    published topic m.broker.records = committed topic m.broker.records ++ stored
  counted : (committed topic m.broker.records).length = commits topic m.broker.records
  /-- Whoever has got a message got the one that came after those that had been acked. -/
  inOrder : ∀ later id payload earlier,
    m.broker.records = later ++ .claimed id topic payload :: earlier →
    (published topic earlier)[commits topic earlier]? = some payload
  /-- Whoever gets a message gets the one that comes after those that have been acked. -/
  next : ∀ id c payload b', m.broker.consumer? id = some c → c.topic = topic →
    m.broker.begin id = (some (.ok payload), b') ∨ m.broker.resume id = (some (.ok payload), b') →
    (published topic m.broker.records)[commits topic m.broker.records]? = some payload
  /-- A publish that succeeds adds its message. -/
  publish : ∀ payload b', m.broker.publish topic payload = (.ok (), b') →
    published topic b'.records = published topic m.broker.records ++ [payload]
  /-- An ack that succeeds takes the first entry out, and that is the message acked. -/
  ack : ∀ id c b', m.broker.consumer? id = some c → c.topic = topic →
    m.broker.settle id .ack = (.ok (), b') →
    ∃ entry payload, m.broker.store.tree topic = entry :: b'.store.tree topic ∧
      StoredEntry.item entry.2 = .ok payload ∧
      committed topic b'.records = committed topic m.broker.records ++ [payload] ∧
      commits topic b'.records = commits topic m.broker.records + 1
  /-- No other call adds to what has been published or acked. -/
  only : ∀ id m', Call id m m' →
    (published topic m'.broker.records = published topic m.broker.records ∨
      ∃ payload, m.broker.publish topic payload = (.ok (), m'.broker)) ∧
    (committed topic m'.broker.records = committed topic m.broker.records ∨
      m.broker.settle id .ack = (.ok (), m'.broker))

namespace Scene
open Ledger

/-- Whatever steps have been taken, and wherever a task is by now: what has been published in a
topic is what has been acked and what is stored, in this order, and each message that is given out
is the next. -/
theorem messages_conserved {s : Scene} (hs : s.Reachable) {m : Moment}
    (hm : Reaches ⟨s.broker, none⟩ m) (topic : String) : Conserved m topic := by
  have h := hs.accounted hm
  obtain ⟨stored, he, hp, hc⟩ := h.balanced topic
  refine ⟨⟨stored, he, hp⟩, hc, ?_, ?_, ?_, ?_, ?_⟩
  · exact fun later id payload earlier hr => h.inOrder later id topic payload earlier hr
  · rintro id c payload b' hid rfl hnext
    obtain ⟨s', hf⟩ := next_fetched hid hnext
    exact h.next hf
  · intro payload b' ha
    rcases m.broker.publish_records topic payload with ⟨e, he, -⟩ | ⟨-, hrecords⟩
    · rw [ha] at he
      cases he
    · rw [ha] at hrecords
      simp [hrecords, published]
  · rintro id c b' hid rfl ha
    obtain ⟨entry, ⟨payload, hitem, hgot⟩, ht, -⟩ := ack_store h hid ha
    obtain ⟨-, -, hrecords⟩ := settle_ok hid ha
    refine ⟨entry, payload, ht, hitem, ?_, ?_⟩
    · simp [hrecords, Verdict.record, committed, hgot]
    · simp [hrecords, Verdict.record, commits]
  · exact fun id m' hcall => ⟨hcall.recorded.published topic, hcall.recorded.committed topic⟩

/-- A session fails to ack, and what it had goes to somebody else. -/
def handedOn : List Step :=
  [⟨.subscribe "t" "c", false⟩, ⟨.session "t" "s" false, false⟩, ⟨.publish "t" [1], false⟩,
   ⟨.publish "t" [2], false⟩, ⟨.command "s" .init, false⟩, ⟨.fault .commit ⟨.closed, 0, 1⟩, false⟩,
   ⟨.next "c" false, true⟩, ⟨.command "s" .ack, false⟩, ⟨.settle "c" .ack, false⟩]

theorem handedOn_conserved :
    Conserved ⟨(after handedOn).broker, none⟩ "t" ∧
    published "t" (after handedOn).broker.records = [[1], [2]] ∧
    committed "t" (after handedOn).broker.records = [[1]] :=
  ⟨messages_conserved (reachable_after (by decide)) .refl "t", by decide +kernel, by decide +kernel⟩

end Scene

end TopicQueue

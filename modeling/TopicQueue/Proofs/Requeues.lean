import TopicQueue.Proofs.Errands
import TopicQueue.Proofs.Offers
import TopicQueue.Proofs.Releases

namespace TopicQueue

/-- An attempt to put back the message of a topic, which has failed. -/
def Errand.refused (topic : String) (e : StoreError) : Errand := ⟨.requeue, topic, some e⟩

namespace Broker

/-- One consumer has been on these errands, and nothing has come of them. -/
structure Untouched (id : ConsumerId) (new : List Errand) (b b' : Broker) : Prop where
  errands : b'.errands = new ++ b.errands
  store : b'.store = b.store
  others : ∀ other, other ≠ id → b'.consumer? other = b.consumer? other
  ready : b'.ready = b.ready
  sleepers : ∀ topic, b'.sleepers topic = b.sleepers topic

/-- A message has been put back, after attempts that failed in this way. -/
structure Returned (id : ConsumerId) (topic : String) (failures : List StoreError)
    (b b' : Broker) : Prop where
  errands : b'.errands = ⟨.requeue, topic, none⟩ :: (failures.map (.refused topic) ++ b.errands)
  /-- No entry has come or gone or moved, and the first of the topic can be claimed. -/
  trees : ∀ t, b'.store.tree t = b.store.tree t
  unclaimed : b'.store.claim? topic = none
  claims : ∀ t, t ≠ topic → b'.store.claim? t = b.store.claim? t
  /-- The first who slept for it has been woken, and nobody else. -/
  woken : ∀ w, (b.sleepers topic).head? = some w → w ≠ id ∧
    ∃ d, b.consumer? w = some d ∧ d.topic = topic ∧ d.wait = .parked ∧
      b'.consumer? w = some { d with waiting := false, wait := .woken } ∧ w ∈ b'.ready
  others : ∀ other, other ≠ id → (b.sleepers topic).head? ≠ some other →
    b'.consumer? other = b.consumer? other

/-- What has become of the message of a consumer that has nacked so many times, and whether the
consumer still has it. -/
inductive Fate (id : ConsumerId) (c : Consumer) (b : Broker) : Nat → Bool → Broker → Prop where
  /-- There was none. -/
  | idle {n : Nat} {b' : Broker} (hh : c.holding = false) (h : Untouched id [] b b') :
      Fate id c b n false b'
  /-- It has been put back by one of the attempts; all before that have failed, and no other has
  been made. -/
  | returned {n : Nat} {b' : Broker} (failures : List StoreError) (hh : c.holding = true)
      (hlt : failures.length < n) (h : Returned id c.topic failures b b') : Fate id c b n false b'
  /-- All attempts have failed. -/
  | kept {b' : Broker} (failures : List StoreError) (hh : c.holding = true)
      (h : Untouched id (failures.map (.refused c.topic)) b b') :
      Fate id c b failures.length true b'

/-- What a consumer may do to others: it puts back nothing but what it holds itself, and leaves
alone what they hold. -/
structure Careful (id : ConsumerId) (b b' : Broker) : Prop where
  requeues : ∃ new : List Errand, b'.errands = new ++ b.errands ∧
    ∀ e ∈ new, e.call = .requeue → b.Holds id e.topic
  others : ∀ other topic, other ≠ id → b.Holds other topic → b'.Holds other topic ∧
    b'.store.tree topic = b.store.tree topic ∧ b'.store.claim? topic = b.store.claim? topic

variable {b b' b'' m : Broker} {id other : ConsumerId} {c : Consumer} {topic : String} {n : Nat}
  {new new' : List Errand} {failures : List StoreError} {held : Bool} {r : Option ConsumerId}

theorem Untouched.refl (id : ConsumerId) (b : Broker) : Untouched id [] b b :=
  ⟨rfl, rfl, fun _ _ => rfl, rfl, fun _ => rfl⟩

theorem Untouched.trans (h : Untouched id new b b') (h' : Untouched id new' b' b'') :
    Untouched id (new' ++ new) b b'' where
  errands := by rw [h'.errands, h.errands, List.append_assoc]
  store := h'.store.trans h.store
  others other hne := (h'.others other hne).trans (h.others other hne)
  ready := h'.ready.trans h.ready
  sleepers topic := (h'.sleepers topic).trans (h.sleepers topic)

theorem Untouched.note (h : Untouched id new b b') {k : Note} (hk : k.errand? = none) :
    Untouched id new b (b'.note k) :=
  ⟨(errands_note hk b').trans h.errands, h.store, h.others, h.ready, h.sleepers⟩

theorem Untouched.forget (h : Untouched id new b b') (hw : b'.isWaiting id = false)
    (topic : String) : Untouched id new b (b'.forget id topic) where
  errands := (errands_forget b' id topic).trans h.errands
  store := h.store
  others other hne := (consumer?_forget hne topic).trans (h.others other hne)
  ready := h.ready
  sleepers t := (sleepers_forget hw t topic).trans (h.sleepers t)

theorem Untouched.spanned (h : Untouched id new b b') (span : Option RequestSpan) :
    Untouched id new b { b' with span } :=
  ⟨h.errands, h.store, h.others, h.ready, h.sleepers⟩

theorem Returned.note (h : Returned id topic failures b b') {k : Note} (hk : k.errand? = none) :
    Returned id topic failures b (b'.note k) :=
  ⟨(errands_note hk b').trans h.errands, h.trees, h.unclaimed, h.claims, h.woken, h.others⟩

theorem Returned.forget (h : Returned id topic failures b b') (t : String) :
    Returned id topic failures b (b'.forget id t) where
  errands := (errands_forget b' id t).trans h.errands
  trees := h.trees
  unclaimed := h.unclaimed
  claims := h.claims
  woken w hw := by
    obtain ⟨hne, d, hd, ht, hparked, hwoken, hready⟩ := h.woken w hw
    exact ⟨hne, d, hd, ht, hparked, (consumer?_forget hne t).trans hwoken, hready⟩
  others other hne hw := (consumer?_forget hne t).trans (h.others other hne hw)

theorem Returned.spanned (h : Returned id topic failures b b') (span : Option RequestSpan) :
    Returned id topic failures b { b' with span } :=
  ⟨h.errands, h.trees, h.unclaimed, h.claims, h.woken, h.others⟩

/-- What failed before an attempt that succeeded has made no difference to it. -/
theorem Untouched.returned (h : Untouched id (failures.map (.refused topic)) b b')
    (h' : Returned id topic [] b' b'') : Returned id topic failures b b'' where
  errands := by rw [h'.errands, h.errands]; rfl
  trees t := by rw [h'.trees, h.store]
  unclaimed := h'.unclaimed
  claims t hne := by rw [h'.claims t hne, h.store]
  woken w hw := by
    rw [← h.sleepers] at hw
    obtain ⟨hne, d, hd, hwoken⟩ := h'.woken w hw
    exact ⟨hne, d, (h.others w hne).symm.trans hd, hwoken⟩
  others other hne hw := by
    rw [← h.sleepers] at hw
    exact (h'.others other hne hw).trans (h.others other hne)

/-- The entry is free and in front, and its topic is told of it. -/
theorem Attended.nack_returned (ha : b.Attended r) (hc : b.consumer? id = some c)
    (hw : c.waiting = false) {f : Faults} {s : Store} (hs : b.store.requeue c.topic = .ok s)
    {j : Journal} (hj : (b.became f j s id { c with holding := false }).errands =
      ⟨.requeue, c.topic, none⟩ :: b.errands) :
    Returned id c.topic [] b
      ((b.became f j s id { c with holding := false }).notify c.topic .nack) := by
  have hshifted := shifted_became hc { c with holding := false } rfl f j s
  have hhanded : HandedOn id c.topic b
      ((b.became f j s id { c with holding := false }).notify c.topic .nack) :=
    hshifted.hands_on ha hw hw .nack
  have hstore : ((b.became f j s id { c with holding := false }).notify c.topic .nack).store = s :=
    store_notify _ c.topic .nack
  have hrequeued : (∀ t, s.tree t = b.store.tree t) ∧ s.claim? c.topic = none ∧
      ∀ t, t ≠ c.topic → s.claim? t = b.store.claim? t := by
    refine ⟨?_, ?_, fun t hne => (Store.requeue_other hs hne).2⟩
    · obtain ⟨-, key, -, rfl⟩ := Store.requeue_ok hs
      exact fun _ => rfl
    · obtain ⟨-, key, -, rfl⟩ := Store.requeue_ok hs
      exact Table.look_remove_self ..
  obtain ⟨htrees, hfree, hclaims⟩ := hrequeued
  have herrands := (errands_notify _ c.topic .nack).trans hj
  generalize (b.became f j s id { c with holding := false }).notify c.topic .nack = m at *
  exact ⟨herrands, fun t => hstore ▸ htrees t, hstore ▸ hfree,
    fun t hne => hstore ▸ hclaims t hne, hhanded.woken, hhanded.others⟩

/-- An attempt to put back what a consumer holds fails, and the consumer holds it still, or it
succeeds. -/
theorem Attended.nack_cases (ha : b.Attended r) (hc : b.consumer? id = some c)
    (hh : c.holding = true) (hw : c.waiting = false) :
    (∃ e, Untouched id [.refused c.topic e] b (b.settle id .nack).2 ∧
      (b.settle id .nack).2.consumer? id = some c) ∨
    Returned id c.topic [] b (b.settle id .nack).2 ∧
      (b.settle id .nack).2.consumer? id = some { c with holding := false } := by
  rcases settle_cases hc hh .nack with ⟨e, f, he⟩ | ⟨s, f, hs, he⟩
  · rw [he]
    exact .inl ⟨e, ⟨rfl, rfl, fun _ _ => rfl, rfl, fun _ => rfl⟩, hc⟩
  · rw [he]
    refine .inr ⟨ha.nack_returned hc hw hs rfl, ?_⟩
    refine (notify_unwaiting ?_ c.topic .nack).trans (consumer?_became_self ..)
    rw [isWaiting_eq (consumer?_became_self ..)]
    exact hw

theorem release_nacks (hc : b.consumer? id = some c) (hh : c.holding = true) :
    ∃ k : Note, k.errand? = none ∧
      b.release id = ((b.settle id .nack).2.note k).forget id c.topic := by
  rw [release_holding hc hh]
  cases b.settle id .nack with
  | mk answer b' => cases answer <;> exact ⟨_, rfl, rfl⟩

namespace Fate

theorem note (h : Fate id c b n held m) {k : Note} (hk : k.errand? = none) :
    Fate id c b n held (m.note k) := by
  cases h with
  | idle hh h => exact .idle hh (h.note hk)
  | returned failures hh hlt h => exact .returned failures hh hlt (h.note hk)
  | kept failures hh h => exact .kept failures hh (h.note hk)

theorem forget (h : Fate id c b n held m) (hw : m.isWaiting id = false) (topic : String) :
    Fate id c b n held (m.forget id topic) := by
  cases h with
  | idle hh h => exact .idle hh (h.forget hw topic)
  | returned failures hh hlt h => exact .returned failures hh hlt (h.forget topic)
  | kept failures hh h => exact .kept failures hh (h.forget hw topic)

theorem start (id : ConsumerId) (c : Consumer) (b : Broker) : Fate id c b 0 c.holding b := by
  cases hh : c.holding with
  | false => exact .idle hh (.refl id b)
  | true => exact .kept [] hh (.refl id b)

/-- One more attempt, which is none if there is nothing to put back any more. -/
theorem nack (h : Fate id c b n held m) (ha : m.Attended r)
    (hm : m.consumer? id = some { c with holding := held }) (hw : c.waiting = false) :
    ∃ held', Fate id c b (n + 1) held' (m.settle id .nack).2 ∧
      (m.settle id .nack).2.consumer? id = some { c with holding := held' } := by
  cases h with
  | idle hh h =>
    rw [settle_idle hm rfl]
    exact ⟨false, .idle hh h, hm⟩
  | returned failures hh hlt h =>
    rw [settle_idle hm rfl]
    exact ⟨false, .returned failures hh (by omega) h, hm⟩
  | kept failures hh h =>
    rcases ha.nack_cases hm rfl hw with ⟨e, hu, hc⟩ | ⟨hr, hc⟩
    · exact ⟨true, .kept (e :: failures) hh (h.trans hu), hc⟩
    · exact ⟨false, .returned failures hh (by omega) (h.returned hr), hc⟩

/-- The end of a consumer is one more attempt. -/
theorem release (h : Fate id c b n held m) (ha : m.Attended r)
    (hm : m.consumer? id = some { c with holding := held }) (hw : c.waiting = false) :
    ∃ held', Fate id c b (n + 1) held' (m.release id) := by
  obtain ⟨held', hnacked, hc⟩ := h.nack ha hm hw
  have hdown : ∀ {m' : Broker} {d : Bool}, m'.consumer? id = some { c with holding := d } →
      m'.isWaiting id = false := fun hm => (isWaiting_eq hm).trans hw
  cases held with
  | false =>
    rw [settle_idle hm rfl] at hnacked hc
    rw [release_idle hm rfl]
    exact ⟨held', hnacked.forget (hdown hm) c.topic⟩
  | true =>
    obtain ⟨k, hk, he⟩ := release_nacks hm rfl
    rw [he]
    exact ⟨held', (hnacked.note hk).forget (hdown hc) c.topic⟩

end Fate

-- Whatever a consumer does, others keep what they hold.

theorem Spared.holds (h : Spared other b b') (hh : b.Holds other topic) :
    b'.Holds other topic := by
  obtain ⟨c, hc, ht, hheld⟩ := hh
  rcases h with he | ⟨d, hd, -, he⟩
  · exact ⟨c, he.trans hc, ht, hheld⟩
  · cases hc.symm.trans hd
    refine ⟨_, he, ?_⟩
    unfold Consumer.roused
    split <;> exact ⟨ht, hheld⟩

/-- Nothing is claimed in a topic that is claimed already. -/
theorem Sought.beside {rest : Consumer} {res : Option (Except BrokerError Bytes) × Broker}
    (h : Sought b id c rest res) (hclaimed : (b.store.claim? topic).isSome = true) :
    res.2.store.tree topic = b.store.tree topic ∧
      res.2.store.claim? topic = b.store.claim? topic := by
  cases h with
  | cancelled | failed | nothing => exact ⟨rfl, rfl⟩
  | claimed f j s payload _ hs =>
    refine Store.fetchNext_other hs ?_
    rintro rfl
    obtain ⟨-, hfree, -⟩ := Store.fetchNext_some hs
    rw [hfree] at hclaimed
    cases hclaimed

theorem begin_beside (hclaimed : (b.store.claim? topic).isSome = true) (id : ConsumerId) :
    (b.begin id).2.store.tree topic = b.store.tree topic ∧
      (b.begin id).2.store.claim? topic = b.store.claim? topic := by
  cases hc : b.consumer? id with
  | none => simp [begin, hc]
  | some c =>
    rcases begin_cases hc with ⟨-, he⟩ | ⟨-, hs⟩
    · rw [he]
      exact ⟨rfl, rfl⟩
    · exact hs.beside hclaimed

theorem resume_beside (hclaimed : (b.store.claim? topic).isSome = true) (id : ConsumerId) :
    (b.resume id).2.store.tree topic = b.store.tree topic ∧
      (b.resume id).2.store.claim? topic = b.store.claim? topic := by
  cases hc : b.consumer? id with
  | none => simp [resume, hc]
  | some c =>
    cases hcancel : c.cancelled with
    | true =>
      have hstore : ∀ m : Broker, (m.leave id).store = m.store :=
        fun m => congrArg Ledger.store (ledger_leave m id)
      rw [resume_cancelled hc hcancel, hstore]
      split <;> exact ⟨rfl, rfl⟩
    | false =>
      by_cases hw : c.wait = .woken
      · exact (resume_woken hc hcancel hw).beside hclaimed
      · rw [resume_asleep hc hcancel hw]
        exact ⟨rfl, rfl⟩

/-- To settle a message concerns the topic of whoever holds it. -/
theorem settle_beside (hheld : ¬ b.Holds id topic) (v : Verdict) :
    (b.settle id v).2.store.tree topic = b.store.tree topic ∧
      (b.settle id v).2.store.claim? topic = b.store.claim? topic := by
  cases hc : b.consumer? id with
  | none => simp [settle, hc]
  | some c =>
    cases hh : c.holding with
    | false =>
      rw [settle_idle hc hh]
      exact ⟨rfl, rfl⟩
    | true =>
      rcases settle_cases hc hh v with ⟨e, f, he⟩ | ⟨s, f, hs, he⟩
      · rw [he]
        exact ⟨rfl, rfl⟩
      · have hstore : (b.settle id v).2.store = s := by
          rw [he]
          exact store_notify _ c.topic v.reason
        rw [hstore]
        exact apply_other hs fun ht => hheld ⟨c, hc, ht.symm, hh⟩

/-- A call for a message that fails gives none. -/
theorem Sought.failed_empty {rest : Consumer} {e : BrokerError}
    (h : Sought b id c rest (some (.error e), b')) (hh : c.holding = false) (topic : String) :
    ¬ b'.Holds id topic := by
  rintro ⟨d, hd, -, hheld⟩
  cases h with
  | cancelled | failed =>
    rw [consumer?_became_self] at hd
    cases hd
    exact Bool.false_ne_true (hh.symm.trans hheld)

theorem resume_failed_empty {e : BrokerError} (hc : b.consumer? id = some c)
    (hh : c.holding = false) (h : b.resume id = (some (.error e), b')) (topic : String) :
    ¬ b'.Holds id topic := by
  cases hcancel : c.cancelled with
  | true =>
    have hledger : b'.ledger = b.ledger := by
      rw [resume_cancelled hc hcancel] at h
      rw [← (Prod.mk.inj h).2, ledger_leave]
      split
      · exact ledger_setConsumer hc rfl rfl
      · rfl
    simp [holds_iff, hledger, holder_eq hc, hh]
  | false =>
    by_cases hw : c.wait = .woken
    · have hs := resume_woken hc hcancel hw
      rw [h] at hs
      exact hs.failed_empty hh topic
    · rw [resume_asleep hc hcancel hw] at h
      cases h

theorem careful_note (id : ConsumerId) (b : Broker) {k : Note} (hk : k.errand? = none) :
    Careful id b (b.note k) :=
  ⟨⟨[], errands_note hk b, nofun⟩, fun _ _ _ hh => ⟨hh, rfl, rfl⟩⟩

theorem careful_refl (id : ConsumerId) (b : Broker) : Careful id b b :=
  ⟨⟨[], rfl, nofun⟩, fun _ _ _ hh => ⟨hh, rfl, rfl⟩⟩

theorem Fetches.requeues {count : Nat} (h : Fetches topic count b b') :
    ∃ new : List Errand, b'.errands = new ++ b.errands ∧
      ∀ e ∈ new, e.call = .requeue → b.Holds id e.topic := by
  obtain ⟨new, he, -, hnew⟩ := h
  refine ⟨new, he, fun e hm hcall => ?_⟩
  rw [(hnew e hm).1] at hcall
  cases hcall

/-- The topic of a holder is claimed. -/
theorem Holds.claimed (h : b.ledger.Accounted) (hh : b.Holds id topic) :
    (b.store.claim? topic).isSome = true :=
  (h.owned id topic (holds_iff.mp hh)).1

theorem careful_begin (h : b.ledger.Accounted) (id : ConsumerId) : Careful id b (b.begin id).2 where
  requeues := by
    cases hc : b.consumer? id with
    | none => exact ⟨[], by simp [begin, hc], nofun⟩
    | some c => exact (fetches_begin hc).requeues
  others _ _ hne hh := ⟨(spared_begin hne).holds hh, begin_beside (hh.claimed h) id⟩

theorem careful_resume (h : b.ledger.Accounted) (id : ConsumerId) :
    Careful id b (b.resume id).2 where
  requeues := by
    cases hc : b.consumer? id with
    | none => exact ⟨[], by simp [resume, hc], nofun⟩
    | some c => exact (fetches_resume hc).requeues
  others _ _ hne hh := ⟨(spared_resume hne).holds hh, resume_beside (hh.claimed h) id⟩

theorem careful_settle (h : b.ledger.Accounted) (id : ConsumerId) (v : Verdict) :
    Careful id b (b.settle id v).2 where
  requeues := by
    by_cases hheld : ∃ c, b.consumer? id = some c ∧ c.holding = true
    · obtain ⟨c, hc, hh⟩ := hheld
      obtain ⟨failure, he⟩ := errands_settle hc hh v
      refine ⟨[⟨v.call, c.topic, failure⟩], he, fun e hm _ => ?_⟩
      rw [List.mem_singleton.mp hm]
      exact ⟨c, hc, rfl, hh⟩
    · have hidle : ∀ c, b.consumer? id = some c → c.holding = false := by
        intro c hc
        by_contra hh
        exact hheld ⟨c, hc, by simpa using hh⟩
      rw [errands_settle_idle hidle v]
      exact ⟨[], rfl, nofun⟩
  others other topic hne hh := by
    refine ⟨(spared_settle hne v).holds hh, settle_beside (fun hown => ?_) v⟩
    exact hne (h.alone other id topic (holds_iff.mp hh) (holds_iff.mp hown))

theorem careful_release (h : b.ledger.Accounted) (id : ConsumerId) :
    Careful id b (b.release id) := by
  cases hc : b.consumer? id with
  | none => simpa [release, hc] using careful_refl id b
  | some c =>
    have hforget : ∀ {m : Broker}, Careful id b m → Careful id b (m.forget id c.topic) := by
      intro m hm
      refine ⟨?_, fun other topic hne hh => ?_⟩
      · rw [errands_forget]
        exact hm.requeues
      · obtain ⟨⟨d, hd, hholds⟩, hstore⟩ := hm.others other topic hne hh
        exact ⟨⟨d, (consumer?_forget hne c.topic).trans hd, hholds⟩, hstore⟩
    cases hh : c.holding with
    | false =>
      rw [release_idle hc hh]
      exact hforget (careful_refl id b)
    | true =>
      obtain ⟨k, hk, he⟩ := release_nacks hc hh
      have hsettle := careful_settle h id .nack
      rw [he]
      refine hforget ⟨?_, hsettle.others⟩
      rw [errands_note hk]
      exact hsettle.requeues

end Broker

end TopicQueue

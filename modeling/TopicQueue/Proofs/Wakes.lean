import TopicQueue.Proofs.Conservation
import TopicQueue.Proofs.Waits

namespace TopicQueue

/-- A look at the store that has failed. -/
def Note.isFailedLook : Note → Bool
  | .called .fetchNext _ (some _) => true
  | _ => false

namespace Broker

/-- The next call for a message of this topic gets one, or finds that it does not decode. -/
def Claimable (b : Broker) (topic : String) : Prop :=
  b.store.claim? topic = none ∧ b.store.tree topic ≠ []

/-- If somebody's flag is up, somebody else has been woken. -/
def Alert (b : Broker) (topic : String) : Prop :=
  (∃ id c, b.consumer? id = some c ∧ c.topic = topic ∧ c.waiting = true) →
    ∃ id c, b.consumer? id = some c ∧ c.topic = topic ∧ c.wait = .woken

def Wakeful (b : Broker) : Prop := ∀ topic, b.Claimable topic → b.Alert topic

/-- No look at the store has failed. -/
def Unfailed (b : Broker) : Prop := ∀ n ∈ b.records, n.isFailedLook = false

instance (b : Broker) (topic : String) : Decidable (b.Claimable topic) :=
  inferInstanceAs (Decidable (_ ∧ _))

instance (b : Broker) : Decidable b.Unfailed :=
  inferInstanceAs (Decidable (∀ n ∈ b.records, n.isFailedLook = false))

variable {b b' : Broker} {id : ConsumerId} {c c' : Consumer} {r r' : Option ConsumerId}
  {topic : String}

/-- After a notification nobody of its topic sleeps, or somebody has been woken. -/
theorem Attended.alert_notify (h : b.Attended r) (topic : String) (reason : WakeReason) :
    (b.notify topic reason).Alert topic := by
  rcases b.notify_cases topic reason with ⟨n, -, he, hnobody⟩ | ⟨id, c, roster, hr, hm, hc, hw, he⟩
  · rintro ⟨id, c, hc, rfl, hw⟩
    rw [he, consumer?_note] at hc
    obtain ⟨roster, hr, hm⟩ := h.listed id c hc
    have hasleep := hnobody roster hr id hm
    simp [isWaiting, hc, hw] at hasleep
  · intro _
    obtain ⟨d, hd, ht⟩ := h.enrolled topic roster hr id hm
    rw [hc] at hd
    cases hd
    rw [he]
    exact ⟨id, _, (h.shifted_wake hc hw).after_self, ht, rfl⟩

/-- A change that puts no flag up and loses nobody who has been woken. -/
theorem Shifted.alert (hs : Shifted b b' id c c') (hwaiting : c'.waiting = true → c.waiting = true)
    (hwoken : c.wait = .woken → c'.wait = .woken) (h : b.Alert topic) : b'.Alert topic := by
  rintro ⟨other, d, hd, ht, hw⟩
  obtain ⟨i, e, he, het, hew⟩ : ∃ id c, b.consumer? id = some c ∧ c.topic = topic ∧
      c.wait = .woken := by
    apply h
    by_cases hne : other = id
    · rw [hne, hs.after_self] at hd
      cases hd
      exact ⟨id, c, hs.before, hs.topic.symm.trans ht, hwaiting hw⟩
    · exact ⟨other, d, (hs.after_of_ne hne).symm.trans hd, ht, hw⟩
  by_cases hne : i = id
  · rw [hne, hs.before] at he
    cases he
    exact ⟨id, c', hs.after_self, hs.topic.trans het, hwoken hew⟩
  · exact ⟨i, e, (hs.after_of_ne hne).trans he, het, hew⟩

/-- A change of a consumer does not matter to other topics. -/
theorem Shifted.alert_other (hs : Shifted b b' id c c') (hne : topic ≠ c.topic)
    (h : b.Alert topic) : b'.Alert topic := by
  have hother : ∀ {i d}, d.topic = topic → (b'.consumer? i = some d ↔ b.consumer? i = some d) := by
    intro i d ht
    by_cases hi : i = id
    · rw [hi, hs.after_self, hs.before]
      constructor
      · rintro ⟨⟩
        exact absurd (ht.symm.trans hs.topic) hne
      · rintro ⟨⟩
        exact absurd ht.symm hne
    · rw [hs.after_of_ne hi]
  rintro ⟨i, d, hd, ht, hw⟩
  obtain ⟨j, e, he, het, hew⟩ := h ⟨i, d, (hother ht).mp hd, ht, hw⟩
  exact ⟨j, e, (hother het).mpr he, het, hew⟩

theorem Attended.keep_alert (h : b.Attended r) {t : String} (ha : b.Alert t) (topic : String)
    (reason : WakeReason) : (b.notify topic reason).Alert t := by
  rcases b.notify_cases topic reason with ⟨n, -, he, -⟩ | ⟨id, c, roster, -, -, hc, hw, he⟩
  · rw [he]
    exact ha
  · rw [he]
    refine (h.shifted_wake hc hw).alert (by simp) ?_ ha
    exact fun _ => rfl

theorem claimable_notify (b : Broker) (topic : String) (reason : WakeReason) (t : String) :
    (b.notify topic reason).Claimable t ↔ b.Claimable t := by
  rw [Claimable, store_notify, Claimable]

end Broker

open Broker

/-- What a call does for those who wait. -/
structure Watches (m m' : Moment) : Prop where
  attended : m'.broker.Attended m'.running
  wakeful : m'.broker.Unfailed → m.broker.Wakeful → m'.broker.Wakeful

namespace Broker

variable {b b' : Broker} {id : ConsumerId} {c c' : Consumer} {r r' : Option ConsumerId}
  {topic : String}

/-- A notification makes up for whatever has happened in its topic. -/
theorem Attended.watches_notify (h : b'.Attended r)
    (hw : b.Wakeful → ∀ t, t ≠ topic → b'.Claimable t → b'.Alert t) (reason : WakeReason) :
    Watches ⟨b, r'⟩ ⟨b'.notify topic reason, r⟩ := by
  refine ⟨h.notify topic reason, fun _ hwakeful t ht => ?_⟩
  by_cases hne : t = topic
  · rw [hne]
    exact h.alert_notify topic reason
  · rw [claimable_notify] at ht
    exact h.keep_alert (hw hwakeful t hne ht) topic reason

/-- A call of one that is not there. -/
theorem Attended.watches_none (h : b.Attended r) (hsame : b' = b) : Watches ⟨b, r⟩ ⟨b', r⟩ := by
  rw [hsame]
  exact ⟨h, fun _ hw => hw⟩

/-- Nothing has happened to those who wait. -/
theorem Attended.watches_same (h : b.Attended r) (hc : b'.consumers = b.consumers)
    (ht : b'.topics = b.topics) (hn : b'.nextId = b.nextId)
    (hready : ∀ other ∈ b.ready, other ∈ b'.ready)
    (hstore : ∀ t, b'.Claimable t → b.Claimable t) : Watches ⟨b, r⟩ ⟨b', r⟩ := by
  refine ⟨h.same hc ht hn hready, fun _ hw t hclaim => ?_⟩
  have halert := hw t (hstore t hclaim)
  unfold Alert consumer? at *
  rwa [hc]

/-- A consumer has changed; it sleeps no more than before, and is woken no less. -/
theorem Attended.watches_shift (h : b.Attended r) (hs : Shifted b b' id c c')
    (hflag : c'.waiting = true ↔ c'.wait = .parked)
    (hqueue : c'.wait = .asked ∨ c'.wait = .woken → id ∈ b'.ready ∨ r = some id)
    (hwaiting : c'.waiting = true → c.waiting = true)
    (hwoken : c.wait = .woken → c'.wait = .woken)
    (hstore : ∀ t, b'.Claimable t → b.Claimable t) : Watches ⟨b, r⟩ ⟨b', r⟩ :=
  ⟨h.shift hs hflag hqueue, fun _ hw t hclaim =>
    hs.alert hwaiting hwoken (hw t (hstore t hclaim))⟩

/-- A consumer has changed, and whatever that means for its topic, a notification follows. -/
theorem Attended.watches_handoff (h : b.Attended r) (hs : Shifted b b' id c c')
    (hflag : c'.waiting = true ↔ c'.wait = .parked)
    (hqueue : c'.wait = .asked ∨ c'.wait = .woken → id ∈ b'.ready ∨ r = some id)
    (hstore : ∀ t, t ≠ c.topic → b'.Claimable t → b.Claimable t) (reason : WakeReason) :
    Watches ⟨b, r⟩ ⟨b'.notify c.topic reason, r⟩ := by
  refine (h.shift hs hflag hqueue).watches_notify ?_ reason
  intro hw t hne hclaim
  exact hs.alert_other hne (hw t (hstore t hne hclaim))

/-- A consumer has looked, and there is nothing to claim in its topic any more. -/
theorem Attended.watches_look (h : b.Attended r) (hs : Shifted b b' id c c')
    (hflag : c'.waiting = true ↔ c'.wait = .parked)
    (hqueue : c'.wait = .asked ∨ c'.wait = .woken → id ∈ b'.ready ∨ r = some id)
    (hstore : ∀ t, t ≠ c.topic → b'.Claimable t → b.Claimable t)
    (hno : ¬ b'.Claimable c.topic) : Watches ⟨b, r⟩ ⟨b', r⟩ := by
  refine ⟨h.shift hs hflag hqueue, fun _ hw t hclaim => ?_⟩
  have hne : t ≠ c.topic := by
    rintro rfl
    exact hno hclaim
  exact hs.alert_other hne (hw t (hstore t hne hclaim))

theorem claimable_of_store {t : String} {s : Store} (hs : b'.store = s)
    (h : s.tree t = b.store.tree t ∧ s.claim? t = b.store.claim? t) :
    b'.Claimable t → b.Claimable t := by
  rw [Claimable, hs, h.1, h.2]
  exact id

/-- A look of a consumer that has not been woken, or has not been cancelled. -/
theorem Sought.watches {res : Option (Except BrokerError Bytes) × Broker} (h : b.Attended r)
    (hs : Sought b id c c.asleep res) (hc : b.consumer? id = some c)
    (hcancel : c.wait = .woken → c.cancelled = false) : Watches ⟨b, r⟩ ⟨res.2, r⟩ := by
  cases hs with
  | cancelled f j hcancelled hj =>
    refine h.watches_shift (shifted_became hc c.done rfl f j b.store) (by simp [Consumer.done])
      (by simp [Consumer.done]) (by simp [Consumer.done]) ?_ fun _ ht => ht
    intro hw
    rw [hcancel hw] at hcancelled
    cases hcancelled
  | failed f j e hcancelled hj =>
    have hrecords : (b.became f j b.store id c.done).records =
        .called .fetchNext c.topic (some e) :: b.records := by simp [Broker.records, became, hj]
    refine ⟨h.shift (shifted_became hc c.done rfl f j b.store) (by simp [Consumer.done])
      (by simp [Consumer.done]), fun hu => ?_⟩
    simp only [Unfailed, hrecords] at hu
    cases hu _ List.mem_cons_self
  | claimed f j s payload hcancelled hf hj =>
    refine h.watches_look (shifted_became hc { c with holding := true }.done rfl f j s)
      (by simp [Consumer.done]) (by simp [Consumer.done]) ?_ ?_
    · exact fun t hne => claimable_of_store rfl (Store.fetchNext_other hf hne)
    · rintro ⟨hfree, -⟩
      obtain ⟨-, -, key, value, rest, -, -, rfl⟩ := Store.fetchNext_some hf
      have hclaimed : Table.look (b.store.claims.put c.topic key) c.topic = none := hfree
      rw [Table.look_put_self] at hclaimed
      cases hclaimed
  | nothing f j hcancelled hf hj =>
    refine h.watches_look (shifted_became hc c.asleep rfl f j b.store)
      (by simp [Consumer.asleep, Consumer.alert]) (by simp [Consumer.asleep])
      (fun t _ ht => ht) ?_
    rintro ⟨hfree, hentry⟩
    exact hentry ((Store.fetchNext_none hf).2 hfree)

theorem Attended.watches_begin (h : b.Attended r)
    (hw : ∀ c, b.consumer? id = some c → c.wait = .idle ∨ c.wait = .asked) :
    Watches ⟨b, r⟩ ⟨(b.begin id).2, r⟩ := by
  cases hc : b.consumer? id with
  | none => exact h.watches_none (by simp [begin, hc])
  | some c =>
    have hwait := hw c hc
    have hwoken : c.wait ≠ .woken := by rcases hwait with hw | hw <;> simp [hw]
    have hdown : c.waiting = false :=
      h.unflagged hc (by rcases hwait with hw | hw <;> simp [hw])
    rcases begin_cases hc with ⟨-, he⟩ | ⟨-, hs⟩
    · rw [he]
      exact h.watches_shift (shifted_setConsumer hc { c with wait := .idle } rfl) (by simp [hdown])
        (by simp) (fun hw => hw) (fun hw => absurd hw hwoken) fun _ ht => ht
    · exact hs.watches h hc fun hw => absurd hw hwoken

/-- The end of a wait: a wake that came and is of no use here is passed on. -/
theorem Attended.watches_leave (h : b.Attended r) (hs : Shifted b b' id c c')
    (hup : c'.waiting = c.waiting) (hstore : b'.store = b.store) :
    Watches ⟨b, r⟩ ⟨b'.leave id, r⟩ := by
  have hleft : Shifted b (b'.setConsumer id { c' with waiting := false, wait := .idle }) id c
      { c' with waiting := false, wait := .idle } := hs.set _ hs.topic
  have hclaim : ∀ t, (b'.setConsumer id { c' with waiting := false, wait := .idle }).Claimable t →
      b.Claimable t := fun t => claimable_of_store hstore ⟨rfl, rfl⟩
  cases hw : c.waiting with
  | true =>
    have hparked := (h.flagged id c hs.before).mp hw
    rw [leave_waiting hs.after_self (hup.trans hw)]
    exact h.watches_shift hleft (by simp) (by simp) (by simp) (by simp [hparked]) hclaim
  | false =>
    have hhandoff := h.watches_handoff hleft (by simp) (by simp) (fun t _ => hclaim t) .handoff
    rw [← hs.topic] at hhandoff
    rw [leave_woken hs.after_self (hup.trans hw)]
    exact hhandoff

theorem Attended.watches_resume (h : b.Attended r) (id : ConsumerId) :
    Watches ⟨b, r⟩ ⟨(b.resume id).2, r⟩ := by
  cases hc : b.consumer? id with
  | none => exact h.watches_none (by simp [resume, hc])
  | some c =>
    cases hcancel : c.cancelled with
    | true =>
      rw [resume_cancelled hc hcancel]
      split
      · exact h.watches_leave (shifted_setConsumer hc { c with permit := true } rfl) rfl rfl
      · exact h.watches_leave (shifted_self hc) rfl rfl
    | false =>
      by_cases hwoken : c.wait = .woken
      · have hnote : (b.note (.woken id c.topic)).Attended r :=
          h.same rfl rfl rfl fun _ hm => hm
        have hs := (resume_woken hc hcancel hwoken).watches hnote hc fun _ => hcancel
        exact ⟨hs.attended, fun hu hw => hs.wakeful hu hw⟩
      · rw [resume_asleep hc hcancel hwoken]
        exact ⟨h, fun _ hw => hw⟩

theorem Attended.watches_abandon (h : b.Attended r) (id : ConsumerId) :
    Watches ⟨b, r⟩ ⟨b.abandon id, r⟩ := by
  cases hc : b.consumer? id with
  | none => exact h.watches_none (by simp [abandon, hc])
  | some c =>
    have hoff := shifted_off hc
    unfold abandon
    rw [hc]
    dsimp only
    split
    · rename_i hw
      exact h.watches_shift hoff (h.flagged id c hc) (by simp [hw]) (fun hup => hup)
        (fun hwoken => hwoken) fun _ ht => ht
    · rename_i hw
      have hdown := h.unflagged hc (by simp [hw])
      exact h.watches_shift (hoff.set { c with wait := .idle } rfl) (by simp [hdown])
        (by simp) (fun hup => hup) (by simp [hw]) fun _ ht => ht
    · exact h.watches_leave hoff rfl rfl
    · exact h.watches_leave (hoff.set { c with permit := true } rfl) rfl rfl

theorem Attended.watches_ask (h : b.Attended r) (cancelled : Bool)
    (hidle : ∀ c, b.consumer? id = some c → c.wait = .idle) :
    Watches ⟨b, r⟩ ⟨b.ask id cancelled, r⟩ := by
  cases hc : b.consumer? id with
  | none => exact h.watches_none (by simp [ask, hc])
  | some c =>
    have hw := hidle c hc
    have hdown := h.unflagged hc (by simp [hw])
    have hs := (shifted_setConsumer hc { c with cancelled, wait := .asked } rfl).enqueue
    have hstore : (b.ask id cancelled).store = b.store :=
      congrArg Ledger.store (ledger_ask b id cancelled)
    have hask : b.ask id cancelled =
        (b.setConsumer id { c with cancelled, wait := .asked }).enqueue id := by simp [ask, hc]
    rw [← hask] at hs
    refine h.watches_shift hs (by simp [hdown]) (fun _ => .inl ?_) (fun hup => hup) (by simp [hw])
      fun t => claimable_of_store hstore ⟨rfl, rfl⟩
    rw [hask]
    exact mem_enqueue _ id

theorem Attended.watches_cancel (h : b.Attended r) (id : ConsumerId) :
    Watches ⟨b, r⟩ ⟨b.cancel id, r⟩ := by
  cases hc : b.consumer? id with
  | none => exact h.watches_none (by simp [cancel, hc])
  | some c =>
    have hs := shifted_setConsumer hc { c with cancelled := true } rfl
    have hstore : (b.cancel id).store = b.store := congrArg Ledger.store (ledger_cancel b id)
    have hcancel : b.cancel id = if c.wait = .parked
        then (b.setConsumer id { c with cancelled := true }).enqueue id
        else b.setConsumer id { c with cancelled := true } := by simp [cancel, hc]
    have hshift : Shifted b (b.cancel id) id c { c with cancelled := true } := by
      rw [hcancel]
      split
      · exact hs.enqueue
      · exact hs
    have hready : ∀ other, other ∈ b.ready → other ∈ (b.cancel id).ready := by
      intro other hm
      rw [hcancel]
      split
      · exact mem_enqueue_of_mem id hm
      · exact hm
    exact h.watches_shift hshift (h.flagged id c hc)
      (fun hw => (h.queued id c hc hw).imp_left (hready id)) (fun hup => hup)
      (fun hwoken => hwoken) fun t => claimable_of_store hstore ⟨rfl, rfl⟩

theorem Attended.watches_publish (h : b.Attended r) (topic : String) (payload : Bytes) :
    Watches ⟨b, r⟩ ⟨(b.publish topic payload).2, r⟩ := by
  rcases b.publish_cases topic payload with ⟨e, f, he⟩ | ⟨s, f, hs, he⟩
  · rw [he]
    exact h.watches_same rfl rfl rfl (fun _ hm => hm) fun _ ht => ht
  · rw [he]
    have hstored : (({ b with faults := f, store := s }.note (.called .insert topic none)).note
        (.stored topic payload)).Attended r := h.same rfl rfl rfl fun _ hm => hm
    refine hstored.watches_notify ?_ .publish
    intro hw t hne hclaim
    exact hw t (claimable_of_store rfl (Store.insert_other hs hne) hclaim)

theorem Attended.watches_shutdown (h : b.Attended r) : Watches ⟨b, r⟩ ⟨b.shutdown.2, r⟩ := by
  rcases b.shutdown_cases with ⟨e, f, he⟩ | ⟨f, he⟩ <;>
  · rw [he]
    exact h.watches_same rfl rfl rfl (fun _ hm => hm) fun _ ht => ht

theorem Attended.watches_subscribe (h : b.Attended r) (topic : String) :
    Watches ⟨b, r⟩ ⟨(b.subscribe topic).2, r⟩ := by
  refine ⟨h.subscribe topic, fun _ hw t hclaim => ?_⟩
  rintro ⟨id, c, hc, ht, hup⟩
  rw [consumer?_subscribe] at hc
  split at hc
  · cases hc
    cases hup
  · obtain ⟨other, d, hd, hdt, hwoken⟩ := hw t hclaim ⟨id, c, hc, ht, hup⟩
    refine ⟨other, d, ?_, hdt, hwoken⟩
    rw [consumer?_subscribe, if_neg (Nat.ne_of_lt (h.fresh other d hd)), hd]

theorem apply_other {v : Verdict} {s s' : Store} {t : String} (h : v.apply topic s = .ok s')
    (hne : t ≠ topic) : s'.tree t = s.tree t ∧ s'.claim? t = s.claim? t := by
  cases v with
  | ack => exact Store.commit_other h hne
  | nack => exact Store.requeue_other h hne

theorem Attended.watches_settle (h : b.Attended r) (id : ConsumerId) (v : Verdict) :
    Watches ⟨b, r⟩ ⟨(b.settle id v).2, r⟩ := by
  cases hc : b.consumer? id with
  | none => exact h.watches_none (by simp [settle, hc])
  | some c =>
    cases hh : c.holding with
    | false =>
      rw [settle_idle hc hh]
      exact ⟨h, fun _ hw => hw⟩
    | true =>
      rcases settle_cases hc hh v with ⟨e, f, he⟩ | ⟨s, f, hs, he⟩
      · rw [he]
        exact h.watches_same rfl rfl rfl (fun _ hm => hm) fun _ ht => ht
      · rw [he]
        exact h.watches_handoff (shifted_became hc { c with holding := false } rfl f _ s)
          (h.flagged id c hc) (h.queued id c hc)
          (fun t hne => claimable_of_store rfl (apply_other hs hne)) v.reason

theorem Attended.watches_forget (h : b.Attended r) (hc : b.consumer? id = some c)
    (hidle : c.wait = .idle) : Watches ⟨b, r⟩ ⟨b.forget id c.topic, r⟩ := by
  refine ⟨h.forget hc, fun _ hw t hclaim => ?_⟩
  rintro ⟨other, d, hd, ht, hup⟩
  rw [consumer?_forget_eq] at hd
  split at hd
  · cases hd
  · obtain ⟨i, e, he, het, hwoken⟩ := hw t hclaim ⟨other, d, hd, ht, hup⟩
    refine ⟨i, e, ?_, het, hwoken⟩
    rw [consumer?_forget_eq, if_neg, he]
    rintro rfl
    rw [hc] at he
    cases he
    rw [hidle] at hwoken
    cases hwoken

/-- To settle a message is no change to a consumer's own call. -/
theorem Attended.settle_consumer (h : b.Attended r) (hc : b.consumer? id = some c)
    (hidle : c.wait = .idle) (v : Verdict) :
    ∃ d, (b.settle id v).2.consumer? id = some d ∧ d.topic = c.topic ∧ d.wait = .idle := by
  have hdown := h.unflagged hc (by simp [hidle])
  cases hh : c.holding with
  | false =>
    rw [settle_idle hc hh]
    exact ⟨c, hc, rfl, hidle⟩
  | true =>
    rcases settle_cases hc hh v with ⟨e, f, he⟩ | ⟨s, f, hs, he⟩
    · rw [he]
      exact ⟨c, hc, rfl, hidle⟩
    · rw [he]
      have hset := (shifted_became hc { c with holding := false } rfl f
        [⟨b.span, v.record id c.topic⟩, ⟨b.span, .called v.call c.topic none⟩] s).after_self
      rcases spared_notify _ c.topic v.reason id with heq | ⟨d, hd, hup, -⟩
      · exact ⟨_, heq.trans hset, rfl, hidle⟩
      · rw [hset] at hd
        cases hd
        rw [hdown] at hup
        cases hup

theorem Attended.watches_release (h : b.Attended r)
    (hidle : ∀ c, b.consumer? id = some c → c.wait = .idle) :
    Watches ⟨b, r⟩ ⟨b.release id, r⟩ := by
  cases hc : b.consumer? id with
  | none => exact h.watches_none (by simp [release, hc])
  | some c =>
    cases hh : c.holding with
    | false =>
      rw [release_idle hc hh]
      exact h.watches_forget hc (hidle c hc)
    | true =>
      have hsettle := h.watches_settle id .nack
      obtain ⟨d, hd, ht, hdw⟩ := h.settle_consumer hc (hidle c hc) .nack
      have hrecords := release_records hc hh
      obtain ⟨n, hnote⟩ : ∃ n, b.release id = ((b.settle id .nack).2.note n).forget id c.topic := by
        rw [release_holding hc hh]
        cases b.settle id .nack with
        | mk answer b' => cases answer <;> exact ⟨_, rfl⟩
      have hnoted : ((b.settle id .nack).2.note n).Attended r :=
        hsettle.attended.same rfl rfl rfl fun _ hm => hm
      have hforget := hnoted.watches_forget hd hdw
      rw [ht, ← hnote] at hforget
      refine ⟨hforget.attended, fun hu hw => hforget.wakeful hu (hsettle.wakeful ?_ hw)⟩
      simp only [Unfailed, hrecords] at hu
      exact hu

end Broker

/-- Every call watches for those who wait. -/
theorem Call.watches {id : ConsumerId} {m m' : Moment} (h : Call id m m')
    (ha : m.broker.Attended m.running) : Watches m m' := by
  cases h with
  | note => exact ha.watches_same rfl rfl rfl (fun _ hm => hm) fun _ ht => ht
  | span => exact ha.watches_same rfl rfl rfl (fun _ hm => hm) fun _ ht => ht
  | tick => exact ha.watches_same rfl rfl rfl (fun _ hm => hm) fun _ ht => ht
  | arm => exact ha.watches_same rfl rfl rfl (fun _ hm => hm) fun _ ht => ht
  | publish topic payload => exact ha.watches_publish topic payload
  | notify topic reason => exact ha.watches_notify (fun hw t _ ht => hw t ht) reason
  | shutdown => exact ha.watches_shutdown
  | subscribe topic => exact ha.watches_subscribe topic
  | @enqueue b r other =>
    have hstore : (b.enqueue other).store = b.store := congrArg Ledger.store (ledger_enqueue b other)
    exact ha.watches_same (enqueue_consumers b other) (enqueue_topics b other)
      (enqueue_nextId b other) (fun _ hm => mem_enqueue_of_mem other hm)
      fun t => claimable_of_store hstore ⟨rfl, rfl⟩
  | ask cancelled hidle => exact ha.watches_ask cancelled hidle
  | cancel => exact ha.watches_cancel id
  | abandon => exact ha.watches_abandon id
  | settle v => exact ha.watches_settle id v
  | release hidle => exact ha.watches_release hidle
  | @take b rest hready =>
    refine ⟨⟨ha.fresh, ha.listed, ha.enrolled, ha.flagged, ?_⟩, fun _ hw => hw⟩
    intro other c hc hw
    rcases ha.queued other c hc hw with hm | hr
    · rw [hready] at hm
      rcases List.mem_cons.mp hm with rfl | hm
      · exact .inr rfl
      · exact .inl hm
    · cases hr
  | begin hw => exact ha.watches_begin hw
  | resume => exact ha.watches_resume id
  | @rest b hstill =>
    refine ⟨⟨ha.fresh, ha.listed, ha.enrolled, ha.flagged, ?_⟩, fun _ hw => hw⟩
    intro other c hc hw
    rcases ha.queued other c hc hw with hm | hr
    · exact .inl hm
    · cases hr
      rcases hstill c hc with hi | hp <;> simp_all

theorem Recorded.subset {id : ConsumerId} {b b' : Broker} (h : Recorded id b b') {n : Note}
    (hn : n ∈ b.records) : n ∈ b'.records := by
  cases h with
  | nothing h => exact h ▸ hn
  | failed _ _ _ h | stored _ _ _ h | claimed _ _ _ _ h | settled _ _ _ _ h | released _ _ _ _ h =>
    rw [h]
    exact List.mem_cons_of_mem _ hn

theorem Reaches.attended {m m' : Moment} (h : Reaches m m') (ha : m.broker.Attended m.running) :
    m'.broker.Attended m'.running := by
  induction h with
  | refl => exact ha
  | tail _ hcall ih =>
    obtain ⟨id, hcall⟩ := hcall
    exact (hcall.watches ih).attended

/-- Whatever is called, nobody who waits is forgotten, as long as no look at the store fails. -/
theorem Reaches.watches {m m' : Moment} (h : Reaches m m') (ha : m.broker.Attended m.running)
    (hw : m.broker.Wakeful) :
    m'.broker.Attended m'.running ∧ (m'.broker.Unfailed → m'.broker.Wakeful) := by
  refine ⟨h.attended ha, ?_⟩
  induction h with
  | refl => exact fun _ => hw
  | tail hcalls hcall ih =>
    obtain ⟨id, hcall⟩ := hcall
    intro hu
    refine (hcall.watches (Reaches.attended hcalls ha)).wakeful hu (ih fun n hn => ?_)
    exact hu n (hcall.recorded.subset hn)

theorem attended_start (flushOnInsert : Bool) :
    Attended { store := { flushOnInsert } } none := by
  constructor <;> simp [consumer?, roster?, Table.look]

namespace Scene

theorem Reachable.watched {s : Scene} (h : s.Reachable) :
    s.broker.Attended none ∧ (s.broker.Unfailed → s.broker.Wakeful) := by
  obtain ⟨flushOnInsert, hr⟩ := h.reaches
  have hstart : Wakeful { store := { flushOnInsert } } := by
    rintro topic - ⟨id, c, hc, -⟩
    cases hc
  exact hr.watches (attended_start flushOnInsert) hstart

/-- As long as no look at the store has failed: between two tasks, if a topic has an entry that
nobody has claimed, then whoever sleeps for it has somebody beside it who has been woken and is
about to run; and once all tasks have run nobody asks for it any more, no plain consumer and no
session. -/
theorem no_wake_lost {s : Scene} (hs : s.Reachable) (hu : s.broker.Unfailed) {topic : String}
    (hc : s.broker.Claimable topic) :
    (∀ id c, s.broker.consumer? id = some c → c.topic = topic → c.waiting = true →
      ∃ other d, other ≠ id ∧ s.broker.consumer? other = some d ∧ d.topic = topic ∧
        d.wait = .woken ∧ d.waiting = false ∧ other ∈ s.broker.ready) ∧
    (s.broker.ready = [] →
      (∀ id c, s.broker.consumer? id = some c → c.topic = topic → c.wait = .idle) ∧
      ∀ id session c, s.service.sessions.look id = some session →
        s.broker.consumer? id = some c → c.topic = topic → session.position = .reading) := by
  obtain ⟨ha, hw⟩ := hs.watched
  have halert := hw hu topic hc
  have hwoken : ∀ id c, s.broker.consumer? id = some c → c.topic = topic → c.waiting = true →
      ∃ other d, other ≠ id ∧ s.broker.consumer? other = some d ∧ d.topic = topic ∧
        d.wait = .woken ∧ d.waiting = false ∧ other ∈ s.broker.ready := by
    intro id c hid ht hup
    obtain ⟨other, d, hd, hdt, hdw⟩ := halert ⟨id, c, hid, ht, hup⟩
    have hdown := ha.unflagged hd (by simp [hdw])
    refine ⟨other, d, ?_, hd, hdt, hdw, hdown, ?_⟩
    · rintro rfl
      rw [hid] at hd
      cases hd
      rw [hup] at hdown
      cases hdown
    · rcases ha.queued other d hd (.inr hdw) with hm | hr
      · exact hm
      · cases hr
  refine ⟨hwoken, fun hready => ?_⟩
  have hidle : ∀ id c, s.broker.consumer? id = some c → c.topic = topic → c.wait = .idle := by
    intro id c hid ht
    have hnobody : ∀ other, other ∉ s.broker.ready := by simp [hready]
    cases hwait : c.wait with
    | idle => rfl
    | asked =>
      rcases ha.queued id c hid (.inl hwait) with hm | hr
      · exact absurd hm (hnobody id)
      · cases hr
    | parked =>
      obtain ⟨other, -, -, -, -, -, -, hm⟩ := hwoken id c hid ht ((ha.flagged id c hid).mpr hwait)
      exact absurd hm (hnobody other)
    | woken =>
      rcases ha.queued id c hid (.inr hwait) with hm | hr
      · exact absurd hm (hnobody id)
      · cases hr
  refine ⟨hidle, ?_⟩
  intro id session c hsession hid ht
  have hstands := hs.orderly.service.stands id session hsession
  unfold Session.Stands at hstands
  split at hstands
  · assumption
  · obtain ⟨d, hd, hparked⟩ := hstands
    have hsame : d = c := Option.some.inj (hd.symm.trans hid)
    rw [hsame, hidle id c hid ht] at hparked
    rcases hparked with hw | hw <;> cases hw

/-- Two consumers and a session wait, and the first of them has been woken for an entry. -/
def oneWoken : List Step :=
  [⟨.subscribe "t" "c", false⟩, ⟨.subscribe "t" "d", false⟩, ⟨.session "t" "s" false, false⟩,
   ⟨.next "c" false, false⟩, ⟨.next "d" false, false⟩, ⟨.command "s" .init, false⟩,
   ⟨.publish "t" [1], true⟩]

/-- The consumer that was woken has gone, its wake has been passed on and used, and the entry has
come back when nobody asked for it. -/
def noneWoken : List Step :=
  [⟨.subscribe "t" "c", false⟩, ⟨.subscribe "t" "d", false⟩, ⟨.session "t" "s" false, false⟩,
   ⟨.next "c" false, false⟩, ⟨.next "d" false, false⟩, ⟨.publish "t" [1], true⟩,
   ⟨.drop "c", false⟩, ⟨.settle "d" .nack, false⟩]

theorem wakes_stand_in :
    (∃ other d, other ≠ 1 ∧ (after oneWoken).broker.consumer? other = some d ∧ d.topic = "t" ∧
      d.wait = .woken ∧ d.waiting = false ∧ other ∈ (after oneWoken).broker.ready) ∧
    (∀ id c, (after noneWoken).broker.consumer? id = some c → c.topic = "t" → c.wait = .idle) ∧
    (after noneWoken).broker.consumer? 1 = some { topic := "t" } := by
  have hentry : (after oneWoken).broker.Claimable "t" := by decide +kernel
  have hback : (after noneWoken).broker.Claimable "t" := by decide +kernel
  have hone := no_wake_lost (reachable_after (by decide)) (by decide +kernel) hentry
  have hnone := no_wake_lost (reachable_after (by decide)) (by decide +kernel) hback
  refine ⟨hone.1 1 { topic := "t", waiting := true, wait := .parked } ?_ rfl rfl, ?_, ?_⟩
  · decide +kernel
  · exact (hnone.2 (by decide +kernel)).1
  · decide +kernel

end Scene

end TopicQueue

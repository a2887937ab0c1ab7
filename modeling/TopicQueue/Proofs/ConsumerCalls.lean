import TopicQueue.Broker.Consumer
import TopicQueue.Proofs.ClaimQueue

namespace TopicQueue

/-- Notes that say what became of messages, and of the calls of the store that failed. -/
def Note.isRecord : Note → Bool
  | .stored .. | .claimed .. | .committed .. | .requeued .. | .called _ _ (some _) => true
  | _ => false

/-- The records of a journal, the latest first. -/
def Journal.records (j : Journal) : List Note := (j.map (·.note)).filter Note.isRecord

@[simp] theorem Journal.records_nil : Journal.records [] = [] := rfl

@[simp] theorem Journal.records_cons (e : Journal.Entry) (j : Journal) :
    Journal.records (e :: j) =
      if e.note.isRecord then e.note :: Journal.records j else Journal.records j := by
  simp [Journal.records, List.filter_cons]

@[simp] theorem Journal.records_append (j k : Journal) :
    Journal.records (j ++ k) = Journal.records j ++ Journal.records k := by
  simp [Journal.records]

namespace Broker

def records (b : Broker) : List Note := Journal.records b.journal

theorem consumer?_setConsumer (b : Broker) (id other : ConsumerId) (c : Consumer) :
    (b.setConsumer id c).consumer? other = if other = id then some c else b.consumer? other :=
  Table.look_put b.consumers other id c

@[simp] theorem consumer?_setConsumer_self (b : Broker) (id : ConsumerId) (c : Consumer) :
    (b.setConsumer id c).consumer? id = some c := by
  simp [consumer?_setConsumer]

@[simp] theorem consumer?_note (b : Broker) (n : Note) (id : ConsumerId) :
    (b.note n).consumer? id = b.consumer? id := rfl

/-- A call of the store fails and leaves it, or does what it is asked to do. -/
theorem call_cases {α : Type} (b : Broker) (call : StoreCall) (topic : String)
    (act : Store → Except StoreError (α × Store)) :
    (∃ e f, b.call call topic act =
      (.error e, { b with faults := f }.note (.called call topic (some e)))) ∨
    (∃ a s f, act b.store = .ok (a, s) ∧ b.call call topic act =
      (.ok a, { b with faults := f, store := s }.note (.called call topic none))) := by
  unfold Broker.call
  cases ht : b.faults.trip call with
  | mk fault faults =>
    cases fault with
    | some kind => exact .inl ⟨_, faults, rfl⟩
    | none =>
      cases ha : act b.store with
      | error e => exact .inl ⟨e, faults, rfl⟩
      | ok r =>
        obtain ⟨a, s⟩ := r
        exact .inr ⟨a, s, faults, rfl, rfl⟩

/-- An armed fault fails a call, whatever it was to do. -/
theorem call_faulted {α : Type} {b : Broker} {call : StoreCall} {kind : FaultKind}
    (h : (b.faults.trip call).1 = some kind) (topic : String)
    (act : Store → Except StoreError (α × Store)) :
    b.call call topic act = (.error (kind.error topic),
      { b with faults := (b.faults.trip call).2 }.note
        (.called call topic (some (kind.error topic)))) := by
  unfold Broker.call
  cases ht : b.faults.trip call with
  | mk fault faults =>
    rw [ht] at h
    obtain rfl : fault = some kind := h
    rfl

/-- Without one, the store does what it is asked to do. -/
theorem call_unfaulted {α : Type} {b : Broker} {call : StoreCall}
    (h : (b.faults.trip call).1 = none) (topic : String)
    (act : Store → Except StoreError (α × Store)) :
    b.call call topic act = match act b.store with
      | .error e => (.error e,
        { b with faults := (b.faults.trip call).2 }.note (.called call topic (some e)))
      | .ok (a, store) => (.ok a,
        { b with faults := (b.faults.trip call).2, store }.note (.called call topic none)) := by
  unfold Broker.call
  cases ht : b.faults.trip call with
  | mk fault faults =>
    rw [ht] at h
    obtain rfl : fault = none := h
    cases act b.store <;> rfl

theorem publish_cases (b : Broker) (topic : String) (payload : Bytes) :
    (∃ e f, b.publish topic payload =
      (.error (.store e), { b with faults := f }.note (.called .insert topic (some e)))) ∨
    (∃ s f, b.store.insert topic payload b.clock = .ok s ∧ b.publish topic payload =
      (.ok (), (({ b with faults := f, store := s }.note (.called .insert topic none)).note
        (.stored topic payload)).notify topic .publish)) := by
  unfold publish
  rcases b.call_cases .insert topic fun s => (s.insert topic payload b.clock).map ((), ·) with
    ⟨e, f, he⟩ | ⟨⟨⟩, s, f, hs, he⟩
  · exact .inl ⟨e, f, by rw [he]⟩
  · refine .inr ⟨s, f, ?_, by rw [he]⟩
    cases hi : b.store.insert topic payload b.clock with
    | error e => simp [hi, Except.map] at hs
    | ok s' => simpa [hi, Except.map] using hs

theorem shutdown_cases (b : Broker) :
    (∃ e f, b.shutdown =
      (.error (.store e), { b with faults := f }.note (.called .close "" (some e)))) ∨
    (∃ f, b.shutdown =
      (.ok (), { b with faults := f, store := b.store.close }.note (.called .close "" none))) := by
  unfold shutdown
  rcases b.call_cases .close "" fun s => .ok ((), s.close) with ⟨e, f, he⟩ | ⟨⟨⟩, s, f, hs, he⟩
  · exact .inl ⟨e, f, by rw [he]⟩
  · cases hs
    exact .inr ⟨f, by rw [he]⟩

/-- The broker after calls of the store that a consumer made, who is left as `c`. -/
def became (b : Broker) (faults : Faults) (j : Journal) (s : Store) (id : ConsumerId)
    (c : Consumer) : Broker :=
  { b with faults, journal := j ++ b.journal, store := s, consumers := b.consumers.put id c }

end Broker

/-- A consumer whose call has returned. -/
def Consumer.done (c : Consumer) : Consumer :=
  { c with waiting := false, permit := false, wait := .idle }

/-- A consumer that found nothing, with its flag up. -/
def Consumer.alert (c : Consumer) : Consumer := { c with waiting := true, permit := false }

namespace Broker

/-- What one look at the topic of `c` comes to; `rest` is what becomes of the consumer if there is
nothing to claim. -/
inductive Sought (b : Broker) (id : ConsumerId) (c rest : Consumer) :
    Option (Except BrokerError Bytes) × Broker → Prop where
  | cancelled (f j) (hc : c.cancelled = true) (hj : Journal.records j = []) :
      Sought b id c rest (some (.error .cancelled), b.became f j b.store id c.done)
  | failed (f j e) (hc : c.cancelled = false)
      (hj : Journal.records j = [.called .fetchNext c.topic (some e)]) :
      Sought b id c rest (some (.error (.store e)), b.became f j b.store id c.done)
  | claimed (f j s payload) (hc : c.cancelled = false)
      (hs : b.store.fetchNext c.topic = .ok (some payload, s))
      (hj : Journal.records j = [.claimed id c.topic payload]) :
      Sought b id c rest
        (some (.ok payload), b.became f j s id { c with holding := true }.done)
  | nothing (f j) (hc : c.cancelled = false)
      (hs : b.store.fetchNext c.topic = .ok (none, b.store)) (hj : Journal.records j = []) :
      Sought b id c rest (none, b.became f j b.store id rest)

theorem leave_waiting {b : Broker} {id : ConsumerId} {c : Consumer}
    (h : b.consumer? id = some c) (hw : c.waiting = true) :
    b.leave id = b.setConsumer id { c with waiting := false, wait := .idle } := by
  simp [leave, h, hw]

theorem leave_woken {b : Broker} {id : ConsumerId} {c : Consumer}
    (h : b.consumer? id = some c) (hw : c.waiting = false) :
    b.leave id =
      (b.setConsumer id { c with waiting := false, wait := .idle }).notify c.topic .handoff := by
  simp [leave, h, hw]

theorem look_cancelled (b : Broker) {id : ConsumerId} {c : Consumer} (hc : c.cancelled = true) :
    b.look id c = (some (.error .cancelled), b.became b.faults [] b.store id c.done) := by
  have hl := leave_waiting (consumer?_setConsumer_self b id c.alert) rfl
  rw [look, if_pos hc]
  change (_, (b.setConsumer id c.alert).leave id) = _
  rw [hl]
  simp [became, setConsumer, Consumer.alert, Consumer.done]

theorem look_uncancelled (b : Broker) (id : ConsumerId) {c : Consumer} (hc : c.cancelled = false) :
    b.look id c =
      match (b.setConsumer id c.alert).call .fetchNext c.topic (·.fetchNext c.topic) with
      | (.error e, b) => (some (.error (.store e)), b.leave id)
      | (.ok none, b) => (none, b)
      | (.ok (some payload), b) =>
        (some (.ok payload), ((b.setConsumer id { c.alert with holding := true }).note
          (.claimed id c.topic payload)).leave id) := by
  rw [look, if_neg (by simp [hc])]
  rfl

theorem look_sought (b : Broker) (id : ConsumerId) (c : Consumer) :
    Sought b id c c.alert (b.look id c) := by
  cases hc : c.cancelled with
  | true =>
    rw [look_cancelled b hc]
    exact .cancelled b.faults [] hc rfl
  | false =>
    rw [look_uncancelled b id hc]
    rcases call_cases (b.setConsumer id c.alert) .fetchNext c.topic (·.fetchNext c.topic) with
      ⟨e, f, he⟩ | ⟨payload?, s, f, hs, he⟩
    · rw [he]
      dsimp only
      rw [leave_waiting (c := c.alert) ?_ rfl]
      · have hsought : Sought b id c c.alert _ :=
          .failed f [⟨b.span, .called .fetchNext c.topic (some e)⟩] e hc rfl
        simpa [became, setConsumer, note, Consumer.alert, Consumer.done] using hsought
      · exact consumer?_setConsumer_self b id c.alert
    · rw [he]
      cases payload? with
      | none =>
        obtain rfl := (Store.fetchNext_none hs).1
        exact .nothing f [⟨b.span, .called .fetchNext c.topic none⟩] hc hs rfl
      | some payload =>
        dsimp only
        rw [leave_waiting (c := { c.alert with holding := true }) ?_ rfl]
        · have hsought : Sought b id c c.alert _ :=
            .claimed f [⟨b.span, .claimed id c.topic payload⟩,
              ⟨b.span, .called .fetchNext c.topic none⟩] s payload hc hs rfl
          simpa [became, setConsumer, note, Consumer.alert, Consumer.done] using hsought
        · exact consumer?_setConsumer_self _ id _

/-- Outcomes after a look that found nothing are outcomes from before it. -/
theorem Sought.after {b : Broker} {id : ConsumerId} {c c' rest : Consumer} {f : Faults} {j : Journal}
    {r : Option (Except BrokerError Bytes) × Broker} (hj : Journal.records j = [])
    (h : Sought (b.became f j b.store id c') id c rest r) : Sought b id c rest r := by
  cases h with
  | cancelled f' j' hc hj' =>
    have hsought : Sought b id c rest _ := .cancelled f' (j' ++ j) hc (by simp [hj, hj'])
    simpa [became] using hsought
  | failed f' j' e hc hj' =>
    have hsought : Sought b id c rest _ := .failed f' (j' ++ j) e hc (by simp [hj, hj'])
    simpa [became] using hsought
  | claimed f' j' s payload hc hs hj' =>
    have hsought : Sought b id c rest _ := .claimed f' (j' ++ j) s payload hc hs (by simp [hj, hj'])
    simpa [became] using hsought
  | nothing f' j' hc hs hj' =>
    have hsought : Sought b id c rest _ := .nothing f' (j' ++ j) hc hs (by simp [hj, hj'])
    simpa [became] using hsought

end Broker

/-- A consumer asleep. -/
def Consumer.asleep (c : Consumer) : Consumer := { c.alert with wait := .parked }

namespace Broker

theorem Sought.returned {b b' : Broker} {id : ConsumerId} {c rest : Consumer}
    {r : Except BrokerError Bytes} (h : Sought b id c rest (some r, b')) (other : Consumer) :
    Sought b id c other (some r, b') := by
  cases h with
  | cancelled f j hc hj => exact .cancelled f j hc hj
  | failed f j e hc hj => exact .failed f j e hc hj
  | claimed f j s payload hc hs hj => exact .claimed f j s payload hc hs hj

theorem Sought.park {b b' : Broker} {id : ConsumerId} {c : Consumer}
    (h : Sought b id c c.alert (none, b')) : Sought b id c c.asleep (none, b'.park id) := by
  cases h with
  | nothing f j hc hs hj =>
    have hpark : (b.became f j b.store id c.alert).park id =
        b.became f j b.store id c.asleep := by
      simp [Broker.park, became, setConsumer, consumer?, Consumer.asleep]
    rw [hpark]
    exact .nothing f j hc hs hj

/-- A kept wake brings one more look, and nothing found sends the consumer to sleep. -/
theorem seek_sought {b : Broker} {id : ConsumerId} {c : Consumer} (h : b.consumer? id = some c) :
    Sought b id c c.asleep (b.seek id) := by
  have hfirst := look_sought b id c
  unfold seek
  rw [h]
  dsimp only
  split
  · rename_i result b' he
    rw [he] at hfirst
    exact hfirst.returned _
  · rename_i b' he
    rw [he] at hfirst
    split
    · have hsecond := look_sought (b'.note (.woken id c.topic)) id c
      have hafter : Sought b id c c.alert ((b'.note (.woken id c.topic)).look id c) := by
        cases hfirst with
        | nothing f j hc hs hj =>
          exact Sought.after (f := f) (j := ⟨b.span, .woken id c.topic⟩ :: j)
            (by simpa [Note.isRecord] using hj)
            hsecond
      split
      · rename_i result b'' he'
        rw [he'] at hafter
        exact hafter.returned _
      · rename_i b'' he'
        rw [he'] at hafter
        exact hafter.park
    · exact hfirst.park

/-- A notification wakes the first consumer of the topic that waits. It is lost only where nobody
does. -/
theorem notify_cases (b : Broker) (topic : String) (reason : WakeReason) :
    (∃ n : Note, n.isRecord = false ∧ b.notify topic reason = b.note n ∧
      ∀ r, b.roster? topic = some r → ∀ id ∈ r.members, b.isWaiting id = false) ∨
    (∃ id c r, b.roster? topic = some r ∧ id ∈ r.members ∧ b.consumer? id = some c ∧
      c.waiting = true ∧ b.notify topic reason = (b.wake id).note (.woke id topic reason)) := by
  unfold notify
  cases hr : b.roster? topic with
  | none => exact .inl ⟨.unheard topic reason, rfl, rfl, by simp⟩
  | some r =>
    dsimp only
    cases hf : r.firstWaiting? b.isWaiting with
    | none =>
      refine .inl ⟨.unwanted topic reason, rfl, rfl, ?_⟩
      rintro _ ⟨⟩ id hid
      simpa using List.find?_eq_none.mp hf id hid
    | some id =>
      have hw := List.find?_some hf
      simp only [isWaiting] at hw
      split at hw
      · cases hw
      · rename_i c hc
        exact .inr ⟨id, c, r, rfl, List.mem_of_find?_eq_some hf, hc, hw, rfl⟩

end Broker

def Verdict.call : Verdict → StoreCall
  | .ack => .commit
  | .nack => .requeue

/-- What a verdict does to the claimed entry. -/
def Verdict.apply (topic : String) (s : Store) : Verdict → Except StoreError Store
  | .ack => s.commit topic
  | .nack => s.requeue topic

def Verdict.record (id : ConsumerId) (topic : String) : Verdict → Note
  | .ack => .committed id topic
  | .nack => .requeued id topic

namespace Broker

theorem settle_idle {b : Broker} {id : ConsumerId} {c : Consumer} (h : b.consumer? id = some c)
    (hh : c.holding = false) (v : Verdict) : b.settle id v = (.error .nothingClaimed, b) := by
  simp [settle, h, hh]

theorem settle_holding {b : Broker} {id : ConsumerId} {c : Consumer} (h : b.consumer? id = some c)
    (hh : c.holding = true) (v : Verdict) :
    b.settle id v =
      match b.call v.call c.topic fun s => (v.apply c.topic s).map ((), ·) with
      | (.error e, b) => (.error (.store e), b)
      | (.ok (), b) =>
        (.ok (), ((b.setConsumer id { c with holding := false }).note (v.record id c.topic)).notify
          c.topic v.reason) := by
  unfold settle
  rw [h]
  dsimp only
  rw [if_neg (by simp [hh])]
  cases v <;> rfl

theorem settle_cases {b : Broker} {id : ConsumerId} {c : Consumer} (h : b.consumer? id = some c)
    (hh : c.holding = true) (v : Verdict) :
    (∃ e f, b.settle id v =
      (.error (.store e), { b with faults := f }.note (.called v.call c.topic (some e)))) ∨
    (∃ s f, v.apply c.topic b.store = .ok s ∧ b.settle id v =
      (.ok (), (b.became f [⟨b.span, v.record id c.topic⟩, ⟨b.span, .called v.call c.topic none⟩] s id
        { c with holding := false }).notify c.topic v.reason)) := by
  rw [settle_holding h hh]
  rcases b.call_cases v.call c.topic fun s => (v.apply c.topic s).map ((), ·) with
    ⟨e, f, he⟩ | ⟨⟨⟩, s, f, hs, he⟩
  · exact .inl ⟨e, f, by rw [he]⟩
  · refine .inr ⟨s, f, ?_, by rw [he]; rfl⟩
    cases ha : v.apply c.topic b.store with
    | error e => simp [ha, Except.map] at hs
    | ok s' => simpa [ha, Except.map] using hs

/-- A call begins where no message is held. -/
theorem begin_cases {b : Broker} {id : ConsumerId} {c : Consumer} (h : b.consumer? id = some c) :
    (c.holding = true ∧ b.begin id =
      (some (.error .alreadyHolding), b.setConsumer id { c with wait := .idle })) ∨
    (c.holding = false ∧ Sought b id c c.asleep (b.begin id)) := by
  unfold begin
  rw [h]
  dsimp only
  split
  · rename_i hh
    exact .inl ⟨hh, rfl⟩
  · rename_i hh
    exact .inr ⟨by simpa using hh, seek_sought h⟩

theorem resume_cancelled {b : Broker} {id : ConsumerId} {c : Consumer} (h : b.consumer? id = some c)
    (hc : c.cancelled = true) :
    b.resume id = (some (.error .cancelled),
      (if c.wait = .woken then b.setConsumer id { c with permit := true } else b).leave id) := by
  simp [resume, h, hc]

theorem resume_woken {b : Broker} {id : ConsumerId} {c : Consumer} (h : b.consumer? id = some c)
    (hc : c.cancelled = false) (hw : c.wait = .woken) :
    Sought (b.note (.woken id c.topic)) id c c.asleep (b.resume id) := by
  have hs := seek_sought (b := b.note (.woken id c.topic)) h
  simpa [resume, h, hc, hw] using hs

theorem resume_asleep {b : Broker} {id : ConsumerId} {c : Consumer} (h : b.consumer? id = some c)
    (hc : c.cancelled = false) (hw : c.wait ≠ .woken) : b.resume id = (none, b) := by
  simp [resume, h, hc, hw]

/-- The broker without a consumer. -/
def forget (b : Broker) (id : ConsumerId) (topic : String) : Broker :=
  { b.unsubscribe topic id with consumers := b.consumers.remove id }

theorem release_idle {b : Broker} {id : ConsumerId} {c : Consumer} (h : b.consumer? id = some c)
    (hh : c.holding = false) : b.release id = b.forget id c.topic := by
  simp [release, h, hh, forget, unsubscribe, note]

theorem release_holding {b : Broker} {id : ConsumerId} {c : Consumer} (h : b.consumer? id = some c)
    (hh : c.holding = true) :
    b.release id = (match b.settle id .nack with
      | (.ok (), b) => b.note (.releaseRequeued id c.topic)
      | (.error e, b) => b.note (.releaseFailed id c.topic e)).forget id c.topic := by
  simp only [release, h, hh, if_true]
  rfl

end Broker

end TopicQueue

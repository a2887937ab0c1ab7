import TopicQueue.Proofs.Conservation
import TopicQueue.Proofs.SessionActs

namespace TopicQueue

/-- Whom a note tells of, if it tells of a consumer's messages or of what a session read or
wrote. -/
def Note.doer? : Note → Option ConsumerId
  | .claimed id _ _ | .committed id _ | .requeued id _ | .took id _ | .wrote id _ => some id
  | _ => none

theorem Note.doer?_record (v : Verdict) (id : ConsumerId) (topic : String) :
    (v.record id topic).doer? = some id := by
  cases v <;> rfl

theorem Note.doer?_aside {n : Note} (h : n.isAside = true) : n.doer? = none := by
  cases n <;> first | rfl | cases h

/-- What one consumer has done. -/
def History.deeds (id : ConsumerId) (h : History) : History := h.filter fun n => n.doer? = some id

theorem History.deeds_append (id : ConsumerId) (h h' : History) :
    deeds id (h ++ h') = deeds id h ++ deeds id h' :=
  List.filter_append ..

theorem History.deeds_cons_self {id : ConsumerId} {n : Note} (hn : n.doer? = some id)
    (h : History) :
    deeds id (n :: h) = n :: deeds id h := by
  simp [deeds, hn]

theorem History.deeds_cons_of_ne {id : ConsumerId} {n : Note} (hn : n.doer? ≠ some id)
    (h : History) : deeds id (n :: h) = deeds id h := by
  simp [deeds, hn]

namespace Broker

/-- The notes of the journal, the latest first. -/
def notes (b : Broker) : History := b.journal.map (·.note)

def deeds (b : Broker) (id : ConsumerId) : History := History.deeds id b.notes

/-- The journal goes on, with nothing that anybody did. -/
def Silent (b b' : Broker) : Prop :=
  ∃ new : History, b'.notes = new ++ b.notes ∧ ∀ n ∈ new, n.doer? = none

/-- The journal goes on, and tells of one consumer only, and of what it did with messages. -/
def Adds (id : ConsumerId) (b b' : Broker) : Prop :=
  ∃ new : History, b'.notes = new ++ b.notes ∧
    ∀ n ∈ new, n.doer? = none ∨ n.doer? = some id ∧ n.isRecord = true

variable {b b' b'' : Broker} {id other : ConsumerId} {c : Consumer}

theorem deeds_note {n : Note} (hn : n.doer? = some id) (b : Broker) :
    (b.note n).deeds id = n :: b.deeds id :=
  History.deeds_cons_self hn b.notes

/-- Notes of one kind are added to notes of that kind. -/
theorem notes_trans {kind : Note → Prop}
    (h : ∃ new : History, b'.notes = new ++ b.notes ∧ ∀ n ∈ new, kind n)
    (h' : ∃ new : History, b''.notes = new ++ b'.notes ∧ ∀ n ∈ new, kind n) :
    ∃ new : History, b''.notes = new ++ b.notes ∧ ∀ n ∈ new, kind n := by
  obtain ⟨new, he, hn⟩ := h
  obtain ⟨new', he', hn'⟩ := h'
  refine ⟨new' ++ new, by rw [he', he, List.append_assoc], ?_⟩
  intro n hm
  rcases List.mem_append.mp hm with hm | hm
  · exact hn' n hm
  · exact hn n hm

theorem deeds_of_notes {new : History} (he : b'.notes = new ++ b.notes)
    (hn : ∀ n ∈ new, n.doer? ≠ some id) : b'.deeds id = b.deeds id := by
  have hnone : History.deeds id new = [] := by
    apply List.filter_eq_nil_iff.mpr
    intro n hm
    simp [hn n hm]
  rw [deeds, he, History.deeds_append, hnone, List.nil_append, deeds]

theorem silent_of_eq (h : b'.notes = b.notes) : b.Silent b' :=
  ⟨[], h, by simp⟩

theorem silent_note {n : Note} (h : n.doer? = none) : b.Silent (b.note n) :=
  ⟨[n], rfl, by simpa using h⟩

theorem Silent.trans (h : b.Silent b') (h' : b'.Silent b'') : b.Silent b'' := notes_trans h h'

theorem Silent.deeds (h : b.Silent b') (id : ConsumerId) : b'.deeds id = b.deeds id := by
  obtain ⟨new, he, hn⟩ := h
  exact deeds_of_notes he fun n hm => by simp [hn n hm]

theorem Silent.adds (h : b.Silent b') (id : ConsumerId) : Adds id b b' := by
  obtain ⟨new, he, hn⟩ := h
  exact ⟨new, he, fun n hm => .inl (hn n hm)⟩

theorem adds_record {n : Note} (hd : n.doer? = some id) (hr : n.isRecord = true) :
    Adds id b (b.note n) :=
  ⟨[n], rfl, by simp [hd, hr]⟩

theorem Adds.trans (h : Adds id b b') (h' : Adds id b' b'') : Adds id b b'' := notes_trans h h'

theorem Adds.deeds_other (h : Adds id b b') (hne : other ≠ id) :
    b'.deeds other = b.deeds other := by
  obtain ⟨new, he, hn⟩ := h
  refine deeds_of_notes he fun n hm => ?_
  rcases hn n hm with hd | ⟨hd, -⟩ <;> simp [hd, Ne.symm hne]

/-- What the consumer has done is in the records. -/
theorem Adds.deeds_self (h : Adds id b b') (new : History) (hr : b'.records = new ++ b.records) :
    b'.deeds id = History.deeds id new ++ b.deeds id := by
  obtain ⟨added, he, hn⟩ := h
  have hrecords : added.filter Note.isRecord = new := by
    have hb : b'.records = added.filter Note.isRecord ++ b.records := by
      change b'.notes.filter Note.isRecord = _ ++ b.notes.filter Note.isRecord
      rw [he, List.filter_append]
    exact List.append_cancel_right (hb.symm.trans hr)
  have hown : History.deeds id added = History.deeds id new := by
    rw [← hrecords, History.deeds, History.deeds, List.filter_filter]
    apply List.filter_congr
    intro n hm
    rcases hn n hm with hd | ⟨hd, hrec⟩ <;> simp [*]
  rw [deeds, he, History.deeds_append, hown, deeds]

-- Calls of the broker that tell of nobody.

theorem silent_enqueue (b : Broker) (id : ConsumerId) : b.Silent (b.enqueue id) := by
  unfold enqueue
  split <;> exact silent_of_eq rfl

theorem silent_wake (b : Broker) (id : ConsumerId) : b.Silent (b.wake id) := by
  unfold wake
  split
  · exact silent_of_eq rfl
  · split
    · exact silent_enqueue (b.setConsumer id _) id
    · exact silent_of_eq rfl

theorem silent_notify (b : Broker) (topic : String) (reason : WakeReason) :
    b.Silent (b.notify topic reason) := by
  unfold notify
  split
  · exact silent_note rfl
  · split
    · exact silent_note rfl
    · exact (silent_wake b _).trans (silent_note rfl)

theorem silent_leave (b : Broker) (id : ConsumerId) : b.Silent (b.leave id) := by
  unfold leave
  split
  · exact silent_of_eq rfl
  · dsimp only
    split
    · exact silent_of_eq rfl
    · exact silent_notify (b.setConsumer id _) _ _

theorem silent_call {α : Type} (b : Broker) (call : StoreCall) (topic : String)
    (act : Store → Except StoreError (α × Store)) : b.Silent (b.call call topic act).2 := by
  rcases b.call_cases call topic act with ⟨e, f, he⟩ | ⟨a, s, f, -, he⟩
  · rw [he]
    exact silent_note (b := { b with faults := f }) rfl
  · rw [he]
    exact silent_note (b := { b with faults := f, store := s }) rfl

theorem silent_publish (b : Broker) (topic : String) (payload : Bytes) :
    b.Silent (b.publish topic payload).2 := by
  have hcall := b.silent_call .insert topic fun s => (s.insert topic payload b.clock).map ((), ·)
  unfold publish
  split
  · rename_i e b' he
    rwa [he] at hcall
  · rename_i b' he
    rw [he] at hcall
    exact hcall.trans ((silent_note rfl).trans (silent_notify _ topic .publish))

theorem silent_shutdown (b : Broker) : b.Silent b.shutdown.2 := by
  have hcall := b.silent_call .close "" fun s => .ok ((), s.close)
  unfold shutdown
  split
  · rename_i e b' he
    rwa [he] at hcall
  · rename_i b' he
    rwa [he] at hcall

theorem silent_subscribe (b : Broker) (topic : String) : b.Silent (b.subscribe topic).2 :=
  ⟨[.registered b.nextId topic], rfl, by simp [Note.doer?]⟩

theorem silent_forget (b : Broker) (id : ConsumerId) (topic : String) :
    b.Silent (b.forget id topic) :=
  ⟨[.deregistered id topic], rfl, by simp [Note.doer?]⟩

theorem silent_ask (b : Broker) (id : ConsumerId) (cancelled : Bool) :
    b.Silent (b.ask id cancelled) := by
  unfold ask
  split
  · exact silent_of_eq rfl
  · exact silent_enqueue (b.setConsumer id _) id

theorem silent_cancel (b : Broker) (id : ConsumerId) : b.Silent (b.cancel id) := by
  unfold cancel
  split
  · exact silent_of_eq rfl
  · dsimp only
    split
    · exact silent_enqueue (b.setConsumer id _) id
    · exact silent_of_eq rfl

theorem silent_abandon (b : Broker) (id : ConsumerId) : b.Silent (b.abandon id) := by
  unfold abandon
  split
  · exact silent_of_eq rfl
  · dsimp only
    split
    · exact silent_of_eq rfl
    · exact silent_of_eq rfl
    · exact silent_leave { b with ready := b.ready.filter (· != id) } id
    · exact silent_leave
        (({ b with ready := b.ready.filter (· != id) } : Broker).setConsumer id _) id

-- Calls of a consumer that tell of it.

theorem adds_look (b : Broker) (id : ConsumerId) (c : Consumer) : Adds id b (b.look id c).2 := by
  have hset : b.Silent (b.setConsumer id c.alert) := silent_of_eq rfl
  cases hc : c.cancelled with
  | true =>
    rw [look_cancelled b hc]
    exact (silent_of_eq rfl).adds id
  | false =>
    have hcall := hset.trans (silent_call _ .fetchNext c.topic (·.fetchNext c.topic))
    rw [look_uncancelled b id hc]
    split
    · rename_i e b' he
      rw [he] at hcall
      exact (hcall.trans (silent_leave b' id)).adds id
    · rename_i b' he
      rw [he] at hcall
      exact hcall.adds id
    · rename_i payload b' he
      rw [he] at hcall
      have hclaimed : Adds id (b'.setConsumer id { c.alert with holding := true }) _ :=
        adds_record (n := .claimed id c.topic payload) rfl rfl
      exact ((hcall.adds id).trans hclaimed).trans ((silent_leave _ id).adds id)

theorem adds_park (b : Broker) (id : ConsumerId) : Adds id b (b.park id) := by
  unfold park
  split <;> exact (silent_of_eq rfl).adds id

theorem adds_seek (b : Broker) (id : ConsumerId) : Adds id b (b.seek id).2 := by
  unfold seek
  split
  · exact (silent_of_eq rfl).adds id
  · rename_i c _
    have hfirst := adds_look b id c
    split
    · rename_i result b' he
      rwa [he] at hfirst
    · rename_i b' he
      rw [he] at hfirst
      have hnote : b'.Silent (b'.note (.woken id c.topic)) := silent_note rfl
      have hsecond := (hfirst.trans (hnote.adds id)).trans (adds_look _ id c)
      split
      · split
        · rename_i result b'' he'
          rwa [he'] at hsecond
        · rename_i b'' he'
          rw [he'] at hsecond
          exact hsecond.trans (adds_park b'' id)
      · exact hfirst.trans (adds_park b' id)

theorem adds_begin (b : Broker) (id : ConsumerId) : Adds id b (b.begin id).2 := by
  unfold begin
  split
  · exact (silent_of_eq rfl).adds id
  · split
    · exact (silent_of_eq rfl).adds id
    · exact adds_seek b id

theorem adds_resume (b : Broker) (id : ConsumerId) : Adds id b (b.resume id).2 := by
  unfold resume
  split
  · exact (silent_of_eq rfl).adds id
  · rename_i c _
    split
    · dsimp only
      split
      · exact (silent_leave (b.setConsumer id { c with permit := true }) id).adds id
      · exact (silent_leave b id).adds id
    · have hnote : b.Silent (b.note (.woken id c.topic)) := silent_note rfl
      split
      · exact (hnote.adds id).trans (adds_seek _ id)
      · exact (silent_of_eq rfl).adds id

/-- A plain consumer's task does nothing, or carries its call on and notes the result if there is
one. -/
theorem runNext_cases (b : Broker) (id : ConsumerId) :
    b.runNext id = b ∨ ∃ b', (b' = (b.begin id).2 ∨ b' = (b.resume id).2) ∧
      (b.runNext id = b' ∨ ∃ a, b.runNext id = b'.note (.returned id a)) := by
  cases hc : b.consumer? id with
  | none => exact .inl (by simp [runNext, hc])
  | some c =>
    cases hw : c.wait with
    | idle => exact .inl (by simp [runNext, hc, hw])
    | asked =>
      refine .inr ⟨_, .inl rfl, ?_⟩
      cases hb : b.begin id with
      | mk result b' =>
        cases result with
        | none => exact .inl (by simp [runNext, hc, hw, hb])
        | some a => exact .inr ⟨a, by simp [runNext, hc, hw, hb]⟩
    | parked | woken =>
      refine .inr ⟨_, .inr rfl, ?_⟩
      cases hb : b.resume id with
      | mk result b' =>
        cases result with
        | none => exact .inl (by simp [runNext, hc, hw, hb])
        | some a => exact .inr ⟨a, by simp [runNext, hc, hw, hb]⟩

theorem adds_runNext (b : Broker) (id : ConsumerId) : Adds id b (b.runNext id) := by
  rcases b.runNext_cases id with he | ⟨b', hb', he⟩
  · exact (silent_of_eq (congrArg notes he)).adds id
  · have hcalled : Adds id b b' := by
      rcases hb' with rfl | rfl
      · exact adds_begin b id
      · exact adds_resume b id
    rcases he with he | ⟨a, he⟩
    · rwa [he]
    · rw [he]
      exact hcalled.trans ((silent_note rfl).adds id)

theorem adds_settle (b : Broker) (id : ConsumerId) (v : Verdict) : Adds id b (b.settle id v).2 := by
  cases h : b.consumer? id with
  | none => simpa [settle, h] using (silent_of_eq rfl).adds id
  | some c =>
    cases hh : c.holding with
    | false =>
      rw [settle_idle h hh]
      exact (silent_of_eq rfl).adds id
    | true =>
      rcases settle_cases h hh v with ⟨e, f, he⟩ | ⟨s, f, -, he⟩
      · rw [he]
        exact (silent_note (b := { b with faults := f }) rfl).adds id
      · rw [he]
        refine Adds.trans ?_ ((silent_notify _ c.topic v.reason).adds id)
        refine ⟨[v.record id c.topic, .called v.call c.topic none], rfl, ?_⟩
        cases v <;> simp [Verdict.record, Note.doer?, Note.isRecord]

theorem adds_release (b : Broker) (id : ConsumerId) : Adds id b (b.release id) := by
  cases h : b.consumer? id with
  | none => simpa [release, h] using (silent_of_eq rfl).adds id
  | some c =>
    cases hh : c.holding with
    | false =>
      rw [release_idle h hh]
      exact (silent_forget b id c.topic).adds id
    | true =>
      have hsettle := adds_settle b id .nack
      rw [release_holding h hh]
      split
      · rename_i b' he
        rw [he] at hsettle
        exact hsettle.trans (((silent_note rfl).trans (silent_forget _ id c.topic)).adds id)
      · rename_i e b' he
        rw [he] at hsettle
        exact hsettle.trans (((silent_note rfl).trans (silent_forget _ id c.topic)).adds id)

-- What it tells of it.

/-- A verdict that succeeds is what the consumer did last. -/
theorem settle_deeds {v : Verdict} (hc : b.consumer? id = some c)
    (h : b.settle id v = (.ok (), b')) :
    c.holding = true ∧ b'.deeds id = v.record id c.topic :: b.deeds id := by
  obtain ⟨hh, -, hrecords⟩ := settle_ok hc h
  have hadds := adds_settle b id v
  rw [h] at hadds
  refine ⟨hh, (hadds.deeds_self [v.record id c.topic] hrecords).trans ?_⟩
  rw [History.deeds_cons_self (Note.doer?_record v id c.topic)]
  rfl

/-- A verdict that fails does not count. -/
theorem settle_failed_deeds {v : Verdict} {e : BrokerError} (h : b.settle id v = (.error e, b')) :
    b'.deeds id = b.deeds id := by
  have hadds := adds_settle b id v
  rw [h] at hadds
  cases hc : b.consumer? id with
  | none =>
    simp only [settle, hc, Prod.mk.injEq] at h
    rw [h.2]
  | some c =>
    rcases settle_records hc v with ⟨-, he⟩ | ⟨e', -, hrecords⟩ | ⟨-, hok, -⟩
    · rw [h] at he
      rw [(Prod.mk.inj he).2]
    · rw [h] at hrecords
      exact hadds.deeds_self [.called v.call c.topic (some e')] hrecords
    · rw [h] at hok
      cases hok

theorem nack_deeds (b : Broker) (id : ConsumerId) :
    (b.settle id .nack).2.deeds id = b.deeds id ∨
      ∃ topic, (b.settle id .nack).2.deeds id = .requeued id topic :: b.deeds id := by
  cases h : b.settle id .nack with
  | mk answer b' =>
    cases answer with
    | error e => exact .inl (settle_failed_deeds h)
    | ok =>
      cases hc : b.consumer? id with
      | none => simp [settle, hc] at h
      | some c => exact .inr ⟨c.topic, (settle_deeds hc h).2⟩

theorem release_deeds (b : Broker) (id : ConsumerId) :
    (b.release id).deeds id = b.deeds id ∨
      ∃ topic, (b.release id).deeds id = .requeued id topic :: b.deeds id := by
  have hadds := adds_release b id
  cases hc : b.consumer? id with
  | none => exact .inl (by simp [release, hc])
  | some c =>
    cases hh : c.holding with
    | false =>
      rw [release_idle hc hh]
      exact .inl ((silent_forget b id c.topic).deeds id)
    | true =>
      have hrecords := release_records hc hh
      rcases settle_records hc .nack with ⟨hf, -⟩ | ⟨e, -, h⟩ | ⟨-, -, h⟩
      · rw [hh] at hf
        cases hf
      · exact .inl (hadds.deeds_self [.called .requeue c.topic (some e)] (hrecords.trans h))
      · refine .inr ⟨c.topic, (hadds.deeds_self [.requeued id c.topic]
          (hrecords.trans h)).trans ?_⟩
        rw [History.deeds_cons_self rfl]
        rfl

theorem Sought.deeds {b₀ : Broker} {rest : Consumer}
    {r : Option (Except BrokerError Bytes) × Broker} (h : Sought b id c rest r)
    (hb : b.records = b₀.records) (ha : Adds id b₀ r.2) :
    (∃ payload, r.1 = some (.ok payload) ∧
      r.2.deeds id = .claimed id c.topic payload :: b₀.deeds id) ∨
    (∀ payload, r.1 ≠ some (.ok payload)) ∧ r.2.deeds id = b₀.deeds id := by
  rcases h.records with ⟨payload, hr, hrecords⟩ | ⟨hno, hrecords⟩
  · rw [hb] at hrecords
    refine .inl ⟨payload, hr, ?_⟩
    rw [ha.deeds_self [.claimed id c.topic payload] hrecords,
      History.deeds_cons_self rfl]
    rfl
  · refine .inr ⟨hno, ?_⟩
    rcases hrecords with hrecords | ⟨e, hrecords⟩
    · exact ha.deeds_self [] (hrecords.trans hb)
    · rw [hb] at hrecords
      exact ha.deeds_self [.called .fetchNext c.topic (some e)] hrecords

/-- A call for a message, made or gone on with, tells of the message that it gets, if it gets
one. -/
theorem next_deeds {r : Option (Except BrokerError Bytes) × Broker} (hc : b.consumer? id = some c)
    (h : b.begin id = r ∨ b.resume id = r) :
    (∃ payload, r.1 = some (.ok payload) ∧
      r.2.deeds id = .claimed id c.topic payload :: b.deeds id) ∨
    (∀ payload, r.1 ≠ some (.ok payload)) ∧ r.2.deeds id = b.deeds id := by
  rcases h with rfl | rfl
  · rcases begin_cases hc with ⟨-, he⟩ | ⟨-, hs⟩
    · rw [he]
      exact .inr ⟨by simp, rfl⟩
    · exact hs.deeds rfl (adds_begin b id)
  · cases hcancel : c.cancelled with
    | true =>
      rw [resume_cancelled hc hcancel]
      refine .inr ⟨by simp, ?_⟩
      rw [(silent_leave _ id).deeds id]
      split <;> rfl
    | false =>
      by_cases hwoken : c.wait = .woken
      · exact (resume_woken hc hcancel hwoken).deeds rfl (adds_resume b id)
      · rw [resume_asleep hc hcancel hwoken]
        exact .inr ⟨by simp, rfl⟩

theorem next_deeds_none {r : Option (Except BrokerError Bytes) × Broker}
    (hc : b.consumer? id = none) (h : b.begin id = r ∨ b.resume id = r) : r = (none, b) := by
  rcases h with rfl | rfl
  · simp [begin, hc]
  · simp [resume, hc]

end Broker

end TopicQueue

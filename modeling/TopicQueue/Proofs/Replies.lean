import TopicQueue.Proofs.Acknowledged
import TopicQueue.Proofs.Sleepers

namespace TopicQueue

/-- Which request a note tells the answer of, and the answer. -/
def Note.reply? : Note → Option (Nat × Response)
  | .answered request response => some (request, response)
  | _ => none

namespace Broker

/-- The answers given so far, the latest first. -/
def replies (b : Broker) : List (Nat × Response) := b.journal.filterMap (·.note.reply?)

variable {b b' : Broker} {id : ConsumerId} {c : Consumer}

/-- The answers given to one request, the latest first. -/
def repliesTo (b : Broker) (request : Nat) : List Response :=
  (b.replies.filter (·.1 = request)).map (·.2)

theorem replies_note {n : Note} (h : n.reply? = none) : (b.note n).replies = b.replies := by
  simp [replies, note, h]

@[simp] theorem replies_answered (b : Broker) (request : Nat) (response : Response) :
    (b.note (.answered request response)).replies = (request, response) :: b.replies := by
  simp [replies, note, Note.reply?]

@[simp] theorem replies_setConsumer (b : Broker) (id : ConsumerId) (c : Consumer) :
    (b.setConsumer id c).replies = b.replies := rfl

@[simp] theorem replies_enqueue (b : Broker) (id : ConsumerId) :
    (b.enqueue id).replies = b.replies := by
  unfold enqueue
  split <;> rfl

@[simp] theorem replies_wake (b : Broker) (id : ConsumerId) : (b.wake id).replies = b.replies := by
  unfold wake
  split
  · rfl
  · split
    · exact replies_enqueue (b.setConsumer id _) id
    · rfl

@[simp] theorem replies_notify (b : Broker) (topic : String) (reason : WakeReason) :
    (b.notify topic reason).replies = b.replies := by
  unfold notify
  split
  · exact replies_note rfl
  · split
    · exact replies_note rfl
    · exact (replies_note rfl).trans (replies_wake b _)

@[simp] theorem replies_leave (b : Broker) (id : ConsumerId) :
    (b.leave id).replies = b.replies := by
  unfold leave
  split
  · rfl
  · dsimp only
    split
    · rfl
    · exact replies_notify (b.setConsumer id _) _ _

theorem replies_call {α : Type} (b : Broker) (call : StoreCall) (topic : String)
    (act : Store → Except StoreError (α × Store)) :
    (b.call call topic act).2.replies = b.replies := by
  rcases b.call_cases call topic act with ⟨e, f, he⟩ | ⟨a, s, f, -, he⟩
  · rw [he]
    exact replies_note (b := { b with faults := f }) rfl
  · rw [he]
    exact replies_note (b := { b with faults := f, store := s }) rfl

@[simp] theorem replies_publish (b : Broker) (topic : String) (payload : Bytes) :
    (b.publish topic payload).2.replies = b.replies := by
  have hcall := b.replies_call .insert topic fun s => (s.insert topic payload b.clock).map ((), ·)
  unfold publish
  split
  · rename_i e b' he
    rwa [he] at hcall
  · rename_i b' he
    rw [he] at hcall
    rw [replies_notify, replies_note rfl, hcall]

@[simp] theorem replies_shutdown (b : Broker) : b.shutdown.2.replies = b.replies := by
  have hcall := b.replies_call .close "" fun s => .ok ((), s.close)
  unfold shutdown
  split
  · rename_i e b' he
    rwa [he] at hcall
  · rename_i b' he
    rwa [he] at hcall

@[simp] theorem replies_subscribe (b : Broker) (topic : String) :
    (b.subscribe topic).2.replies = b.replies := replies_note rfl

@[simp] theorem replies_cancel (b : Broker) (id : ConsumerId) :
    (b.cancel id).replies = b.replies := by
  unfold cancel
  split
  · rfl
  · dsimp only
    split
    · exact replies_enqueue (b.setConsumer id _) id
    · rfl

theorem replies_look (b : Broker) (id : ConsumerId) (c : Consumer) :
    (b.look id c).2.replies = b.replies := by
  cases hc : c.cancelled with
  | true =>
    rw [look_cancelled b hc]
    rfl
  | false =>
    have hcall := (b.setConsumer id c.alert).replies_call .fetchNext c.topic (·.fetchNext c.topic)
    rw [look_uncancelled b id hc]
    split
    · rename_i e b' he
      rw [he] at hcall
      exact (replies_leave b' id).trans hcall
    · rename_i b' he
      rwa [he] at hcall
    · rename_i payload b' he
      rw [he] at hcall
      rw [replies_leave, replies_note rfl]
      exact hcall

theorem replies_park (b : Broker) (id : ConsumerId) : (b.park id).replies = b.replies := by
  unfold park
  split <;> rfl

theorem replies_seek (b : Broker) (id : ConsumerId) : (b.seek id).2.replies = b.replies := by
  unfold seek
  split
  · rfl
  · rename_i c _
    have hfirst := replies_look b id c
    split
    · rename_i result b' he
      rwa [he] at hfirst
    · rename_i b' he
      rw [he] at hfirst
      have hsecond := replies_look (b'.note (.woken id c.topic)) id c
      rw [replies_note rfl, hfirst] at hsecond
      split
      · split
        · rename_i result b'' he'
          rwa [he'] at hsecond
        · rename_i b'' he'
          rw [he'] at hsecond
          exact (replies_park b'' id).trans hsecond
      · exact (replies_park b' id).trans hfirst

@[simp] theorem replies_begin (b : Broker) (id : ConsumerId) :
    (b.begin id).2.replies = b.replies := by
  unfold begin
  split
  · rfl
  · split
    · rfl
    · exact replies_seek b id

@[simp] theorem replies_resume (b : Broker) (id : ConsumerId) :
    (b.resume id).2.replies = b.replies := by
  unfold resume
  split
  · rfl
  · rename_i c _
    split
    · dsimp only
      split
      · exact replies_leave (b.setConsumer id { c with permit := true }) id
      · exact replies_leave b id
    · split
      · exact (replies_seek _ id).trans (replies_note rfl)
      · rfl

@[simp] theorem replies_runNext (b : Broker) (id : ConsumerId) :
    (b.runNext id).replies = b.replies := by
  rcases b.runNext_cases id with he | ⟨b', hb', he⟩
  · rw [he]
  · have hcalled : b'.replies = b.replies := by
      rcases hb' with rfl | rfl
      · exact replies_begin b id
      · exact replies_resume b id
    rcases he with he | ⟨a, he⟩
    · rw [he, hcalled]
    · rw [he, replies_note rfl, hcalled]

@[simp] theorem replies_settle (b : Broker) (id : ConsumerId) (v : Verdict) :
    (b.settle id v).2.replies = b.replies := by
  cases h : b.consumer? id with
  | none => simp [settle, h]
  | some c =>
    cases hh : c.holding with
    | false => rw [settle_idle h hh]
    | true =>
      rcases settle_cases h hh v with ⟨e, f, he⟩ | ⟨s, f, -, he⟩
      · rw [he]
        exact replies_note (b := { b with faults := f }) rfl
      · rw [he, replies_notify]
        cases v <;> rfl

@[simp] theorem replies_release (b : Broker) (id : ConsumerId) :
    (b.release id).replies = b.replies := by
  have hforget : ∀ (b : Broker) (topic : String), (b.forget id topic).replies = b.replies :=
    fun _ _ => replies_note rfl
  cases h : b.consumer? id with
  | none => simp [release, h]
  | some c =>
    cases hh : c.holding with
    | false => rw [release_idle h hh, hforget]
    | true =>
      have hsettle := replies_settle b id .nack
      rw [release_holding h hh, hforget]
      split
      · rename_i b' he
        rw [he] at hsettle
        exact (replies_note rfl).trans hsettle
      · rename_i e b' he
        rw [he] at hsettle
        exact (replies_note rfl).trans hsettle

/-- What serves one consumer does to a broker as others see it. -/
structure Tends (id : ConsumerId) (b b' : Broker) : Prop where
  steps : Ledger.Steps b.ledger b'.ledger
  ready : ∀ other, other ≠ id → other ∈ b.ready → other ∈ b'.ready
  replies : b'.replies = b.replies

theorem Tends.refl (id : ConsumerId) (b : Broker) : Tends id b b :=
  ⟨.refl, fun _ _ hm => hm, rfl⟩

theorem Tends.trans {b'' : Broker} (h : Tends id b b') (h' : Tends id b' b'') : Tends id b b'' :=
  ⟨h.steps.trans h'.steps, fun other hne hm => h'.ready other hne (h.ready other hne hm),
    h'.replies.trans h.replies⟩

/-- Calls that nobody makes for a consumer take no task off the queue. -/
theorem tends_publish (b : Broker) (topic : String) (payload : Bytes) :
    Tends id b (b.publish topic payload).2 :=
  ⟨publish_steps b topic payload, fun _ hne hm => (steady_publish b topic payload).ready hne hm,
    replies_publish b topic payload⟩

theorem tends_shutdown (b : Broker) : Tends id b b.shutdown.2 :=
  ⟨shutdown_steps b, fun _ hne hm => (steady_shutdown b).ready hne hm, replies_shutdown b⟩

theorem tends_subscribe (b : Broker) (topic : String) : Tends id b (b.subscribe topic).2 :=
  ⟨subscribe_steps b topic, fun _ _ hm => hm, replies_subscribe b topic⟩

theorem tends_enqueue (b : Broker) (other : ConsumerId) : Tends id b (b.enqueue other) :=
  ⟨steps_of_eq (ledger_enqueue b other), fun _ hne hm => (steady_enqueue b other).ready hne hm,
    replies_enqueue b other⟩

theorem tends_cancel (b : Broker) (other : ConsumerId) : Tends id b (b.cancel other) :=
  ⟨steps_of_eq (ledger_cancel b other), fun _ hne hm => (steady_cancel b other).ready hne hm,
    replies_cancel b other⟩

theorem tends_note {n : Note} (hn : n.isRecord = false) (hr : n.reply? = none) :
    Tends id b (b.note n) :=
  ⟨steps_of_eq (ledger_note hn), fun _ _ hm => hm, replies_note hr⟩

theorem tends_runNext (b : Broker) (id : ConsumerId) : Tends id b (b.runNext id) := by
  refine ⟨?_, (apart_runNext b id).ready, replies_runNext b id⟩
  rcases b.runNext_cases id with he | ⟨b', hb', he⟩
  · rw [he]
  · have hcalled : Ledger.Steps b.ledger b'.ledger := by
      rcases hb' with rfl | rfl
      · exact begin_steps b id
      · exact resume_steps b id
    rcases he with he | ⟨a, he⟩
    · rwa [he]
    · rw [he, ledger_note rfl]
      exact hcalled

end Broker

namespace Session
open Broker

variable {id : ConsumerId} {deaf : Bool} {p p' : Point}

theorem Act.replies (h : Act id deaf p p') : p'.broker.replies = p.broker.replies := by
  cases h with
  | aside n hn =>
    refine replies_note ?_
    cases n <;> first | rfl | cases hn
  | ended | failed | read | arrived | said => exact replies_note rfl
  | cancelled | pending | unknown | init | lost | unsaid => rfl
  | @settled _ b _ _ v _ _ hs | @unsettled _ b _ _ v _ _ _ hs =>
    have hsettle := replies_settle b id v
    rwa [hs] at hsettle
  | @begun _ b _ _ _ hs | @asleep _ b _ _ hs =>
    have hbegin := replies_begin b id
    rwa [hs] at hbegin
  | @resumed _ b _ _ _ hs | @still _ b _ _ hs =>
    have hresume := replies_resume b id
    rwa [hs] at hresume
  | putBack => exact replies_settle _ id .nack
  | closed => exact (replies_note rfl).trans (replies_release _ id)

theorem Acts.tends (h : Acts id deaf p p') : Tends id p.broker p'.broker := by
  induction h with
  | refl => exact .refl id _
  | tail _ hact ih => exact ih.trans ⟨hact.steps, hact.apart.ready, hact.replies⟩

theorem Ran.tends {s : Session} {r : Option Session × Broker} (h : Ran s id p r) :
    Tends id p.broker r.2 := by
  cases h with
  | paused inlet position h => exact h.tends
  | gone inlet h => exact h.tends

end Session

namespace Service
open Broker

theorem tends_run (s : Service) (id : ConsumerId) : Tends id s.broker (s.run id).broker := by
  cases hs : s.sessions.look id with
  | none =>
    have hrun : s.run id = { s with broker := s.broker.runNext id } := by simp [run, hs]
    rw [hrun]
    exact tends_runNext s.broker id
  | some session =>
    have hran := (session.run_ran { s.broker with span := session.span } id).tends
    cases hr : session.run { s.broker with span := session.span } id with
    | mk left b =>
      rw [hr] at hran
      rw [run_session hs hr]
      exact ⟨hran.steps, hran.ready, hran.replies⟩

theorem tends_openSession (s : Service) (id : ConsumerId) (topic : String) (inlet : Inlet)
    (span : Option RequestSpan) :
    Tends id s.broker (s.openSession topic inlet span).2.broker :=
  (tends_subscribe s.broker topic).trans (tends_enqueue _ _)

theorem tends_feed (s : Service) (id other : ConsumerId) (change : Inlet → Inlet) :
    Tends id s.broker (s.feed other change).broker := by
  unfold feed
  split
  · exact .refl id _
  · dsimp only
    split
    · exact tends_enqueue _ other
    · exact .refl id _

theorem tends_cancelSession (s : Service) (id other : ConsumerId) :
    Tends id s.broker (s.cancelSession other).broker := by
  unfold cancelSession
  split
  · exact .refl id _
  · dsimp only
    split
    · exact (tends_cancel _ other).trans (tends_enqueue _ other)
    · exact tends_cancel _ other

end Service

end TopicQueue
